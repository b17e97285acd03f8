import DataSourceGen.Proofs.DataSource.Blocks
import DataSourceGen.Proofs.Reading.Coherence

/-!
# A source tells its data source

The number of lines of a source tells its shape and how many attributes there are, and these tell
where each section begins. So the sections of equal sources are equal (`sections_eq`), and each
text that was spliced into a line stands between fixed ones there. Hence a data source can be read
back from its source (`source_injective`). **Theorem** (`source_of_parse`) puts this together with
the place of the blocks for the sources that are generated. -/

namespace DataSourceGen

open Text

/-! ### Reading lines back -/

theorem indent_injective {a b : List Text} (h : indent a = indent b) : a = b := by
  have hline (l m : Text)
      (h : (if l.isEmpty then l else '\t' :: l) = if m.isEmpty then m else '\t' :: m) : l = m := by
    rcases l with _ | ⟨c, l⟩
    · rcases m with _ | ⟨e, m⟩
      · rfl
      · cases h
    · rcases m with _ | ⟨e, m⟩
      · cases h
      · exact (List.cons.inj h).2
  exact List.map_inj_right (fun l m => hline l m) |>.mp h

theorem indentBy_injective {a b : List Text} :
    (levels : Nat) → indentBy levels a = indentBy levels b → a = b
  | 0, h => h
  | levels + 1, h => indentBy_injective levels (indent_injective h)

theorem enclose_inj {opening opening' closing closing' : Text} {body body' : List Text}
    (h : enclose opening body closing = enclose opening' body' closing') :
    opening = opening' ∧ body = body' := by
  obtain ⟨hopening, hrest⟩ := List.cons.inj h
  exact ⟨hopening, indent_injective (List.append_inj' hrest rfl).1⟩

theorem braced_inj {head head' : Text} {body body' : List Text}
    (h : braced head body = braced head' body') : head = head' ∧ body = body' := by
  obtain ⟨hopening, hbody⟩ := enclose_inj h
  exact ⟨List.append_cancel_right hopening, hbody⟩

/-- A text between two fixed ones can be read back. -/
theorem between_inj {left right t u : Text} (h : left ++ t ++ right = left ++ u ++ right) : t = u :=
  List.append_cancel_left (List.append_cancel_right h)

/-- The kind of an attribute tells its scalar type, wherever it stands at the end. -/
theorem ScalarType.eq_of_append_eq {s t : ScalarType} {u v : Text}
    (h : u ++ s.schemaAttribute = v ++ t.schemaAttribute) : s = t := by
  have hends : s.schemaAttribute <:+ t.schemaAttribute ∨ t.schemaAttribute <:+ s.schemaAttribute :=
    List.suffix_or_suffix_of_suffix ⟨u, rfl⟩ ⟨v, h.symm⟩
  have apart : ∀ s t : ScalarType, s.schemaAttribute <:+ t.schemaAttribute → s = t := by
    intro s t
    cases s <;> cases t <;> decide
  rcases hends with hends | hends
  · exact apart s t hends
  · exact (apart t s hends).symm

/-- A block is told by the body and its place there. -/
theorem StandsIn.unique {block block' body : List Text} {before after : Nat}
    (h : StandsIn block body before after) (h' : StandsIn block' body before after) :
    block = block' := by
  obtain ⟨head, tail, rfl, rfl, rfl⟩ := h
  obtain ⟨head', tail', hbody, hbefore, hafter⟩ := h'
  exact (List.append_inj (List.append_inj' hbody hafter.symm).1 hbefore.symm).2

/-! ### Keys and assignments -/

theorem schemaAttribute_inj {key key' kind kind' flag flag' : Text}
    (h : schemaAttribute key kind flag = schemaAttribute key' kind' flag') :
    literal key ++ ": " ++ kind = literal key' ++ ": " ++ kind' :=
  List.append_cancel_right (enclose_inj h).1

theorem Attribute.schemaLines_inj {a b : Attribute} (h : a.schemaLines = b.schemaLines) :
    a.name = b.name ∧ a.scalar = b.scalar := by
  have hopening := schemaAttribute_inj h
  have hscalar : a.scalar = b.scalar := ScalarType.eq_of_append_eq hopening
  rw [hscalar] at hopening
  exact ⟨between_inj (List.append_cancel_right (List.append_cancel_right hopening)), hscalar⟩

/-- An attribute is told by its key and its assignment. -/
theorem Attribute.eq_of_lines {a b : Attribute} (hkey : a.schemaLines = b.schemaLines)
    (hassignment : a.assignment = b.assignment) : a = b := by
  obtain ⟨hname, hscalar⟩ := schemaLines_inj hkey
  obtain ⟨name, expression, scalar⟩ := a
  obtain ⟨name', expression', scalar'⟩ := b
  subst hname hscalar
  have hexpression : expression = expression' := between_inj hassignment
  rw [hexpression]

/-- Attributes are told by their keys and their assignments. -/
theorem attributes_eq :
    (as bs : List Attribute) → as.flatMap Attribute.schemaLines = bs.flatMap Attribute.schemaLines →
      as.map Attribute.assignment = bs.map Attribute.assignment → as = bs
  | [], [], _, _ => rfl
  | [], b :: bs, _, h => by cases h
  | a :: as, [], _, h => by cases h
  | a :: as, b :: bs, hkeys, hassignments => by
      obtain ⟨hkey, hkeys⟩ := List.append_inj hkeys rfl
      obtain ⟨hassignment, hassignments⟩ := List.cons.inj hassignments
      rw [Attribute.eq_of_lines hkey hassignment, attributes_eq as bs hkeys hassignments]

namespace DataSource

variable {d e : DataSource}

/-! ### Sections of equal sources -/

theorem length_types (d : DataSource) :
    d.types.length = d.attributes.length + if d.parameter?.isSome then 4 else 7 := by
  rcases hp : d.parameter? with _ | p
  · simp only [types, members, modelMembers, structType, hp, length_braced, List.length_append,
      List.length_map, List.length_cons, List.length_nil, Option.isSome_none, Bool.false_eq_true,
      if_false]
    omega
  · simp only [types, members, structType, hp, length_braced, List.length_append, List.length_map,
      List.length_cons, List.length_nil, Option.isSome_some, if_true]

theorem length_schema (d : DataSource) :
    d.schema.length = 3 * d.attributes.length + if d.parameter?.isSome then 9 else 13 := by
  rcases hp : d.parameter? with _ | p
  · simp only [schema, schemaAttributes, method, hp, length_braced, length_enclose,
      length_schemaLines, List.length_cons, Option.isSome_none, Bool.false_eq_true, if_false]
  · simp only [schema, schemaAttributes, method, schemaAttribute, hp, length_braced, length_enclose,
      length_schemaLines, List.length_append, List.length_singleton, Option.isSome_some, if_true]
    omega

/-- The number of lines tells whether there is a parameter, and the number of attributes. -/
theorem sizes_eq_of_length_eq (h : d.lines.length = e.lines.length) :
    d.parameter?.isSome = e.parameter?.isSome ∧ d.attributes.length = e.attributes.length := by
  have hfixed (d : DataSource) :
      d.shape.fixedLines = if d.parameter?.isSome then 105 else 107 := by
    unfold shape
    cases d.parameter? <;> rfl
  rw [length_lines, length_lines, hfixed, hfixed] at h
  cases hd : d.parameter?.isSome <;> cases he : e.parameter?.isSome <;>
    simp only [hd, he, if_true, if_false, reduceCtorEq, false_and, true_and] at h ⊢ <;> omega

/-- Equal lines have equal sections. -/
theorem sections_eq (h : d.lines = e.lines) :
    d.preamble = e.preamble ∧ d.interfaceCheck = e.interfaceCheck ∧ d.schema = e.schema ∧
      d.results = e.results := by
  obtain ⟨hshape, hcount⟩ := sizes_eq_of_length_eq (congrArg List.length h)
  have htypes : d.types.length = e.types.length := by
    rw [length_types, length_types, hshape, hcount]
  have hschema : d.schema.length = e.schema.length := by
    rw [length_schema, length_schema, hshape, hcount]
  rw [lines_eq, lines_eq] at h
  -- Sections of one length are cut off at the front. Only the length of `read` is not needed: what
  -- follows it has a fixed length, so that the last cut is made from the end.
  obtain ⟨hpreamble, h⟩ := List.append_inj h rfl
  obtain ⟨hcheck, h⟩ := List.append_inj h rfl
  obtain ⟨-, h⟩ := List.append_inj h rfl
  obtain ⟨-, h⟩ := List.append_inj h (by rw [List.length_append, List.length_append, htypes])
  obtain ⟨-, h⟩ := List.append_inj h rfl
  obtain ⟨hschema, h⟩ := List.append_inj h (by rw [List.length_append, List.length_append, hschema])
  obtain ⟨hread, -⟩ := List.append_inj' h rfl
  have hread' : d.read = e.read := List.append_cancel_right hread
  refine ⟨List.append_cancel_right hpreamble, List.append_cancel_right hcheck,
    List.append_cancel_right hschema, ?_⟩
  have he : StandsIn (indent e.results) d.read 11 8 := hread' ▸ results_standsIn
  exact indent_injective (results_standsIn.unique he)

/-! ### Reading a data source back -/

/-- The preamble names the query. -/
theorem queryName_eq (h : d.preamble = e.preamble) : d.queryName = e.queryName := by
  simp only [preamble, List.cons_append] at h
  exact between_inj (List.cons.inj h).1

/-- The check of the interfaces names the type. -/
theorem structName_eq (h : d.interfaceCheck = e.interfaceCheck) : d.structName = e.structName := by
  obtain ⟨-, hbody⟩ := enclose_inj (List.cons.inj h).2
  exact between_inj (List.cons.inj hbody).1

/-- Data sources of one shape both have a parameter, or neither has. -/
theorem parameter?_cases (h : d.parameter?.isSome = e.parameter?.isSome) :
    (d.parameter? = none ∧ e.parameter? = none) ∨
      ∃ p p', d.parameter? = some p ∧ e.parameter? = some p' := by
  rcases hd : d.parameter? with _ | p
  · rw [hd] at h
    exact .inl ⟨rfl, Option.isSome_eq_false_iff.mp h.symm |> Option.isNone_iff_eq_none.mp⟩
  · rw [hd] at h
    obtain ⟨p', he⟩ := Option.isSome_iff_exists.mp h.symm
    exact .inr ⟨p, p', rfl, he⟩

/-- The statements that fill the results name the object of the answer. -/
theorem objectName_eq (h : d.results = e.results)
    (hshape : d.parameter?.isSome = e.parameter?.isSome)
    (hcount : d.attributes.length = e.attributes.length) : d.objectName = e.objectName := by
  unfold results at h
  obtain ⟨hd, he⟩ | ⟨p, p', hd, he⟩ := parameter?_cases hshape
  · simp only [hd, he] at h
    obtain ⟨-, hloop⟩ := List.append_inj h rfl
    obtain ⟨hhead, -⟩ := braced_inj (List.cons.inj hloop).2
    have hempty : d.attributes.isEmpty = e.attributes.isEmpty := by
      rw [Bool.eq_iff_iff, List.isEmpty_iff_length_eq_zero, List.isEmpty_iff_length_eq_zero, hcount]
    unfold loopHead at hhead
    rw [hempty] at hhead
    exact between_inj hhead
  · simp only [hd, he] at h
    obtain ⟨h, -⟩ := List.append_inj' h (by
      simp only [length_enclose, List.length_cons, assignments, List.length_map, hcount])
    obtain ⟨h, -⟩ := List.append_inj' h rfl
    obtain ⟨-, hcheck⟩ := List.append_inj' h rfl
    exact between_inj (braced_inj hcheck).1

/-- The schema tells what its keys are. -/
theorem keyLines_eq (h : d.schema = e.schema) (hshape : d.parameter?.isSome = e.parameter?.isSome) :
    d.keyLines = e.keyLines := by
  have hblock : d.keyBlock = e.keyBlock := by
    obtain ⟨hd, he⟩ | ⟨p, p', hd, he⟩ := parameter?_cases hshape
    · exact indentBy_injective 5
        ((keyBlock_standsIn_collection hd).unique (h ▸ keyBlock_standsIn_collection he))
    · exact indentBy_injective 2
        ((keyBlock_standsIn_single hd).unique (h ▸ keyBlock_standsIn_single he))
  exact (enclose_inj hblock).2

/-- The statements that fill the results tell what the assignments are. -/
theorem assignmentLines_eq (h : d.results = e.results)
    (hshape : d.parameter?.isSome = e.parameter?.isSome) :
    d.assignmentLines = e.assignmentLines := by
  obtain ⟨hd, he⟩ | ⟨p, p', hd, he⟩ := parameter?_cases hshape
  · have hblock := (assignmentBlock_standsIn_collection hd).unique
      (h ▸ assignmentBlock_standsIn_collection he)
    have hblock := indent_injective hblock
    simp only [assignmentBlock, shape, hd, he, LookupShape.ofParameter?] at hblock
    exact (enclose_inj hblock).2
  · have hblock := (assignmentBlock_standsIn_single hd).unique
      (h ▸ assignmentBlock_standsIn_single he)
    simp only [assignmentBlock, shape, hd, he, LookupShape.ofParameter?] at hblock
    exact (enclose_inj hblock).2

/-- The keys tell the parameter, and with the assignments the attributes. -/
theorem parameter_attributes_eq (hkeys : d.keyLines = e.keyLines)
    (hassignments : d.assignmentLines = e.assignmentLines)
    (hshape : d.parameter?.isSome = e.parameter?.isSome) :
    d.parameter? = e.parameter? ∧ d.attributes = e.attributes := by
  unfold keyLines at hkeys
  unfold assignmentLines at hassignments
  obtain ⟨hd, he⟩ | ⟨p, p', hd, he⟩ := parameter?_cases hshape
  · rw [hd, he] at hkeys hassignments
    exact ⟨hd.trans he.symm, attributes_eq _ _ hkeys hassignments⟩
  · rw [hd, he] at hkeys hassignments
    obtain ⟨hkey, hkeys⟩ := List.append_inj hkeys rfl
    have hp : p = p' :=
      between_inj (List.append_cancel_right (List.append_cancel_right (schemaAttribute_inj hkey)))
    rw [hd, he, hp]
    exact ⟨rfl, attributes_eq _ _ hkeys (List.cons.inj hassignments).2⟩

/-- **Nothing is lost**: data sources without line feeds in their texts differ in their sources,
unless they are the same. -/
theorem source_injective (hd : d.IsOnOneLine) (he : e.IsOnOneLine) (h : d.source = e.source) :
    d = e := by
  have hlines : d.lines = e.lines := by
    have hpieces := congrArg pieces h
    rw [pieces_source hd, pieces_source he] at hpieces
    exact List.map_inj_right (fun _ _ => List.append_cancel_right) |>.mp hpieces
  obtain ⟨hshape, hcount⟩ := sizes_eq_of_length_eq (congrArg List.length hlines)
  obtain ⟨hpreamble, hcheck, hschema, hresults⟩ := sections_eq hlines
  obtain ⟨hparameter, hattributes⟩ := parameter_attributes_eq (keyLines_eq hschema hshape)
    (assignmentLines_eq hresults hshape) hshape
  have hobject := objectName_eq hresults hshape hcount
  have hquery := queryName_eq hpreamble
  have hstruct := structName_eq hcheck
  cases d
  cases e
  simp only at hquery hobject hparameter hstruct hattributes
  subst hquery hobject hparameter hstruct hattributes
  rfl

end DataSource

/-! ### Generated sources -/

namespace Query

/-- The parameter of a parsed query has a name, so that its data source has the same. -/
theorem parameter?_dataSource {depth : Nat} {document : Text} {q : Query}
    (h : parse depth document = .ok q) : q.dataSource.parameter? = q.parameter? := by
  obtain ⟨-, hparameter, -⟩ :=
    lacks_of_parse h (c := '\n') (by decide) fun line hline => not_mem_trimmedLines hline
  change q.parameter?.filter (!·.isEmpty) = q.parameter?
  rcases hp : q.parameter? with _ | p
  · rfl
  · rw [Option.filter_some, if_pos]
    simpa using (hparameter p (shape_eq_single hp)).1

/-- The shape of the data source is that of the query. -/
theorem shape_dataSource {depth : Nat} {document : Text} {q : Query}
    (h : parse depth document = .ok q) : q.dataSource.shape = q.shape := by
  rw [DataSource.shape, parameter?_dataSource h, parameter?]
  cases q.shape <;> rfl

/-- The flat names of a parsed query are pairwise distinct. -/
theorem nodup_fields {depth : Nat} {document : Text} {q : Query}
    (h : parse depth document = .ok q) : (q.fields.map Field.flatName).Nodup := by
  obtain ⟨-, -, -, hfields, -⟩ := parse_eq_ok_iff.mp h
  obtain ⟨before, s, lead, -, hs, hdoc⟩ := Reading.exists_reached_ofDocument depth document
  rw [hfields, hdoc]
  exact hs.coherent.nodup_fields

/-- Queries with one data source have the same fields, at the same accessors. -/
theorem accessors_eq {q r : Query} (h : q.dataSource.attributes = r.dataSource.attributes) :
    q.fields = r.fields ∧ q.accessors = r.accessors := by
  have hfield (q : Query) : q.fields =
      q.dataSource.attributes.map fun a => { flatName := a.name, scalar := a.scalar } := by
    simp only [dataSource, List.map_map, Function.comp_def, attributeOf, List.map_id']
  have haccessor (q : Query) :
      q.accessors = q.dataSource.attributes.map fun a => ⟨a.name, a.expression⟩ := by
    simp only [dataSource, List.map_map, Function.comp_def]
    rfl
  rw [hfield q, hfield r, haccessor q, haccessor r, h]
  exact ⟨rfl, rfl⟩

end Query

/-- **Emission loses nothing**: an accepted document gives a source. It has five lines for each
field besides a number that depends on the shape. In a frame of fixed sizes stand three blocks of
it, whose listings have the required parameter first, if there is one, and then each field once, in
order and under its flat name; an assignment takes the accessor of its field. If another accepted
document gives the same source, at whatever depth, then the two queries have the same operation
name, root object, required parameter, fields and accessors. -/
theorem source_of_parse {depth : Nat} {document : Text} {q : Query}
    (h : Query.parse depth document = .ok q) :
    ∃ g, generate depth document = .ok g ∧
      (lines g.source).length = q.shape.fixedLines + 5 * q.fields.length ∧
      (∃ head gap₁ gap₂ tail,
        pieces g.source =
          (head ++ q.dataSource.memberBlock ++ gap₁ ++
            indentBy q.shape.frame.keyLevel q.dataSource.keyBlock ++ gap₂ ++
            indentBy q.shape.frame.assignmentLevel q.dataSource.assignmentBlock ++ tail).map
            (· ++ ['\n']) ∧
        head.length = q.shape.frame.beforeMembers ∧ gap₁.length = q.shape.frame.beforeKeys ∧
        gap₂.length = q.shape.frame.beforeAssignments ∧
        tail.length = q.shape.frame.afterAssignments) ∧
      q.dataSource.parameter? = q.parameter? ∧
      q.dataSource.attributes =
        q.fields.map (fun f => ⟨f.flatName, (q.accessor f.flatName).expression, f.scalar⟩) ∧
      q.dataSource.memberLines =
        q.parameter?.toList.map (fun p =>
          capitalizeFirst p ++ " types.String `tfsdk:\"" ++ p ++ "\"`") ++
        q.fields.map (fun f =>
          capitalizeFirst f.flatName ++ " " ++ f.scalar.valueType ++ " `tfsdk:\"" ++ f.flatName ++
            "\"`") ∧
      q.dataSource.keyLines =
        q.parameter?.toList.flatMap (fun p =>
          (["\"" ++ p ++ "\": schema.StringAttribute\x7b", "\tRequired: true,", "\x7d,"] :
            List Text)) ++
        q.fields.flatMap (fun f =>
          (["\"" ++ f.flatName ++ "\": " ++ f.scalar.schemaAttribute ++ "\x7b",
            "\tComputed: true,", "\x7d,"] : List Text)) ∧
      q.dataSource.assignmentLines =
        q.parameter?.toList.map (fun p =>
          capitalizeFirst p ++ ": config." ++ capitalizeFirst p ++ ",") ++
        q.fields.map (fun f =>
          capitalizeFirst f.flatName ++ ": " ++ f.scalar.valueConstructor ++ "(response." ++
            (q.accessor f.flatName).expression ++ "),") ∧
      (q.fields.map Field.flatName).Nodup ∧
      ∀ depth' document' q' g', Query.parse depth' document' = .ok q' →
        generate depth' document' = .ok g' → g'.source = g.source →
        q'.operationName = q.operationName ∧ q'.rootName = q.rootName ∧
          q'.parameter? = q.parameter? ∧ q'.fields = q.fields ∧ q'.accessors = q.accessors := by
  have hpieces := DataSource.pieces_source (Query.isOnOneLine_dataSource h)
  have hcount : q.dataSource.attributes.length = q.fields.length := List.length_map _
  have hparameter := Query.parameter?_dataSource h
  have hattributes : q.dataSource.attributes =
      q.fields.map fun f => ⟨f.flatName, (q.accessor f.flatName).expression, f.scalar⟩ := rfl
  refine ⟨_, generate_of_parse h, ?_, ?_, hparameter, hattributes, ?_, ?_, ?_,
    Query.nodup_fields h, ?_⟩
  · rw [lines, hpieces, List.length_map, List.length_map, DataSource.length_lines,
      Query.shape_dataSource h, hcount]
  · obtain ⟨head, gap₁, gap₂, tail, hlines, hsizes⟩ := q.dataSource.lines_eq_blocks
    rw [Query.shape_dataSource h] at hlines hsizes
    exact ⟨head, gap₁, gap₂, tail, hpieces.trans (by rw [hlines]), hsizes⟩
  · rw [DataSource.memberLines_eq, hparameter, hattributes, List.map_map]
    rfl
  · rw [DataSource.keyLines_eq_flatMap, hparameter, hattributes, List.flatMap_map]
  · rw [DataSource.assignmentLines, hparameter, hattributes, List.map_map]
    rfl
  · intro depth' document' q' g' hparse hgenerate hsource
    obtain rfl := Except.ok.inj ((generate_of_parse hparse).symm.trans hgenerate)
    have hsame : q'.dataSource = q.dataSource :=
      DataSource.source_injective (Query.isOnOneLine_dataSource hparse)
        (Query.isOnOneLine_dataSource h) hsource
    obtain ⟨hfields, haccessors⟩ := Query.accessors_eq (congrArg DataSource.attributes hsame)
    refine ⟨congrArg DataSource.queryName hsame, congrArg DataSource.objectName hsame, ?_, hfields,
      haccessors⟩
    rw [← Query.parameter?_dataSource hparse, ← Query.parameter?_dataSource h, hsame]

/-- A lookup by a name, with one field in a block of two words. -/
def nameLookupDocument : Text :=
  "query Q($n: String!) \x7b\nR(name: $n) \x7b\na_b \x7b\nc\n"

/-- The source for the lookup has five lines for its field: one member, the three lines of a key and
one assignment, each after those of the parameter. -/
theorem source_of_parse_nameLookupDocument :
    ∃ q g, Query.parse 2 nameLookupDocument = .ok q ∧ generate 2 nameLookupDocument = .ok g ∧
      (lines g.source).length = 105 + 5 * 1 ∧
      q.dataSource.memberLines =
        ["N types.String `tfsdk:\"n\"`".toList, "A_b_c types.String `tfsdk:\"a_b_c\"`".toList] ∧
      q.dataSource.keyLines =
        ["\"n\": schema.StringAttribute\x7b".toList, "\tRequired: true,".toList, "\x7d,".toList,
          "\"a_b_c\": schema.StringAttribute\x7b".toList, "\tComputed: true,".toList,
          "\x7d,".toList] ∧
      q.dataSource.assignmentLines =
        ["N: config.N,".toList, "A_b_c: types.StringValue(response.R.A_b.C),".toList] := by
  have reading : Reading.ofDocument 2 nameLookupDocument =
      { operationName := some "q".toList
        rootName := "R"
        parameter := some "n".toList
        openBlocks := ["a_b".toList]
        lead := "a_b_"
        fields := [{ flatName := "a_b_c" }]
        flatNames := .ofList ["a_b_c".toList]
        compounds := .ofList ["a_b".toList] } := by decide +kernel
  have hparse : Query.parse 2 nameLookupDocument = .ok {
      operationName := "q"
      rootName := "R"
      shape := .single "n"
      fields := [{ flatName := "a_b_c" }]
      compounds := .ofList ["a_b".toList] } := by
    rw [Query.parse, reading]
    rfl
  obtain ⟨g, hgenerate, hcount, -, -, -, hmembers, hkeys, hassignments, -⟩ :=
    source_of_parse hparse
  exact ⟨_, g, hparse, hgenerate, hcount, hmembers.trans (by decide), hkeys.trans (by decide),
    hassignments.trans (by decide)⟩

end DataSourceGen
