import DataSourceGen.Proofs.DataSource.Assignments
import DataSourceGen.Proofs.DataSource.EdgesIndex
import DataSourceGen.Proofs.Segment.RoundTrip

/-!
# The index of the loop

A collection is read in a loop over the edges of the answer. The head of the loop binds an index if
there is a field (`bindsIndex_loopHead_iff`), and an assignment of its body uses the index if some
segment of the flat name, or the root object, brings it in (`usesIndex_expression_iff`). The two are
not the same: a variable that is used is bound, but the head of a loop over fields outside of the
list of edges binds a variable that nothing uses, which Go rejects. **Theorem**
(`loopIndex_of_parse`) says when the index is bound iff it is used. It is if a flat name begins with
the list of edges and no compound takes this segment up (`edges_mem_segments`). -/

namespace DataSourceGen

open Text

/-! ### Binding the index -/

/-- Whether the head of a loop binds the index. -/
def BindsIndex (head : Text) : Prop :=
  "for i := ".toList <+: head

namespace DataSource

variable {d : DataSource}

/-- The head of the loop binds the index iff there is a field, whatever its expression. -/
theorem bindsIndex_loopHead_iff : BindsIndex d.loopHead ↔ d.attributes ≠ [] := by
  unfold BindsIndex loopHead
  rcases d.attributes with _ | ⟨a, rest⟩
  · refine iff_of_false ?_ fun h => h rfl
    rintro ⟨after, hafter⟩
    have hfifth := congrArg (·[4]?) hafter
    cases hfifth
  · exact iff_of_true ⟨"range response." ++ d.objectName ++ ".Edges", by simp⟩ (by simp)

/-- The statements of one turn of the loop. -/
def loopBody (d : DataSource) : List Text :=
  enclose ("current := " ++ d.modelName ++ "\x7b") d.assignments "\x7d" ++
    ["state." ++ d.queryName ++ " = append(state." ++ d.queryName ++ ", current)"]

/-- The assignments of the fields stand in the body of the loop. -/
theorem assignments_standsIn_loopBody : StandsIn (indent d.assignments) d.loopBody 1 2 :=
  ((StandsIn.refl d.assignments).enclose _ _).before_lines _

/-- The loop of a collection stands in the method that reads the data. -/
theorem loop_standsIn_read (hp : d.parameter? = none) :
    StandsIn (indent (braced d.loopHead d.loopBody)) d.read 21 8 := by
  have hloop : StandsIn (braced d.loopHead d.loopBody) d.results 10 0 := by
    simp only [results, hp, readCollection]
    exact ((StandsIn.refl _).after_lines [("var state " ++ d.structName : Text)]).after_lines
      (d.request [] ++ blankLine)
  exact hloop.indent.trans results_standsIn

end DataSource

/-! ### Using the index -/

/-- Whether an expression has the list of edges under the index of the loop as a component. -/
def UsesIndex (expression : Text) : Prop :=
  "Edges[i]".toList ∈ splitAt '.' expression

/-- Whether the component of a segment brings in the index of the loop. The segment is a list of
edges, or says so itself. -/
def BringsIndex (segment : Text) : Prop :=
  segment = "edges" ∨ segment = "Edges" ∨ UsesIndex (capitalizeFirst segment)

theorem usesIndex_component_iff {segment : Text} :
    UsesIndex (LookupShape.collection.component segment) ↔ BringsIndex segment := by
  rcases LookupShape.collection.component_cases segment with ⟨hedges, hindexed⟩ | ⟨hother, hplain⟩
  · rw [hindexed]
    refine iff_of_true (List.mem_singleton.mpr rfl) ?_
    exact hedges.imp_right Or.inl
  · rw [hplain, BringsIndex, ← or_assoc]
    exact (or_iff_right (not_or.mpr hother)).symm

/-- A segment without brackets brings in the index iff it is `edges`, in either case. -/
theorem bringsIndex_iff {segment : Text} (hsegment : '[' ∉ segment) :
    BringsIndex segment ↔ segment = "edges" ∨ segment = "Edges" := by
  have hplain : ¬ UsesIndex (capitalizeFirst segment) := fun h =>
    absurd (subset_of_mem_splitAt _ h (by decide)) (not_mem_capitalizeFirst (by decide) hsegment)
  rw [BringsIndex, or_iff_left hplain]

namespace Query

variable {q : Query} {flatName : Text}

/-- The accessor of a field of a collection uses the index iff the root object has it or a segment
brings it in. -/
theorem usesIndex_expression_iff (hshape : q.shape = .collection) :
    UsesIndex (q.accessor flatName).expression ↔
      UsesIndex q.rootName ∨ ∃ s ∈ q.segmentsOf flatName, BringsIndex s := by
  have hcomponents :
      "Edges[i]".toList ∈ ((q.segmentsOf flatName).map q.shape.component).flatMap (splitAt '.') ↔
        ∃ s ∈ q.segmentsOf flatName, BringsIndex s := by
    rw [List.flatMap_map, List.mem_flatMap, hshape]
    exact exists_congr fun s => and_congr_right fun _ => usesIndex_component_iff
  rw [UsesIndex, splitAt_expression, List.mem_append, hcomponents]
  exact Iff.rfl

/-- In a document without brackets, the index is used iff a segment is a list of edges. -/
theorem usesIndex_iff_of_no_brackets {depth : Nat} {document : Text}
    (h : parse depth document = .ok q) (hshape : q.shape = .collection) (hdocument : '[' ∉ document)
    {f : Field} (hf : f ∈ q.fields) :
    UsesIndex (q.accessor f.flatName).expression ↔
      "edges".toList ∈ q.segmentsOf f.flatName ∨ "Edges".toList ∈ q.segmentsOf f.flatName := by
  obtain ⟨-, hroot, -, hfields⟩ := bracket_not_mem_names h hdocument
  have hrootName : ¬ UsesIndex q.rootName :=
    fun huses => hroot (subset_of_mem_splitAt _ huses (by decide))
  rw [usesIndex_expression_iff hshape, or_iff_right hrootName]
  constructor
  · rintro ⟨s, hs, hbrings⟩
    have hplain : '[' ∉ s := not_mem_segment (by decide) (hfields f hf) s hs
    rcases (bringsIndex_iff hplain).mp hbrings with rfl | rfl
    · exact .inl hs
    · exact .inr hs
  · rintro (hs | hs)
    · exact ⟨_, hs, .inl rfl⟩
    · exact ⟨_, hs, .inr (.inl rfl)⟩

end Query

/-- A flat name that begins with the list of edges has it as its first segment, if no compound
begins with it and goes on. -/
theorem edges_mem_segments {compounds : NameSet} {flatName : Text}
    (hname : "edges_".toList <+: flatName) (hedges : compounds.hasExtension "edges" = false) :
    "edges".toList ∈ segments compounds flatName := by
  obtain ⟨rest, rfl⟩ := hname
  have hscan : segments compounds ("edges".toList ++ separator :: rest) =
      segmentsFrom compounds "edges" (separator :: rest) := by
    refine segmentsFrom_append (separator :: rest) "edges" [] fun u v huv => ?_
    -- there is no separator in the word
    have hsep : separator ∈ "edges".toList := by
      rw [show "edges".toList = u ++ separator :: v from huv]
      exact List.mem_append_right u List.mem_cons_self
    exact absurd hsep (by decide)
  have hcut : segments compounds ("edges_".toList ++ rest) =
      "edges".toList :: segmentsFrom compounds [] rest := by
    refine hscan.trans ?_
    rw [segmentsFrom, hedges]
    rfl
  rw [hcut]
  exact List.mem_cons_self

/-! ### Binding what is used -/

namespace Query

variable {q : Query} {depth : Nat} {document : Text}

/-- Whether the head of the loop binds the index iff the assignment of some field uses it. -/
def BindsWhatItUses (q : Query) : Prop :=
  BindsIndex q.dataSource.loopHead ↔ ∃ f ∈ q.fields, UsesIndex (q.accessor f.flatName).expression

/-- The head of the loop binds the index iff the query has a field. -/
theorem bindsIndex_loopHead_iff : BindsIndex q.dataSource.loopHead ↔ q.fields ≠ [] :=
  DataSource.bindsIndex_loopHead_iff.trans List.map_eq_nil_iff.not

/-- An index that is used is bound. -/
theorem bindsIndex_of_usesIndex
    (h : ∃ f ∈ q.fields, UsesIndex (q.accessor f.flatName).expression) :
    BindsIndex q.dataSource.loopHead := by
  obtain ⟨f, hf, -⟩ := h
  exact bindsIndex_loopHead_iff.mpr (List.ne_nil_of_mem hf)

/-- The head binds what is used iff there is no field at all, or the index is used. -/
theorem bindsWhatItUses_iff :
    q.BindsWhatItUses ↔
      q.fields = [] ∨ ∃ f ∈ q.fields, UsesIndex (q.accessor f.flatName).expression := by
  constructor
  · intro h
    by_cases hfields : q.fields = []
    · exact .inl hfields
    · exact .inr (h.mp (bindsIndex_loopHead_iff.mpr hfields))
  · rintro (hfields | huses)
    · refine iff_of_false (fun hbinds => bindsIndex_loopHead_iff.mp hbinds hfields) ?_
      exact fun huses => bindsIndex_loopHead_iff.mp (bindsIndex_of_usesIndex huses) hfields
    · exact iff_of_true (bindsIndex_of_usesIndex huses) huses

/-- The head of a loop over fields binds what is used iff the root object has the index, or some
segment brings it in. -/
theorem bindsWhatItUses_iff_bringsIndex (hshape : q.shape = .collection) :
    q.BindsWhatItUses ↔
      q.fields = [] ∨ UsesIndex q.rootName ∨
        ∃ f ∈ q.fields, ∃ s ∈ q.segmentsOf f.flatName, BringsIndex s := by
  rw [bindsWhatItUses_iff]
  by_cases hfields : q.fields = []
  · exact iff_of_true (.inl hfields) (.inl hfields)
  · rw [or_iff_right hfields, or_iff_right hfields]
    simp only [usesIndex_expression_iff hshape]
    constructor
    · rintro ⟨f, hf, huses⟩
      exact huses.imp_right fun hbrings => ⟨f, hf, hbrings⟩
    · rintro (hroot | ⟨f, hf, hbrings⟩)
      · obtain ⟨f, hf⟩ := List.exists_mem_of_ne_nil _ hfields
        exact ⟨f, hf, .inl hroot⟩
      · exact ⟨f, hf, .inr hbrings⟩

/-- In a document without brackets, some segment must be a list of edges. -/
theorem bindsWhatItUses_iff_of_no_brackets (h : parse depth document = .ok q)
    (hshape : q.shape = .collection) (hdocument : '[' ∉ document) :
    q.BindsWhatItUses ↔
      q.fields = [] ∨ ∃ f ∈ q.fields,
        "edges".toList ∈ q.segmentsOf f.flatName ∨ "Edges".toList ∈ q.segmentsOf f.flatName := by
  rw [bindsWhatItUses_iff]
  refine or_congr_right (exists_congr fun f => and_congr_right fun hf => ?_)
  exact usesIndex_iff_of_no_brackets h hshape hdocument hf

/-- A field below the list of edges uses the index, if no compound takes up this segment. -/
theorem bindsWhatItUses_of_edges (hshape : q.shape = .collection)
    (hedges : q.compounds.hasExtension "edges" = false)
    (hfield : ∃ f ∈ q.fields, "edges_".toList <+: f.flatName) : q.BindsWhatItUses := by
  obtain ⟨f, hf, hname⟩ := hfield
  refine (bindsWhatItUses_iff_bringsIndex hshape).mpr (.inr (.inr ⟨f, hf, ?_⟩))
  exact ⟨_, edges_mem_segments hname hedges, .inl rfl⟩

/-- A source for a collection has the loop in the method that reads the data, with the assignments
of the fields in its body. -/
theorem exists_loop (h : parse depth document = .ok q) (hshape : q.shape = .collection) :
    ∃ head body tail,
      pieces q.dataSource.source = (head ++ q.dataSource.read ++ tail).map (· ++ ['\n']) ∧
      StandsIn (indent (braced q.dataSource.loopHead body)) q.dataSource.read 21 8 ∧
      StandsIn
        (indent (q.fields.map fun f =>
          capitalizeFirst f.flatName ++ ": " ++ f.scalar.valueConstructor ++ "(response." ++
            (q.accessor f.flatName).expression ++ "),"))
        body 1 2 := by
  obtain ⟨head, tail, hpieces⟩ :=
    (isOnOneLine_dataSource h).exists_pieces_eq q.dataSource.read (by simp)
  have hparameter : q.dataSource.parameter? = none := by
    simp [dataSource, parameter?, hshape, LookupShape.parameter?]
  have hassignments := q.dataSource.assignments_standsIn_loopBody
  rw [DataSource.assignments, dataSource, List.map_map] at hassignments
  exact ⟨head, q.dataSource.loopBody, tail, hpieces, DataSource.loop_standsIn_read hparameter,
    hassignments⟩

end Query

/-- **The index of the loop**: the source of a collection has a loop in the method that reads the
data, with the assignments of the fields in its body. The head binds the index iff there is a field,
so that an index that is used is bound. An index that is bound is used iff there is no field, or the
root object has the index, or some segment of some flat name brings it in. For a document without
brackets this segment is `edges` or `Edges`, and there is one if a flat name begins with `edges_`
and no compound begins with `edges` and goes on. -/
theorem loopIndex_of_parse {depth : Nat} {document : Text} {q : Query}
    (h : Query.parse depth document = .ok q) (hshape : q.shape = .collection) :
    ∃ g, generate depth document = .ok g ∧
      (∃ head body tail,
        pieces g.source = (head ++ q.dataSource.read ++ tail).map (· ++ ['\n']) ∧
        StandsIn (indent (braced q.dataSource.loopHead body)) q.dataSource.read 21 8 ∧
        StandsIn
          (indent (q.fields.map fun f =>
            capitalizeFirst f.flatName ++ ": " ++ f.scalar.valueConstructor ++ "(response." ++
              (q.accessor f.flatName).expression ++ "),"))
          body 1 2) ∧
      (BindsIndex q.dataSource.loopHead ↔ q.fields ≠ []) ∧
      ((∃ f ∈ q.fields, UsesIndex (q.accessor f.flatName).expression) →
        BindsIndex q.dataSource.loopHead) ∧
      (q.BindsWhatItUses ↔
        q.fields = [] ∨ UsesIndex q.rootName ∨
          ∃ f ∈ q.fields, ∃ s ∈ q.segmentsOf f.flatName, BringsIndex s) ∧
      ('[' ∉ document →
        (q.BindsWhatItUses ↔
          q.fields = [] ∨ ∃ f ∈ q.fields,
            "edges".toList ∈ q.segmentsOf f.flatName ∨
              "Edges".toList ∈ q.segmentsOf f.flatName)) ∧
      (q.compounds.hasExtension "edges" = false →
        (∃ f ∈ q.fields, "edges_".toList <+: f.flatName) → q.BindsWhatItUses) :=
  ⟨_, generate_of_parse h, Query.exists_loop h hshape, Query.bindsIndex_loopHead_iff,
    Query.bindsIndex_of_usesIndex, Query.bindsWhatItUses_iff_bringsIndex hshape,
    Query.bindsWhatItUses_iff_of_no_brackets h hshape, Query.bindsWhatItUses_of_edges hshape⟩

/-- A collection whose list of edges has a leaf that begins with its name. -/
def edgesCountDocument : Text :=
  "query Devices \x7b\nInfraDevice \x7b\nedges \x7b\nnode \x7b\nid\nedges_count\n"

/-- The leaf `edges_count` is a compound that takes up the list of edges in each flat name, so that
the index is bound and no assignment uses it. -/
theorem loopIndex_of_parse_edgesCountDocument :
    ∃ q g, Query.parse 2 edgesCountDocument = .ok q ∧ q.shape = .collection ∧
      generate 2 edgesCountDocument = .ok g ∧
      q.fields.map Field.flatName = ["edges_node_id".toList, "edges_node_edges_count".toList] ∧
      BindsIndex q.dataSource.loopHead ∧ ¬ q.BindsWhatItUses := by
  have reading : Reading.ofDocument 2 edgesCountDocument =
      { operationName := some "devices".toList
        rootName := "InfraDevice"
        openBlocks := ["node".toList, "edges".toList]
        lead := "edges_node_"
        fields := [{ flatName := "edges_node_id" }, { flatName := "edges_node_edges_count" }]
        flatNames := .ofList ["edges_node_id".toList, "edges_node_edges_count".toList]
        compounds := .ofList ["edges_count".toList] } := rfl
  have hparse : Query.parse 2 edgesCountDocument = .ok {
      operationName := "devices"
      rootName := "InfraDevice"
      shape := .collection
      fields := [{ flatName := "edges_node_id" }, { flatName := "edges_node_edges_count" }]
      compounds := .ofList ["edges_count".toList] } := by
    rw [Query.parse, reading]
    rfl
  obtain ⟨g, hgenerate, -, hbinds, -, -, hlaw, -⟩ := loopIndex_of_parse hparse rfl
  refine ⟨_, g, hparse, rfl, hgenerate, rfl, hbinds.mpr (by decide), fun h => ?_⟩
  exact absurd ((hlaw (by decide)).mp h) (by decide)

/-- A collection with a field beside its list of edges, and none in it. -/
def pageInfoDocument : Text :=
  "query Devices \x7b\n  InfraDevice \x7b\n    pageInfo \x7b\n      hasNextPage\n" ++
  "    \x7d\n  \x7d\n\x7d\n"

/-- The page of a collection is not in its list of edges: the loop binds an index for it, and its
one assignment uses none. -/
theorem bindsIndex_of_pageInfoDocument :
    ∃ q g, Query.parse 2 pageInfoDocument = .ok q ∧ generate 2 pageInfoDocument = .ok g ∧
      q.shape = .collection ∧
      (∃ head body tail,
        pieces g.source = (head ++ q.dataSource.read ++ tail).map (· ++ ['\n']) ∧
        StandsIn (indent (braced q.dataSource.loopHead body)) q.dataSource.read 21 8 ∧
        StandsIn
          ["\tPageInfo_hasNextPage: " ++
            "types.StringValue(response.InfraDevice.PageInfo.HasNextPage),".toList]
          body 1 2) ∧
      q.dataSource.loopHead = "for i := range response.InfraDevice.Edges" ∧
      BindsIndex q.dataSource.loopHead ∧
      ¬ ∃ f ∈ q.fields, UsesIndex (q.accessor f.flatName).expression := by
  have reading : Reading.ofDocument 2 pageInfoDocument =
      { operationName := some "devices".toList
        rootName := "InfraDevice"
        openBlocks := ["pageInfo".toList]
        fields := [{ flatName := "pageInfo_hasNextPage" }]
        flatNames := .ofList ["pageInfo_hasNextPage".toList] } := rfl
  have hparse : Query.parse 2 pageInfoDocument = .ok {
      operationName := "devices"
      rootName := "InfraDevice"
      shape := .collection
      fields := [{ flatName := "pageInfo_hasNextPage" }]
      compounds := .ofList [] } := by
    rw [Query.parse, reading]
    rfl
  refine ⟨_, _, hparse, generate_of_parse hparse, rfl, Query.exists_loop hparse rfl, rfl,
    Query.bindsIndex_loopHead_iff.mpr (by decide), ?_⟩
  rintro ⟨f, hf, huses⟩
  rw [List.mem_singleton.mp hf] at huses
  exact absurd huses (by unfold UsesIndex; decide)

end DataSourceGen
