import DataSourceGen.Proofs.DataSource.Unbroken

/-!
# Three blocks of a source

A source lists its attributes three times: as the members of the struct for one result, as the keys
of the schema, and as the assignments that fill a result. `memberLines`, `keyLines` and
`assignmentLines` are these listings, the required parameter of a lookup first. The blocks that
hold them have their place in the source: the numbers of lines before, between and after them
depend only on whether there is a parameter (`lines_eq_blocks`). -/

namespace DataSourceGen

open Text

/-! ### A block in a body -/

@[simp] theorem length_indent (body : List Text) : (indent body).length = body.length :=
  List.length_map _

theorem indent_append (a b : List Text) : indent (a ++ b) = indent a ++ indent b :=
  List.map_append

@[simp] theorem length_enclose (opening closing : Text) (body : List Text) :
    (enclose opening body closing).length = body.length + 2 := by
  simp only [enclose, List.cons_append, List.length_cons, List.length_append, length_indent,
    List.length_nil]

/-- A body some levels deeper. -/
def indentBy : Nat → List Text → List Text
  | 0, body => body
  | levels + 1, body => indent (indentBy levels body)

@[simp] theorem length_indentBy (body : List Text) :
    (levels : Nat) → (indentBy levels body).length = body.length
  | 0 => rfl
  | levels + 1 => (length_indent _).trans (length_indentBy body levels)

@[simp] theorem length_braced (head : Text) (body : List Text) :
    (braced head body).length = body.length + 2 :=
  length_enclose _ _ body

theorem length_schemaLines (attributes : List Attribute) :
    (attributes.flatMap Attribute.schemaLines).length = 3 * attributes.length := by
  induction attributes with
  | nil => rfl
  | cons a rest ih =>
    rw [List.flatMap_cons, List.length_append, ih, List.length_cons, Attribute.schemaLines,
      schemaAttribute, length_enclose, List.length_singleton]
    omega

/-- Whether a block stands in a body, with so many lines before and after it. -/
def StandsIn (block body : List Text) (before after : Nat) : Prop :=
  ∃ head tail, body = head ++ block ++ tail ∧ head.length = before ∧ tail.length = after

namespace StandsIn

variable {block body : List Text} {before after : Nat}

theorem refl (block : List Text) : StandsIn block block 0 0 :=
  ⟨[], [], (List.append_nil block).symm, rfl, rfl⟩

/-- Lines put before a body stand before the block. -/
theorem after_lines (h : StandsIn block body before after) (first : List Text) :
    StandsIn block (first ++ body) (first.length + before) after := by
  obtain ⟨head, tail, rfl, rfl, rfl⟩ := h
  exact ⟨first ++ head, tail, by simp only [List.append_assoc], List.length_append, rfl⟩

/-- Lines put after a body stand after the block. -/
theorem before_lines (h : StandsIn block body before after) (last : List Text) :
    StandsIn block (body ++ last) before (after + last.length) := by
  obtain ⟨head, tail, rfl, rfl, rfl⟩ := h
  exact ⟨head, tail ++ last, by simp only [List.append_assoc], rfl, List.length_append⟩

/-- A body that is enclosed takes its block along, one level deeper. -/
theorem enclose (h : StandsIn block body before after) (opening closing : Text) :
    StandsIn (indent block) (enclose opening body closing) (before + 1) (after + 1) := by
  obtain ⟨head, tail, rfl, rfl, rfl⟩ := h
  refine ⟨opening :: indent head, indent tail ++ [closing], ?_, ?_, ?_⟩
  · simp only [DataSourceGen.enclose, indent_append, List.cons_append, List.append_assoc]
  · rw [List.length_cons, length_indent]
  · rw [List.length_append, length_indent, List.length_singleton]

/-- Indenting a body takes its block along. -/
theorem indent (h : StandsIn block body before after) :
    StandsIn (indent block) (indent body) before after := by
  obtain ⟨head, tail, rfl, rfl, rfl⟩ := h
  refine ⟨DataSourceGen.indent head, DataSourceGen.indent tail, ?_, length_indent _,
    length_indent _⟩
  rw [indent_append, indent_append]

/-- A block of a body stands where the body stands. -/
theorem trans (h : StandsIn block body before after) {whole : List Text} {before' after' : Nat}
    (h' : StandsIn body whole before' after') :
    StandsIn block whole (before' + before) (after + after') := by
  obtain ⟨head, tail, rfl, rfl, rfl⟩ := h
  obtain ⟨head', tail', rfl, rfl, rfl⟩ := h'
  exact ⟨head' ++ head, tail ++ tail', by simp only [List.append_assoc], List.length_append,
    List.length_append⟩

/-- The lines of a block are lines of the body, further down by those before the block. -/
theorem getElem?_eq (h : StandsIn block body before after) {k : Nat} (hk : k < block.length) :
    body[before + k]? = block[k]? := by
  obtain ⟨head, tail, rfl, rfl, rfl⟩ := h
  rw [List.append_assoc, List.getElem?_append_right (by omega), Nat.add_sub_cancel_left,
    List.getElem?_append_left hk]

/-- Blocks of three bodies stand in order where the bodies stand in order. -/
theorem three {block₁ block₂ block₃ body₁ body₂ body₃ : List Text}
    {before₁ after₁ before₂ after₂ before₃ after₃ : Nat} (h₁ : StandsIn block₁ body₁ before₁ after₁)
    (h₂ : StandsIn block₂ body₂ before₂ after₂) (h₃ : StandsIn block₃ body₃ before₃ after₃)
    (first mid₁ mid₂ last : List Text) :
    ∃ head gap₁ gap₂ tail,
      first ++ body₁ ++ mid₁ ++ body₂ ++ mid₂ ++ body₃ ++ last =
        head ++ block₁ ++ gap₁ ++ block₂ ++ gap₂ ++ block₃ ++ tail ∧
      head.length = first.length + before₁ ∧ gap₁.length = after₁ + mid₁.length + before₂ ∧
      gap₂.length = after₂ + mid₂.length + before₃ ∧ tail.length = after₃ + last.length := by
  obtain ⟨head₁, tail₁, rfl, rfl, rfl⟩ := h₁
  obtain ⟨head₂, tail₂, rfl, rfl, rfl⟩ := h₂
  obtain ⟨head₃, tail₃, rfl, rfl, rfl⟩ := h₃
  refine ⟨first ++ head₁, tail₁ ++ mid₁ ++ head₂, tail₂ ++ mid₂ ++ head₃, tail₃ ++ last, ?_, ?_,
    ?_, ?_, ?_⟩
  · simp only [List.append_assoc]
  all_goals simp only [List.length_append]

end StandsIn

/-- Each of some bodies that are joined stands in the whole. -/
theorem exists_intercalate_eq (mark : List Text) {part : List Text} :
    (parts : List (List Text)) → part ∈ parts →
      ∃ head tail, List.intercalate mark parts = head ++ part ++ tail
  | [], h => nomatch h
  | [only], h => by
      rw [List.mem_singleton.mp h]
      exact ⟨[], [], by simp [List.intercalate]⟩
  | first :: second :: rest, h => by
      rw [List.intercalate_cons_cons]
      rcases List.mem_cons.mp h with rfl | hlater
      · exact ⟨[], mark ++ List.intercalate mark (second :: rest), by simp⟩
      · obtain ⟨head, tail, heq⟩ := exists_intercalate_eq mark (second :: rest) hlater
        refine ⟨first ++ mark ++ head, tail, ?_⟩
        rw [heq]
        simp only [List.append_assoc]

/-- Each section of a source stands in its text, if no text of the data source has a line feed. -/
theorem DataSource.IsOnOneLine.exists_pieces_eq {d : DataSource} (hd : d.IsOnOneLine)
    (part : List Text)
    (h : part ∈ [d.preamble, d.interfaceCheck, d.constructor, d.types, d.metadata, d.schema, d.read,
      d.configure]) :
    ∃ head tail, pieces d.source = (head ++ part ++ tail).map (· ++ ['\n']) := by
  obtain ⟨head, tail, hlines⟩ := exists_intercalate_eq blankLine _ h
  exact ⟨head, tail, by rw [pieces_source hd, DataSource.lines, hlines]⟩

/-! ### The listings -/

/-- How many lines of a source stand before, between and after its three blocks, and how deep the
second and the third block are. -/
structure Frame where
  beforeMembers : Nat
  beforeKeys : Nat
  beforeAssignments : Nat
  afterAssignments : Nat
  keyLevel : Nat
  assignmentLevel : Nat

namespace LookupShape

/-- The frame of the source for one entity, or for a collection. -/
def frame : LookupShape → Frame
  | .single _ => ⟨28, 7, 31, 27, 2, 1⟩
  | .collection => ⟨33, 11, 28, 29, 5, 2⟩

/-- The number of lines that a source has besides those for its attributes. -/
def fixedLines : LookupShape → Nat
  | .single _ => 105
  | .collection => 107

end LookupShape

/-- The declaration of a member with a tag. -/
theorem Member.line_eq (name type tag : Text) :
    Member.line ⟨name, type, some tag⟩ = name ++ " " ++ type ++ " `tfsdk:\"" ++ tag ++ "\"`" := by
  simp only [Member.line, literal, List.append_assoc]
  rfl

/-- The three lines of an attribute of a schema. -/
theorem schemaAttribute_eq (key kind flag : Text) :
    schemaAttribute key kind flag =
      ["\"" ++ key ++ "\": " ++ kind ++ "\x7b", "\t" ++ flag ++ ": true,", "\x7d,"] := by
  have hopening : literal key ++ ": " ++ kind ++ "\x7b" =
      "\"" ++ key ++ "\": " ++ kind ++ "\x7b" := by
    simp only [literal, List.append_assoc]
    rfl
  have hflag : indent [flag ++ ": true,"] = ["\t" ++ flag ++ ": true,"] := by
    simp [indent]
  rw [schemaAttribute, enclose, hopening, hflag]
  rfl

namespace DataSource

/-- What a data source looks up. -/
def shape (d : DataSource) : LookupShape :=
  .ofParameter? d.parameter?

theorem shape_of_some {d : DataSource} {p : Text} (h : d.parameter? = some p) :
    d.shape = .single p := by
  rw [shape, h, LookupShape.ofParameter?]

theorem shape_of_none {d : DataSource} (h : d.parameter? = none) : d.shape = .collection := by
  rw [shape, h, LookupShape.ofParameter?]

/-- The members for the required parameter and the attributes. -/
def memberLines (d : DataSource) : List Text :=
  d.parameter?.toList.map (fun p => Member.line ⟨capitalizeFirst p, "types.String", some p⟩) ++
    d.attributes.map fun a => a.member.line

/-- The keys for the required parameter and the attributes, each with its declaration. -/
def keyLines (d : DataSource) : List Text :=
  d.parameter?.toList.flatMap (schemaAttribute · "schema.StringAttribute" "Required") ++
    d.attributes.flatMap Attribute.schemaLines

/-- The assignments for the required parameter and the attributes. -/
def assignmentLines (d : DataSource) : List Text :=
  d.parameter?.toList.map (fun p => capitalizeFirst p ++ ": config." ++ capitalizeFirst p ++ ",") ++
    d.attributes.map Attribute.assignment

/-- A member has the tag of its own name: those of the attributes, after that of the parameter. -/
theorem memberLines_eq (d : DataSource) :
    d.memberLines =
      d.parameter?.toList.map (fun p =>
        capitalizeFirst p ++ " types.String `tfsdk:\"" ++ p ++ "\"`") ++
      d.attributes.map fun a =>
        capitalizeFirst a.name ++ " " ++ a.scalar.valueType ++ " `tfsdk:\"" ++ a.name ++ "\"`" := by
  have hparameter (p : Text) : Member.line ⟨capitalizeFirst p, "types.String", some p⟩ =
      capitalizeFirst p ++ " types.String `tfsdk:\"" ++ p ++ "\"`" := by
    rw [Member.line_eq]
    simp only [List.append_assoc]
    rfl
  simp only [memberLines, hparameter, Attribute.member, Member.line_eq]

/-- A key has three lines: those of the attributes are computed, that of the parameter required. -/
theorem keyLines_eq_flatMap (d : DataSource) :
    d.keyLines =
      d.parameter?.toList.flatMap (fun p : Text =>
        (["\"" ++ p ++ "\": schema.StringAttribute\x7b", "\tRequired: true,", "\x7d,"] :
          List Text)) ++
      d.attributes.flatMap fun a =>
        (["\"" ++ a.name ++ "\": " ++ a.scalar.schemaAttribute ++ "\x7b", "\tComputed: true,",
          "\x7d,"] : List Text) := by
  have hparameter (p : Text) : schemaAttribute p "schema.StringAttribute" "Required" =
      ["\"" ++ p ++ "\": schema.StringAttribute\x7b", "\tRequired: true,", "\x7d,"] := by
    rw [schemaAttribute_eq]
    simp only [List.append_assoc]
    rfl
  have hfield (a : Attribute) : a.schemaLines =
      ["\"" ++ a.name ++ "\": " ++ a.scalar.schemaAttribute ++ "\x7b", "\tComputed: true,",
        "\x7d,"] :=
    schemaAttribute_eq ..
  rw [keyLines, funext hparameter, funext hfield]

/-- The declaration of the struct for one result; for one entity it also holds the client. -/
def memberBlock (d : DataSource) : List Text :=
  match d.shape with
  | .single _ =>
    braced ("type " ++ d.structName ++ " struct")
      (Member.line ⟨"client", "*graphql.Client", none⟩ :: d.memberLines)
  | .collection => braced ("type " ++ d.modelName ++ " struct") d.memberLines

/-- The map from the keys to their declarations. -/
def keyBlock (d : DataSource) : List Text :=
  enclose "Attributes: map[string]schema.Attribute\x7b" d.keyLines "\x7d,"

/-- The literal that fills one result. -/
def assignmentBlock (d : DataSource) : List Text :=
  match d.shape with
  | .single _ => enclose ("state := " ++ d.structName ++ "\x7b") d.assignmentLines "\x7d"
  | .collection => enclose ("current := " ++ d.modelName ++ "\x7b") d.assignmentLines "\x7d"

/-! ### Their places -/

variable {d : DataSource} {p : Text}

theorem memberBlock_standsIn_single (hp : d.parameter? = some p) :
    StandsIn d.memberBlock d.types 0 0 := by
  have htypes : d.types = d.memberBlock := by
    simp only [types, memberBlock, structType, members, memberLines, shape, hp,
      LookupShape.ofParameter?, Option.toList_some, List.map_cons, List.map_nil, List.map_map,
      List.append_nil, List.cons_append, List.nil_append]
    rfl
  rw [htypes]
  exact .refl _

theorem memberBlock_standsIn_collection (hp : d.parameter? = none) :
    StandsIn d.memberBlock d.types 5 0 := by
  have htypes : d.types = (structType d.structName d.members ++ blankLine) ++ d.memberBlock := by
    simp only [types, memberBlock, structType, modelMembers, memberLines, shape, hp,
      LookupShape.ofParameter?, Option.toList_none, List.map_nil, List.nil_append, List.map_map,
      List.append_assoc]
    rfl
  have hfirst : (structType d.structName d.members ++ blankLine).length = 5 := by
    simp only [structType, members, hp]
    rfl
  rw [htypes]
  exact hfirst ▸ (StandsIn.refl d.memberBlock).after_lines _

theorem keyBlock_standsIn_single (hp : d.parameter? = some p) :
    StandsIn (indentBy 2 d.keyBlock) d.schema 2 2 := by
  simp only [schema, method, schemaAttributes, keyBlock, keyLines, hp, Option.toList_some,
    List.flatMap_cons, List.flatMap_nil, List.append_nil]
  exact ((StandsIn.refl _).enclose _ _).enclose _ _

theorem keyBlock_standsIn_collection (hp : d.parameter? = none) :
    StandsIn (indentBy 5 d.keyBlock) d.schema 6 5 := by
  simp only [schema, method, schemaAttributes, keyBlock, keyLines, hp, Option.toList_none,
    List.flatMap_nil, List.nil_append]
  exact ((((((StandsIn.refl _).enclose _ _).after_lines ["Computed: true,"]).enclose _ _).enclose _
    _).enclose _ _).enclose _ _

/-- The statements that fill the results stand between the same lines in any source. -/
theorem results_standsIn : StandsIn (indent d.results) d.read 11 8 :=
  (((StandsIn.refl d.results).after_lines _).before_lines blankLine |>.before_lines _).enclose _ _

theorem assignmentBlock_standsIn_single (hp : d.parameter? = some p) :
    StandsIn d.assignmentBlock d.results 17 0 := by
  have hresult : d.results = (d.request (", config." ++ capitalizeFirst p ++ ".ValueString()") ++
      blankLine ++ braced ("if len(response." ++ d.objectName ++ ".Edges) != 1")
        (failWith
          (literal ("Didn't receive a single " ++ d.queryName ++
            ", query didn't return exactly 1 " ++ d.queryName))
          (literal ("Expected exactly 1 " ++ d.queryName ++
            " in response, got a different count."))) ++ blankLine) ++ d.assignmentBlock := by
    simp only [results, readSingle, assignmentBlock, assignmentLines, shape, hp,
      LookupShape.ofParameter?, Option.toList_some, List.map_cons, List.map_nil, List.cons_append,
      List.nil_append, assignments]
  rw [hresult]
  exact (StandsIn.refl _).after_lines _

theorem assignmentBlock_standsIn_collection (hp : d.parameter? = none) :
    StandsIn (indent d.assignmentBlock) d.results 11 2 := by
  have hblock : d.assignmentBlock =
      enclose ("current := " ++ d.modelName ++ "\x7b") d.assignments "\x7d" := by
    simp only [assignmentBlock, assignmentLines, shape, hp, LookupShape.ofParameter?,
      Option.toList_none, List.map_nil, List.nil_append, assignments]
  simp only [results, hp, readCollection, ← hblock]
  have hloop := (((StandsIn.refl d.assignmentBlock).before_lines
    ["state." ++ d.queryName ++ " = append(state." ++ d.queryName ++ ", current)"]).enclose
      (d.loopHead ++ " \x7b") "\x7d").after_lines [("var state " ++ d.structName : Text)]
  exact hloop.after_lines (d.request [] ++ blankLine)

/-- **The place of the blocks**: the lines of a source are the three blocks, in order and at their
levels, in a frame whose sizes depend on the shape only. -/
theorem lines_eq_blocks (d : DataSource) :
    ∃ head gap₁ gap₂ tail,
      d.lines = head ++ d.memberBlock ++ gap₁ ++
        indentBy d.shape.frame.keyLevel d.keyBlock ++ gap₂ ++
        indentBy d.shape.frame.assignmentLevel d.assignmentBlock ++ tail ∧
      head.length = d.shape.frame.beforeMembers ∧ gap₁.length = d.shape.frame.beforeKeys ∧
      gap₂.length = d.shape.frame.beforeAssignments ∧
      tail.length = d.shape.frame.afterAssignments := by
  have hlines : d.lines =
      (d.preamble ++ blankLine ++ d.interfaceCheck ++ blankLine ++ d.constructor ++ blankLine) ++
        d.types ++ (blankLine ++ d.metadata ++ blankLine) ++ d.schema ++ blankLine ++ d.read ++
        (blankLine ++ d.configure) := by
    rw [lines_eq]
    simp only [List.append_assoc]
  rcases hp : d.parameter? with _ | p
  · have hassignments := (assignmentBlock_standsIn_collection hp).indent.trans results_standsIn
    have hblocks := (memberBlock_standsIn_collection hp).three (keyBlock_standsIn_collection hp)
      hassignments
    rw [hlines, shape_of_none hp]
    exact hblocks _ _ _ _
  · have hassignments := (assignmentBlock_standsIn_single hp).indent.trans results_standsIn
    have hblocks := (memberBlock_standsIn_single hp).three (keyBlock_standsIn_single hp)
      hassignments
    rw [hlines, shape_of_some hp]
    exact hblocks _ _ _ _

/-- The number of lines of a source. -/
theorem length_lines (d : DataSource) :
    d.lines.length = d.shape.fixedLines + 5 * d.attributes.length := by
  obtain ⟨head, gap₁, gap₂, tail, hlines, hhead, hgap₁, hgap₂, htail⟩ := d.lines_eq_blocks
  rw [hlines]
  simp only [List.length_append, hhead, hgap₁, hgap₂, htail, length_indentBy, keyBlock, keyLines,
    length_enclose, length_schemaLines]
  rcases hp : d.parameter? with _ | p
  · simp only [memberBlock, assignmentBlock, memberLines, assignmentLines, shape, hp,
      LookupShape.ofParameter?, LookupShape.frame, LookupShape.fixedLines, length_braced,
      length_enclose, List.length_append, List.length_map, Option.toList_none, List.flatMap_nil,
      List.length_nil]
    omega
  · simp only [memberBlock, assignmentBlock, memberLines, assignmentLines, shape, hp,
      LookupShape.ofParameter?, LookupShape.frame, LookupShape.fixedLines, length_braced,
      length_enclose, List.length_append, List.length_map, Option.toList_some, List.flatMap_cons,
      List.flatMap_nil, List.length_cons, List.length_nil, schemaAttribute]
    omega

end DataSource

end DataSourceGen
