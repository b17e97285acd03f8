import DataSourceGen.DataSource.GoSource

/-!
# What the lines of a source are made of

Each line of a source joins fixed texts and texts of the data source (`DataSource.spliced_lines`).
So whatever joining texts preserves holds of all lines, if it holds of the fixed texts and of those
of the data source (`Spliced.of_append`).

Fixed texts have no line feed, and a bracket in them belongs to the type of a slice or of a map from
strings; `isFixed` checks both. -/

namespace DataSourceGen

open Text

/-! ### Texts and what they are joined of -/

/-- Whether each opening bracket of a text stands before one of some characters. -/
def opensBefore (allowed : List Char) : Text → Bool
  | [] => true
  | c :: r => (c != '[' || r.head?.any allowed.contains) && opensBefore allowed r

/-- Whether a text can be a fixed text of a source. -/
def isFixed (t : Text) : Bool :=
  !t.contains '\n' && opensBefore ['s', ']'] t

/-- The texts of a data source that its source shows: names as they are and capitalized, and
expressions. -/
def DataSource.texts (d : DataSource) : List Text :=
  [d.queryName, capitalizeFirst d.queryName, d.objectName, d.structName] ++
    d.parameter?.toList.flatMap (fun p => [p, capitalizeFirst p]) ++
    d.attributes.flatMap fun a => [a.name, capitalizeFirst a.name, a.expression]

/-- What holds of all texts of a data source. -/
theorem DataSource.forall_mem_texts {d : DataSource} {P : Text → Prop} :
    (∀ t ∈ d.texts, P t) ↔
      (P d.queryName ∧ P (capitalizeFirst d.queryName) ∧ P d.objectName ∧ P d.structName) ∧
      (∀ p ∈ d.parameter?, P p ∧ P (capitalizeFirst p)) ∧
      ∀ a ∈ d.attributes, P a.name ∧ P (capitalizeFirst a.name) ∧ P a.expression := by
  simp only [texts, List.forall_mem_append, List.forall_mem_flatMap, List.forall_mem_cons,
    List.not_mem_nil, false_implies, implies_true, and_true, Option.mem_toList, Option.mem_def,
    and_assoc]

/-- A text joined of fixed texts and texts of a data source. -/
inductive Spliced (d : DataSource) : Text → Prop where
  | fixed {t : Text} (h : isFixed t = true) : Spliced d t
  | shown {t : Text} (h : t ∈ d.texts) : Spliced d t
  | append {t u : Text} (ht : Spliced d t) (hu : Spliced d u) : Spliced d (t ++ u)

namespace Spliced

variable {d : DataSource}

/-- **What joining preserves** holds of a text that is joined of fixed texts and of texts of the
data source, if it holds of these. -/
theorem of_append {P : Text → Prop} {t : Text} (h : Spliced d t)
    (happend : ∀ t u, P t → P u → P (t ++ u)) (hfixed : ∀ t, isFixed t = true → P t)
    (hshown : ∀ t ∈ d.texts, P t) : P t := by
  induction h with
  | fixed h => exact hfixed _ h
  | shown h => exact hshown _ h
  | append _ _ iht ihu => exact happend _ _ iht ihu

/-- A text that is given by its characters is fixed if these are. -/
theorem ofList {cs : List Char} (h : isFixed cs = true) : Spliced d (String.ofList cs).toList := by
  rw [String.toList_ofList]
  exact .fixed h

theorem queryName : Spliced d d.queryName :=
  (DataSource.forall_mem_texts.mp fun _ => shown).1.1

theorem capitalized_queryName : Spliced d (capitalizeFirst d.queryName) :=
  (DataSource.forall_mem_texts.mp fun _ => shown).1.2.1

theorem objectName : Spliced d d.objectName :=
  (DataSource.forall_mem_texts.mp fun _ => shown).1.2.2.1

theorem structName : Spliced d d.structName :=
  (DataSource.forall_mem_texts.mp fun _ => shown).1.2.2.2

theorem parameter_texts {p : Text} (h : d.parameter? = some p) :
    Spliced d p ∧ Spliced d (capitalizeFirst p) :=
  (DataSource.forall_mem_texts.mp fun _ => shown).2.1 p h

theorem attribute_texts {a : Attribute} (h : a ∈ d.attributes) :
    Spliced d a.name ∧ Spliced d (capitalizeFirst a.name) ∧ Spliced d a.expression :=
  (DataSource.forall_mem_texts.mp fun _ => shown).2.2 a h

theorem modelName : Spliced d d.modelName :=
  .append queryName (.ofList rfl)

theorem literal {t : Text} (h : Spliced d t) : Spliced d (literal t) :=
  .append (.append (.ofList rfl) h) (.ofList rfl)

/-- The words of a source for a scalar type are fixed. -/
theorem scalar (s : ScalarType) :
    Spliced d s.valueType ∧ Spliced d s.valueConstructor ∧ Spliced d s.schemaAttribute := by
  cases s
  all_goals exact ⟨.ofList rfl, .ofList rfl, .ofList rfl⟩

end Spliced

/-! ### Bodies -/

/-- Whether all lines of a body are joined of fixed texts and texts of a data source. -/
def SplicedBody (d : DataSource) (body : List Text) : Prop :=
  ∀ line ∈ body, Spliced d line

section Bodies

variable {d : DataSource}

@[simp] theorem splicedBody_nil : SplicedBody d [] :=
  fun _ h => absurd h List.not_mem_nil

@[simp] theorem splicedBody_cons {line : Text} {body : List Text} :
    SplicedBody d (line :: body) ↔ Spliced d line ∧ SplicedBody d body :=
  List.forall_mem_cons

@[simp] theorem splicedBody_append {a b : List Text} :
    SplicedBody d (a ++ b) ↔ SplicedBody d a ∧ SplicedBody d b :=
  List.forall_mem_append

theorem SplicedBody.indent {body : List Text} (h : SplicedBody d body) :
    SplicedBody d (indent body) := by
  intro line hline
  obtain ⟨inner, hinner, rfl⟩ := List.mem_map.mp hline
  split
  · exact h inner hinner
  · exact .append (t := ['\t']) (.fixed rfl) (h inner hinner)

theorem SplicedBody.enclose {opening closing : Text} {body : List Text}
    (hopening : Spliced d opening) (h : SplicedBody d body) (hclosing : Spliced d closing) :
    SplicedBody d (enclose opening body closing) := by
  rw [DataSourceGen.enclose, splicedBody_append, splicedBody_cons, splicedBody_cons]
  exact ⟨⟨hopening, h.indent⟩, hclosing, splicedBody_nil⟩

theorem SplicedBody.braced {head : Text} {body : List Text} (hhead : Spliced d head)
    (h : SplicedBody d body) : SplicedBody d (braced head body) :=
  .enclose (.append hhead (.ofList rfl)) h (.ofList rfl)

theorem splicedBody_blankLine : SplicedBody d blankLine :=
  splicedBody_cons.mpr ⟨.fixed rfl, splicedBody_nil⟩

theorem SplicedBody.flatMap {α : Type} {body : α → List Text} {as : List α}
    (h : ∀ a ∈ as, SplicedBody d (body a)) : SplicedBody d (as.flatMap body) := by
  intro line hline
  obtain ⟨a, ha, hbody⟩ := List.mem_flatMap.mp hline
  exact h a ha line hbody

/-! ### Members, keys and assignments -/

theorem Spliced.line {m : Member} (hname : Spliced d m.name) (htype : Spliced d m.type)
    (htag : ∀ tag ∈ m.tag?, Spliced d tag) : Spliced d m.line := by
  have hdeclared : Spliced d (m.name ++ " " ++ m.type) :=
    .append (.append hname (.ofList rfl)) htype
  unfold Member.line
  split
  · exact hdeclared
  · next tag htagged =>
    have hliteral : Spliced d (DataSourceGen.literal tag) := (htag tag htagged).literal
    exact .append (.append (.append hdeclared (.ofList rfl)) hliteral) (.ofList rfl)

theorem SplicedBody.schemaAttribute {key kind flag : Text} (hkey : Spliced d key)
    (hkind : Spliced d kind) (hflag : Spliced d flag) :
    SplicedBody d (schemaAttribute key kind flag) := by
  apply SplicedBody.enclose
  · exact .append (.append (.append hkey.literal (.ofList rfl)) hkind) (.ofList rfl)
  · exact splicedBody_cons.mpr ⟨.append hflag (.ofList rfl), splicedBody_nil⟩
  · exact .ofList rfl

end Bodies

namespace DataSource

variable {d : DataSource}

theorem spliced_member {a : Attribute} (h : a ∈ d.attributes) : Spliced d a.member.line := by
  obtain ⟨hname, hcapitalized, -⟩ := Spliced.attribute_texts h
  refine Spliced.line hcapitalized (Spliced.scalar a.scalar).1 ?_
  intro tag htag
  rwa [← Option.some.inj htag]

theorem splicedBody_modelMembers : SplicedBody d (d.modelMembers.map Member.line) := by
  intro line hline
  obtain ⟨m, hm, rfl⟩ := List.mem_map.mp hline
  obtain ⟨a, ha, rfl⟩ := List.mem_map.mp hm
  exact spliced_member ha

theorem splicedBody_members : SplicedBody d (d.members.map Member.line) := by
  have hclient : Spliced d (Member.line ⟨"client", "*graphql.Client", none⟩) :=
    Spliced.line (.ofList rfl) (.ofList rfl) (fun tag htag => nomatch htag)
  unfold members
  refine splicedBody_cons.mpr ⟨hclient, ?_⟩
  split
  · next p hp =>
    obtain ⟨hname, hcapitalized⟩ := Spliced.parameter_texts hp
    refine splicedBody_cons.mpr ⟨?_, splicedBody_modelMembers⟩
    refine Spliced.line hcapitalized (.ofList rfl) ?_
    intro tag htag
    rwa [← Option.some.inj htag]
  · refine splicedBody_cons.mpr ⟨?_, splicedBody_nil⟩
    refine Spliced.line .queryName (.append (.ofList rfl) .modelName) ?_
    intro tag htag
    rw [← Option.some.inj htag]
    exact .queryName

theorem splicedBody_keys : SplicedBody d (d.attributes.flatMap Attribute.schemaLines) := by
  apply SplicedBody.flatMap
  intro a ha
  exact .schemaAttribute (Spliced.attribute_texts ha).1 (Spliced.scalar a.scalar).2.2 (.ofList rfl)

theorem splicedBody_assignments : SplicedBody d d.assignments := by
  intro line hline
  obtain ⟨a, ha, rfl⟩ := List.mem_map.mp hline
  obtain ⟨-, hcapitalized, hexpression⟩ := Spliced.attribute_texts ha
  have hconstructor := (Spliced.scalar (d := d) a.scalar).2.1
  exact .append (.append (.append (.append (.append hcapitalized (.ofList rfl)) hconstructor)
    (.ofList rfl)) hexpression) (.ofList rfl)

/-! ### Sections -/

-- The terms follow the joins of each line as its section has them; `.ofList rfl` is a fixed text.
theorem splicedBody_preamble : SplicedBody d d.preamble := by
  have hcomment : Spliced d
      ("// Code generated by tfgen from the `" ++ d.queryName ++ "` query. DO NOT EDIT.") :=
    .append (.append (.ofList rfl) .queryName) (.ofList rfl)
  unfold preamble
  simp only [splicedBody_append, splicedBody_cons, splicedBody_nil, and_true]
  refine ⟨⟨hcomment, .ofList rfl, .ofList rfl, .ofList rfl⟩, ?_⟩
  refine .enclose (.ofList rfl) ?_ (.ofList rfl)
  simp only [splicedBody_cons, splicedBody_nil, and_true]
  and_intros
  all_goals exact .ofList rfl

theorem splicedBody_interfaceCheck : SplicedBody d d.interfaceCheck := by
  refine splicedBody_cons.mpr ⟨.ofList rfl, .enclose (.ofList rfl) ?_ (.ofList rfl)⟩
  simp only [splicedBody_cons, splicedBody_nil, and_true]
  constructor
  · exact .append (.append (.ofList rfl) .structName) (.ofList rfl)
  · exact .append (.append (.ofList rfl) .structName) (.ofList rfl)

theorem splicedBody_constructor : SplicedBody d d.constructor := by
  have hname : Spliced d d.constructorName :=
    .append (.append (.ofList rfl) .capitalized_queryName) (.ofList rfl)
  refine splicedBody_cons.mpr ⟨?_, .braced ?_ (splicedBody_cons.mpr ⟨?_, splicedBody_nil⟩)⟩
  · exact .append (.append (.ofList rfl) hname) (.ofList rfl)
  · exact .append (.append (.ofList rfl) hname) (.ofList rfl)
  · exact .append (.append (.ofList rfl) .structName) (.ofList rfl)

theorem splicedBody_structType {name : Text} {members : List Member} (hname : Spliced d name)
    (hmembers : SplicedBody d (members.map Member.line)) :
    SplicedBody d (structType name members) :=
  .braced (.append (.append (.ofList rfl) hname) (.ofList rfl)) hmembers

theorem splicedBody_types : SplicedBody d d.types := by
  refine splicedBody_append.mpr ⟨splicedBody_structType .structName splicedBody_members, ?_⟩
  split
  · exact splicedBody_nil
  · exact splicedBody_cons.mpr
      ⟨.ofList rfl, splicedBody_structType .modelName splicedBody_modelMembers⟩

theorem splicedBody_method {signature : Text} {body : List Text} (hsignature : Spliced d signature)
    (hbody : SplicedBody d body) : SplicedBody d (d.method signature body) :=
  .braced (.append (.append (.append (.ofList rfl) .structName) (.ofList rfl)) hsignature) hbody

theorem splicedBody_metadata : SplicedBody d d.metadata := by
  have hname : Spliced d (literal ("_" ++ d.queryName)) :=
    (Spliced.append (.ofList rfl) .queryName).literal
  refine splicedBody_method (.append (.ofList rfl) (.ofList rfl)) ?_
  exact splicedBody_cons.mpr ⟨.append (.ofList rfl) hname, splicedBody_nil⟩

theorem splicedBody_schemaAttributes : SplicedBody d d.schemaAttributes := by
  unfold schemaAttributes
  split
  · next p hp =>
    refine splicedBody_append.mpr ⟨?_, splicedBody_keys⟩
    exact .schemaAttribute (Spliced.parameter_texts hp).1 (.ofList rfl) (.ofList rfl)
  · have hmap : SplicedBody d (enclose "Attributes: map[string]schema.Attribute\x7b"
        (d.attributes.flatMap Attribute.schemaLines) "\x7d,") :=
      .enclose (.ofList rfl) splicedBody_keys (.ofList rfl)
    refine .enclose (.append (Spliced.queryName).literal (.ofList rfl)) ?_ (.ofList rfl)
    exact splicedBody_cons.mpr ⟨.ofList rfl, .enclose (.ofList rfl) hmap (.ofList rfl)⟩

theorem splicedBody_schema : SplicedBody d d.schema := by
  refine splicedBody_method (.append (.ofList rfl) (.ofList rfl)) ?_
  refine .enclose (.ofList rfl) ?_ (.ofList rfl)
  exact .enclose (.ofList rfl) splicedBody_schemaAttributes (.ofList rfl)

theorem splicedBody_failWith {summary detail : Text} (hsummary : Spliced d summary)
    (hdetail : Spliced d detail) : SplicedBody d (failWith summary detail) := by
  refine splicedBody_append.mpr ⟨.enclose (.ofList rfl) ?_ (.ofList rfl), ?_⟩
  · simp only [splicedBody_cons, splicedBody_nil, and_true]
    exact ⟨.append hsummary (.ofList rfl), .append hdetail (.ofList rfl)⟩
  · exact splicedBody_cons.mpr ⟨.ofList rfl, splicedBody_nil⟩

theorem splicedBody_return : SplicedBody d ["return"] :=
  splicedBody_cons.mpr ⟨.ofList rfl, splicedBody_nil⟩

theorem splicedBody_leaveOnError : SplicedBody d leaveOnError :=
  splicedBody_cons.mpr ⟨.ofList rfl, .braced (.ofList rfl) splicedBody_return⟩

theorem splicedBody_request {arguments : Text} (h : Spliced d arguments) :
    SplicedBody d (d.request arguments) := by
  have hsummary : Spliced d ("Unable to read " ++ d.queryName ++ " from Infrahub") :=
    .append (.append (.ofList rfl) .queryName) (.ofList rfl)
  refine splicedBody_cons.mpr ⟨?_, .braced (.ofList rfl) ?_⟩
  · exact .append (.append (.append (.append (.ofList rfl) .capitalized_queryName) (.ofList rfl)) h)
      (.ofList rfl)
  · exact splicedBody_failWith hsummary.literal (.ofList rfl)

theorem splicedBody_readSingle {p : Text} (hp : d.parameter? = some p) :
    SplicedBody d (d.readSingle p) := by
  obtain ⟨-, hmember⟩ := Spliced.parameter_texts hp
  have hargument : Spliced d (", config." ++ capitalizeFirst p ++ ".ValueString()") :=
    .append (.append (.ofList rfl) hmember) (.ofList rfl)
  have hsummary : Spliced d ("Didn't receive a single " ++ d.queryName ++
      ", query didn't return exactly 1 " ++ d.queryName) :=
    .append (.append (.append (.ofList rfl) .queryName) (.ofList rfl)) .queryName
  have hdetail : Spliced d ("Expected exactly 1 " ++ d.queryName ++
      " in response, got a different count.") :=
    .append (.append (.ofList rfl) .queryName) (.ofList rfl)
  have hassignment : Spliced d (capitalizeFirst p ++ ": config." ++ capitalizeFirst p ++ ",") :=
    .append (.append (.append hmember (.ofList rfl)) hmember) (.ofList rfl)
  simp only [readSingle, splicedBody_append]
  refine ⟨⟨⟨⟨splicedBody_request hargument, splicedBody_blankLine⟩, ?_⟩, splicedBody_blankLine⟩, ?_⟩
  · exact .braced (.append (.append (.ofList rfl) .objectName) (.ofList rfl))
      (splicedBody_failWith hsummary.literal hdetail.literal)
  · exact .enclose (.append (.append (.ofList rfl) .structName) (.ofList rfl))
      (splicedBody_cons.mpr ⟨hassignment, splicedBody_assignments⟩) (.ofList rfl)

theorem spliced_loopHead : Spliced d d.loopHead := by
  have hindex : Spliced d (if d.attributes.isEmpty then [] else "i := ".toList) := by
    split
    · exact .fixed rfl
    · exact .ofList rfl
  exact .append (.append (.append (.append (.ofList rfl) hindex) (.ofList rfl)) .objectName)
    (.ofList rfl)

theorem splicedBody_readCollection : SplicedBody d d.readCollection := by
  have hresult : SplicedBody d (enclose ("current := " ++ d.modelName ++ "\x7b") d.assignments
      "\x7d") :=
    .enclose (.append (.append (.ofList rfl) .modelName) (.ofList rfl)) splicedBody_assignments
      (.ofList rfl)
  have happended : Spliced d
      ("state." ++ d.queryName ++ " = append(state." ++ d.queryName ++ ", current)") :=
    .append (.append (.append (.append (.ofList rfl) .queryName) (.ofList rfl)) .queryName)
      (.ofList rfl)
  simp only [readCollection, splicedBody_append, splicedBody_cons]
  refine ⟨⟨splicedBody_request (.fixed rfl), splicedBody_blankLine⟩, ?_, ?_⟩
  · exact .append (.ofList rfl) .structName
  · refine .braced spliced_loopHead (splicedBody_append.mpr ⟨hresult, ?_⟩)
    exact splicedBody_cons.mpr ⟨happended, splicedBody_nil⟩

/-- The statements that fill the results. -/
def results (d : DataSource) : List Text :=
  match d.parameter? with
  | some p => d.readSingle p
  | none => d.readCollection

theorem splicedBody_results : SplicedBody d d.results := by
  unfold results
  split
  · next p hp => exact splicedBody_readSingle hp
  · exact splicedBody_readCollection

theorem splicedBody_read : SplicedBody d d.read := by
  have hreading : Spliced d
      ("tflog.Info(ctx, " ++ literal ("Reading " ++ d.queryName ++ " data...") ++ ")") :=
    .append (.append (.ofList rfl)
      (Spliced.append (.append (.ofList rfl) .queryName) (.ofList rfl)).literal) (.ofList rfl)
  refine splicedBody_method (.append (.ofList rfl) (.ofList rfl)) ?_
  simp only [splicedBody_append, splicedBody_cons]
  and_intros
  all_goals first
    | exact .ofList rfl
    | exact splicedBody_blankLine
    | exact splicedBody_leaveOnError
    | exact hreading
    | exact splicedBody_results
    | exact .append (.ofList rfl) .structName

theorem splicedBody_configure : SplicedBody d d.configure := by
  refine splicedBody_cons.mpr ⟨.ofList rfl, splicedBody_method ?_ ?_⟩
  · exact .append (.ofList rfl) (.ofList rfl)
  · simp only [splicedBody_append, splicedBody_cons, splicedBody_nil, and_true]
    and_intros
    all_goals first
      | exact .ofList rfl
      | exact splicedBody_blankLine
      | exact .braced (.ofList rfl) splicedBody_return
      | exact .braced (.ofList rfl) (splicedBody_failWith (.ofList rfl)
          (.append (.ofList rfl) (.ofList rfl)))

/-! ### The whole source -/

/-- The sections of a source, with a blank line between neighbours. -/
theorem lines_eq (d : DataSource) :
    d.lines = d.preamble ++ blankLine ++ (d.interfaceCheck ++ blankLine ++
      (d.constructor ++ blankLine ++ (d.types ++ blankLine ++ (d.metadata ++ blankLine ++
        (d.schema ++ blankLine ++ (d.read ++ blankLine ++ d.configure)))))) := by
  simp only [lines, List.intercalate, List.intersperse, List.flatten_cons, List.flatten_nil,
    List.append_assoc, List.append_nil]

/-- **The lines of a source** join fixed texts and texts of the data source. -/
theorem spliced_lines (d : DataSource) : SplicedBody d d.lines := by
  rw [lines_eq]
  simp only [splicedBody_append]
  exact ⟨⟨splicedBody_preamble, splicedBody_blankLine⟩,
    ⟨splicedBody_interfaceCheck, splicedBody_blankLine⟩,
    ⟨splicedBody_constructor, splicedBody_blankLine⟩, ⟨splicedBody_types, splicedBody_blankLine⟩,
    ⟨splicedBody_metadata, splicedBody_blankLine⟩, ⟨splicedBody_schema, splicedBody_blankLine⟩,
    ⟨splicedBody_read, splicedBody_blankLine⟩, splicedBody_configure⟩

end DataSource

end DataSourceGen
