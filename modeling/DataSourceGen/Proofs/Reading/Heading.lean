import DataSourceGen.Proofs.Reading.Nesting

/-!
# The heading in a reading

The first line of a document alone says whether the document is accepted, and under which operation
name (`operationName_ofDocument`, `Query.exists_parse_iff`). In an accepted document the second line
alone names the root object and its parameter (`root_ofDocument`). Neither depends on the wrapper
depth or on where the reading ends: a line that ends it is a line of selections. So two queries can
be compared by the headings of their documents (`Query.operationName_eq`, `Query.root_eq`).
-/

namespace DataSourceGen

open Text

namespace Reading

/-- The last line of a reading is a line of selections. -/
theorem Halt.readsSelections {depth index : Nat} {line : Text} {s t : Reading}
    (h : Halt depth index line s t) : ReadsSelections index line := by
  cases h with
  | wrapper sel | bottom sel => exact sel

/-! ### The first line -/

/-- The operation name that the first of some lines gives, if any. -/
def headingName? (lines : List Text) : Option Text :=
  lines.head?.bind operationName?

/-- Without a first line that names the operation, no later line does: the last line read is not
the one. -/
theorem Halt.operationName {depth : Nat} {before : List Text} {line : Text} {s t : Reading}
    (h : Halt depth before.length line s t) (hs : s.operationName = headingName? before)
    (after : List Text) : t.operationName = headingName? (before ++ line :: after) := by
  obtain ⟨lead, hlead⟩ := h.exists_lead
  rw [hlead]
  show s.operationName = _
  rw [hs]
  rcases before with _ | ⟨first, before⟩
  · exact (operationName?_of_other (h.readsSelections.2 rfl)).symm
  · rfl

/-- **The operation name** of a document is the one that its first line gives. -/
theorem operationName_ofDocument (depth : Nat) (document : Text) :
    (ofDocument depth document).operationName = headingName? (trimmedLines document) := by
  rcases ofDocument_cases depth document with hall | ⟨before, line, after, s, hlines, hs, hhalt⟩
  · exact hall.operationName
  · rw [hlines]
    exact hhalt.operationName hs.operationName after

/-! ### The second line -/

/-- What the second of some lines says of the root object; without a second line, nothing. -/
def rootLineOf (lines : List Text) : RootLine :=
  match lines[1]? with
  | some line => RootLine.ofLine line
  | none => ⟨[], none, false⟩

/-- Lines after the second do not matter to the root object. -/
theorem rootLineOf_append {before : List Text} (h : 2 ≤ before.length) (after : List Text) :
    rootLineOf (before ++ after) = rootLineOf before := by
  unfold rootLineOf
  rw [List.getElem?_append_left (by omega)]

/-- Whether a reading says of the root object what some lines say of it. -/
def AgreesOnRoot (s : Reading) (lines : List Text) : Prop :=
  s.rootName = (rootLineOf lines).name ∧ s.parameter = (rootLineOf lines).parameter

/-- A change takes the root object from the second line and leaves it at any other. -/
theorem Change.agreesOnRoot {depth : Nat} {before : List Text} {line : Text} {s t : Reading}
    (h : Change depth before.length line s t) (hs : AgreesOnRoot s before) :
    AgreesOnRoot t (before ++ [line]) := by
  have kept (hsecond : before.length ≠ 1) : AgreesOnRoot s (before ++ [line]) := by
    rcases Nat.lt_or_ge before.length 2 with hshort | hlong
    · obtain rfl : before = [] := List.eq_nil_of_length_eq_zero (by omega)
      exact hs
    · unfold AgreesOnRoot
      rw [rootLineOf_append hlong]
      exact hs
  cases h with
  | operation first | nameless first => exact kept (by omega)
  | root second =>
    have hline : (before ++ [line])[1]? = some line := by
      rw [List.getElem?_append_right (by omega), second]
      rfl
    unfold AgreesOnRoot rootLineOf
    rw [hline]
    exact ⟨rfl, rfl⟩
  | opened sel | closed sel | recorded sel | passed sel => exact kept sel.1

/-- The readings reached say of the root object what the second line says. -/
theorem Reached.agreesOnRoot {depth : Nat} {before : List Text} {s : Reading}
    (h : Reached depth before s) : AgreesOnRoot s before := by
  induction h with
  | start => exact ⟨rfl, rfl⟩
  | step line reached goesOn ih => exact (change_of_next goesOn).agreesOnRoot ih

/-- **The root object** of a document whose first line has the keyword is the one that its second
line names. -/
theorem root_ofDocument (depth : Nat) {document : Text}
    (hkey : HasKeyword (trimmedLines document)) :
    AgreesOnRoot (ofDocument depth document) (trimmedLines document) := by
  rcases ofDocument_cases depth document with hall | ⟨before, line, after, s, hlines, hs, hhalt⟩
  · exact hall.agreesOnRoot
  · have hinit : before ++ [line] <+: trimmedLines document := ⟨after, by simp [hlines]⟩
    have hlong : 2 ≤ before.length :=
      two_le_of_readsSelections (hkey.of_prefix hinit) hhalt.readsSelections
    obtain ⟨lead, hlead⟩ := hhalt.exists_lead
    rw [hlines, hlead]
    unfold AgreesOnRoot
    rw [rootLineOf_append hlong]
    exact hs.agreesOnRoot

end Reading

open Reading

namespace Query

/-- The query of a document is made of what its reading has. -/
theorem parse_eq_ok_iff {depth : Nat} {document : Text} {q : Query} :
    parse depth document = .ok q ↔
      (ofDocument depth document).operationName = some q.operationName ∧
      q.rootName = (ofDocument depth document).rootName ∧
      q.shape = .ofParameter? (ofDocument depth document).parameter ∧
      q.fields = (ofDocument depth document).fields ∧
      q.compounds = (ofDocument depth document).compounds := by
  unfold parse ofReading
  rcases hname : (ofDocument depth document).operationName with _ | name
  · simp
  · constructor
    · intro h
      obtain rfl := Except.ok.inj h
      exact ⟨rfl, rfl, rfl, rfl, rfl⟩
    · rintro ⟨hoperation, hroot, hshape, hfields, hcompounds⟩
      obtain rfl := Option.some.inj hoperation
      rw [← hroot, ← hshape, ← hfields, ← hcompounds]

/-- **Acceptance**: a document is accepted iff its first line names an operation. -/
theorem exists_parse_iff {depth : Nat} {document : Text} :
    (∃ q, parse depth document = .ok q) ↔
      ∃ name, headingName? (trimmedLines document) = some name := by
  simp only [parse_eq_ok_iff, operationName_ofDocument]
  constructor
  · rintro ⟨q, hname, -⟩
    exact ⟨_, hname⟩
  · rintro ⟨name, hname⟩
    exact ⟨⟨name, _, _, _, _⟩, hname, rfl, rfl, rfl, rfl⟩

/-! ### Two queries -/

section

variable {w₁ w₂ : Nat} {d₁ d₂ : Text} {q₁ q₂ : Query}

/-- Documents whose first lines give one operation name have queries of that name. -/
theorem operationName_eq (h₁ : parse w₁ d₁ = .ok q₁) (h₂ : parse w₂ d₂ = .ok q₂)
    (hfirst : headingName? (trimmedLines d₂) = headingName? (trimmedLines d₁)) :
    q₂.operationName = q₁.operationName := by
  have hname₁ := (parse_eq_ok_iff.mp h₁).1
  have hname₂ := (parse_eq_ok_iff.mp h₂).1
  rw [operationName_ofDocument] at hname₁ hname₂
  rw [hfirst, hname₁] at hname₂
  exact (Option.some.inj hname₂).symm

/-- Documents whose second lines say the same have queries with one root object and shape. -/
theorem root_eq (h₁ : parse w₁ d₁ = .ok q₁) (h₂ : parse w₂ d₂ = .ok q₂)
    (hsecond : rootLineOf (trimmedLines d₂) = rootLineOf (trimmedLines d₁)) :
    q₂.rootName = q₁.rootName ∧ q₂.shape = q₁.shape := by
  obtain ⟨-, hroot₁, hshape₁, -⟩ := parse_eq_ok_iff.mp h₁
  obtain ⟨-, hroot₂, hshape₂, -⟩ := parse_eq_ok_iff.mp h₂
  obtain ⟨hline₁, hparameter₁⟩ := root_ofDocument w₁ (hasKeyword_of_parse h₁)
  obtain ⟨hline₂, hparameter₂⟩ := root_ofDocument w₂ (hasKeyword_of_parse h₂)
  constructor
  · rw [hroot₁, hroot₂, hline₁, hline₂, hsecond]
  · rw [hshape₁, hshape₂, hparameter₁, hparameter₂, hsecond]

/-- If one reading is on the way to another, its query has initial segments of what the other's
has. -/
theorem recorded_prefixes (h₁ : parse w₁ d₁ = .ok q₁) (h₂ : parse w₂ d₂ = .ok q₂)
    (hgrows : Grows (ofDocument w₁ d₁) (ofDocument w₂ d₂)) :
    q₁.fields <+: q₂.fields ∧ q₁.compounds.toList <+: q₂.compounds.toList := by
  obtain ⟨-, -, -, hfields₁, hcompounds₁⟩ := parse_eq_ok_iff.mp h₁
  obtain ⟨-, -, -, hfields₂, hcompounds₂⟩ := parse_eq_ok_iff.mp h₂
  constructor
  · rw [hfields₁, hfields₂]
    exact hgrows.fields
  · rw [hcompounds₁, hcompounds₂]
    exact hgrows.compounds

end

end Query

end DataSourceGen
