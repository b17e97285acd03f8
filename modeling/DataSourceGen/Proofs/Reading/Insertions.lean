import DataSourceGen.Proofs.NameSet
import DataSourceGen.Proofs.Reading.Reached

/-!
# The compounds in the order of the lines

A line inserts at most one name into the compounds: that of the block that it opens, or of the leaf
that it records, if it holds a separator. **Theorem** (`toList_compounds_ofDocument`): the compounds
of a document are the names that its lines insert, in the order of the lines, without their
repetitions. -/

namespace DataSourceGen

open Text

namespace Reading

/-! ### One line -/

/-- The name that a line inserts into the compounds on the way from a reading to the next one. -/
def insertion? (s t : Reading) (line : Text) : Option Text :=
  if s.openBlocks.length < t.openBlocks.length then
    (openedBlock? line).filter (·.contains separator)
  else if s.fields.length < t.fields.length then
    (selectedWord? line).filter (·.contains separator)
  else none

theorem noteCompound_eq_foldl (compounds : NameSet) (name : Text) :
    noteCompound compounds name =
      ((some name).filter (·.contains separator)).toList.foldl NameSet.insert compounds := by
  unfold noteCompound
  by_cases h : name.contains separator = true
  · rw [if_pos h, Option.filter_some, if_pos h]
    rfl
  · rw [if_neg h, Option.filter_some, if_neg h]
    rfl

/-- Nothing is inserted where no block is opened and no leaf is recorded. -/
theorem foldl_insertion?_eq (s : Reading) {t : Reading}
    (hblocks : t.openBlocks.length ≤ s.openBlocks.length) (hfields : t.fields = s.fields)
    (line : Text) :
    s.compounds = (insertion? s t line).toList.foldl NameSet.insert s.compounds := by
  unfold insertion?
  rw [if_neg (Nat.not_lt.mpr hblocks), hfields, if_neg (Nat.lt_irrefl _)]
  rfl

/-- **One line**: a change inserts the name of its line. -/
theorem Change.compounds_eq {depth index : Nat} {line : Text} {s t : Reading}
    (h : Change depth index line s t) :
    t.compounds = (insertion? s t line).toList.foldl NameSet.insert s.compounds := by
  cases h with
  | operation | nameless | root | passed =>
    exact foldl_insertion?_eq s (Nat.le_refl _) rfl line
  | @opened block sel opens =>
    have hopens : s.openBlocks.length < (block :: s.openBlocks).length := Nat.lt_succ_self _
    unfold insertion?
    rw [if_pos hopens, opens]
    exact noteCompound_eq_foldl s.compounds block
  | @closed block outer sel closes innermost inside =>
    refine foldl_insertion?_eq s ?_ ?_ line
    · rw [innermost]
      exact Nat.le_succ _
    · rfl
  | @recorded name sel plain stays inside selects named isNew =>
    have hrecords :
        s.fields.length < (s.fields ++ [(⟨s.lead ++ name, .string⟩ : Field)]).length := by
      rw [List.length_append]
      exact Nat.lt_succ_self _
    unfold insertion?
    rw [if_neg (Nat.lt_irrefl _), if_pos hrecords, selects]
    exact noteCompound_eq_foldl s.compounds name

theorem compounds_next (depth index : Nat) (s : Reading) (line : Text) :
    (s.next depth index line).reading.compounds =
      (insertion? s (s.next depth index line).reading line).toList.foldl NameSet.insert
        s.compounds := by
  rcases next_cases depth index s line with ⟨-, hchange⟩ | ⟨-, hhalt⟩
  · exact hchange.compounds_eq
  · obtain ⟨lead, hlead⟩ := hhalt.exists_lead
    rw [hlead]
    exact foldl_insertion?_eq s (Nat.le_refl _) rfl line

/-! ### All lines -/

/-- The names that some lines insert, in order. -/
def insertions (depth : Nat) : Nat → Reading → List Text → List Text
  | _, _, [] => []
  | index, s, line :: rest =>
    let step := s.next depth index (trim line)
    (insertion? s step.reading (trim line)).toList ++
      if step.stops then [] else insertions depth (index + 1) step.reading rest

/-- The names that the lines of a document insert, in order. -/
def insertionsOf (depth : Nat) (document : Text) : List Text :=
  insertions depth 0 {} (lines document)

/-- **All lines**: a run inserts the names of its lines. -/
theorem compounds_run (depth : Nat) :
    (raw : List Text) → ∀ index s, (s.run depth index raw).1.compounds =
      (insertions depth index s raw).foldl NameSet.insert s.compounds
  | [], _, _ => rfl
  | line :: rest, index, s => by
      have hnext := compounds_next depth index s (trim line)
      simp only [run, insertions, List.foldl_append, ← hnext]
      split
      · rfl
      · exact compounds_run depth rest (index + 1) _

/-- **The compounds of a document** are the names that its lines insert, without their repetitions.
-/
theorem toList_compounds_ofDocument (depth : Nat) (document : Text) :
    (ofDocument depth document).compounds.toList = (insertionsOf depth document).eraseDups := by
  rw [ofDocument, compounds_run]
  exact NameSet.toList_ofList _

end Reading

end DataSourceGen
