import Mathlib.Data.List.Induction
import DataSourceGen.Proofs.Reading.Nesting

/-!
# Where a reading ends

`EndsAfter depth document before` says that the line after `before` is the last one that is read.
Along the lines of a document a reading either goes on or has ended at an earlier line
(`reached_or_ends`), so that an ending is known from a rule for single lines: if the lines that stop
a reading are the closing lines below the heading at which some condition holds, then the reading
ends at the first of them and nowhere else (`endsAfter_iff_isFirstClosing`).
-/

namespace DataSourceGen.Reading

open Text

/-- Whether the reading of a document ends at the line that follows `before`. -/
def EndsAfter (depth : Nat) (document : Text) (before : List Text) : Prop :=
  ∃ line s, before ++ [line] <+: trimmedLines document ∧ Reached depth before s ∧
    (s.next depth before.length line).stops = true

/-- Whether `before` is followed by a closing line below the heading, and is one of which `P`
holds. -/
def IsClosing (P : List Text → Prop) (lines before : List Text) : Prop :=
  before ++ [closingLine] <+: lines ∧ 2 ≤ before.length ∧ P before

/-- Whether the closing line after `before` is the first one below the heading that has only lines
before it of which `P` holds. -/
def IsFirstClosing (P : List Text → Prop) (lines before : List Text) : Prop :=
  IsClosing P lines before ∧ ∀ earlier, ¬ IsClosing P before earlier

/-- Lines lead to a reading, or one of them is the last. -/
theorem reached_or_ends (depth : Nat) (lines : List Text) :
    (∃ s, Reached depth lines s) ∨
      ∃ earlier line s, earlier ++ [line] <+: lines ∧ Reached depth earlier s ∧
        (s.next depth earlier.length line).stops = true := by
  induction lines using List.reverseRecOn with
  | nil => exact .inl ⟨_, .start⟩
  | append_singleton lines line ih =>
    rcases ih with ⟨s, hs⟩ | ⟨earlier, last, s, hinit, hs, hstops⟩
    · rcases hnext : (s.next depth lines.length line).stops with _ | _
      · exact .inl ⟨_, hs.step line hnext⟩
      · exact .inr ⟨lines, line, s, List.prefix_refl _, hs, hnext⟩
    · exact .inr ⟨earlier, last, s, hinit.trans (List.prefix_append lines [line]), hs, hstops⟩

/-- A reading that is reached was reached on the way, and went on. -/
theorem Reached.goesOn_of_prefix {depth : Nat} {before : List Text} {s : Reading}
    (h : Reached depth before s) {earlier : List Text} {line : Text}
    (hinit : earlier ++ [line] <+: before) :
    ∃ t, Reached depth earlier t ∧ (t.next depth earlier.length line).stops = false := by
  induction h with
  | start => exact absurd (List.prefix_nil.mp hinit) (by simp)
  | @step before s last reached goesOn ih =>
    rcases List.prefix_concat_iff.mp hinit with hwhole | hpart
    · obtain ⟨rfl, hline⟩ := List.append_inj' hwhole rfl
      obtain rfl := List.singleton_inj.mp hline
      exact ⟨s, reached, goesOn⟩
    · exact ih hpart

/-- **The end of a reading** is the first line that stops it, told from the lines alone. -/
theorem endsAfter_iff_isFirstClosing {depth : Nat} {document : Text} {P : List Text → Prop}
    (rule : ∀ before line s, before ++ [line] <+: trimmedLines document → Reached depth before s →
      ((s.next depth before.length line).stops = true ↔
        line = closingLine ∧ 2 ≤ before.length ∧ P before))
    (before : List Text) :
    EndsAfter depth document before ↔ IsFirstClosing P (trimmedLines document) before := by
  constructor
  · rintro ⟨line, s, hline, hs, hstops⟩
    obtain ⟨rfl, hlong, hP⟩ := (rule before line s hline hs).mp hstops
    refine ⟨⟨hline, hlong, hP⟩, ?_⟩
    rintro earlier ⟨hinit, hearlier, hPearlier⟩
    obtain ⟨t, ht, goesOn⟩ := hs.goesOn_of_prefix hinit
    have hbefore : before <+: trimmedLines document := (List.prefix_append before _).trans hline
    rw [(rule earlier closingLine t (hinit.trans hbefore) ht).mpr
      ⟨rfl, hearlier, hPearlier⟩] at goesOn
    cases goesOn
  · rintro ⟨⟨hline, hlong, hP⟩, hfirst⟩
    rcases reached_or_ends depth before with ⟨s, hs⟩ | ⟨earlier, line, s, hinit, hs, hstops⟩
    · exact ⟨closingLine, s, hline, hs, (rule before closingLine s hline hs).mpr ⟨rfl, hlong, hP⟩⟩
    · have hbefore : before <+: trimmedLines document := (List.prefix_append before _).trans hline
      obtain ⟨rfl, hearlier, hPearlier⟩ := (rule earlier line s (hinit.trans hbefore) hs).mp hstops
      exact absurd ⟨hinit, hearlier, hPearlier⟩ (hfirst earlier)

end DataSourceGen.Reading
