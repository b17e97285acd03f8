import Mathlib.Data.List.Chain
import Mathlib.Data.List.Infix
import DataSourceGen.Proofs.Text.Splitting

/-!
# Marks between other characters

A text is spaced by a mark if the mark stands in it only between other characters: neither first nor
last, and never beside itself. Cutting such a text at any mark leaves two texts that are spaced
again, and neither is empty (`isSpaced_append_cons_iff`). So a joined text is not empty and spaced
iff all its parts are (`isSpaced_joinWith_iff`), whichever way it is cut into parts. -/

namespace DataSourceGen.Text

/-- Whether a mark is neither first nor last in a text, nor twice in a row. -/
structure IsSpaced (mark : Char) (t : Text) : Prop where
  first : t.head? ≠ some mark
  last : t.getLast? ≠ some mark
  apart : ¬ [mark, mark] <:+: t

instance (mark : Char) (t : Text) : Decidable (IsSpaced mark t) :=
  decidable_of_iff (t.head? ≠ some mark ∧ t.getLast? ≠ some mark ∧ ¬ [mark, mark] <:+: t)
    ⟨fun ⟨first, last, apart⟩ => ⟨first, last, apart⟩, fun h => ⟨h.first, h.last, h.apart⟩⟩

variable {mark : Char} {t u : Text}

/-- A text without the mark is spaced. -/
theorem isSpaced_of_not_mem (h : mark ∉ t) : IsSpaced mark t :=
  ⟨fun hfirst => h (List.mem_of_head? hfirst), fun hlast => h (List.mem_of_getLast? hlast),
    fun htwice => h (htwice.subset List.mem_cons_self)⟩

/-- No two marks are neighbours iff of any two neighbours one is no mark. -/
theorem not_infix_iff_isChain :
    ¬ [mark, mark] <:+: t ↔ t.IsChain fun c d => ¬ (c = mark ∧ d = mark) := by
  rw [List.isChain_iff_forall_rel_of_append_cons_cons]
  constructor
  · rintro h c d before after rfl ⟨rfl, rfl⟩
    exact h ⟨before, after, by simp⟩
  · rintro h ⟨before, after, rfl⟩
    exact h (List.append_assoc before _ after) ⟨rfl, rfl⟩

/-- **A cut at a mark**: both parts have characters and are spaced, iff the whole is spaced. -/
theorem isSpaced_append_cons_iff :
    IsSpaced mark (t ++ mark :: u) ↔ (t ≠ [] ∧ IsSpaced mark t) ∧ u ≠ [] ∧ IsSpaced mark u := by
  constructor
  · rintro ⟨hfirst, hlast, hapart⟩
    have ht : t ≠ [] := by
      rintro rfl
      exact hfirst rfl
    have hu : u ≠ [] := by
      rintro rfl
      exact hlast List.getLast?_concat
    refine ⟨⟨ht, ?_, ?_, ?_⟩, hu, ?_, ?_, ?_⟩
    · rwa [List.head?_append_of_ne_nil t ht] at hfirst
    · intro hend
      obtain ⟨before, rfl⟩ := List.getLast?_eq_some_iff.mp hend
      exact hapart ⟨before, u, by simp⟩
    · exact fun htwice => hapart (htwice.trans (List.prefix_append t _).isInfix)
    · intro hbegin
      obtain ⟨after, rfl⟩ := List.head?_eq_some_iff.mp hbegin
      exact hapart ⟨t, after, by simp⟩
    · rwa [List.getLast?_append_cons, List.getLast?_cons_of_ne_nil hu] at hlast
    · exact fun htwice =>
        hapart (htwice.trans ((List.suffix_cons mark u).trans (List.suffix_append t _)).isInfix)
  · rintro ⟨⟨ht, hspaced⟩, hu, hspaced'⟩
    refine ⟨?_, ?_, ?_⟩
    · rw [List.head?_append_of_ne_nil t ht]
      exact hspaced.first
    · rw [List.getLast?_append_cons, List.getLast?_cons_of_ne_nil hu]
      exact hspaced'.last
    · rw [not_infix_iff_isChain, List.isChain_append, List.isChain_cons]
      refine ⟨not_infix_iff_isChain.mp hspaced.apart, ⟨?_, ?_⟩, ?_⟩
      · rintro c hc ⟨-, rfl⟩
        exact hspaced'.first hc
      · exact not_infix_iff_isChain.mp hspaced'.apart
      · rintro c hc - - ⟨rfl, -⟩
        exact hspaced.last hc

/-- **Joining**: a joined text has characters and is spaced iff this holds of all its parts. -/
theorem isSpaced_joinWith_iff :
    (parts : List Text) → parts ≠ [] →
      (joinWith [mark] parts ≠ [] ∧ IsSpaced mark (joinWith [mark] parts) ↔
        ∀ part ∈ parts, part ≠ [] ∧ IsSpaced mark part)
  | [], h => absurd rfl h
  | [part], _ => by rw [List.forall_mem_singleton, joinWith]
  | first :: second :: parts, _ => by
      have ih := isSpaced_joinWith_iff (second :: parts) (List.cons_ne_nil second parts)
      have hne : first ++ mark :: joinWith [mark] (second :: parts) ≠ [] := by simp
      rw [List.forall_mem_cons, ← ih, ← isSpaced_append_cons_iff, joinWith, List.append_assoc,
        List.singleton_append]
      exact and_iff_right hne

end DataSourceGen.Text
