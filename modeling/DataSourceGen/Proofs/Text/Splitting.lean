import Mathlib.Data.List.Basic
import DataSourceGen.Text.Basic

/-!
# Joining texts and cutting them at a mark

A text without the mark is one piece (`splitAt_eq_singleton`), and the pieces of texts joined by the
mark are those of each text in turn (`splitAt_joinWith`). So names without the mark are got back
from the text that joins them (`splitAt_joinWith_of_not_mem`). -/

namespace DataSourceGen.Text

/-- A character that is not of the mark is in a joined text iff it is in one of the texts. -/
theorem mem_joinWith {c : Char} {mark : Text} (hmark : c ∉ mark) :
    (ts : List Text) → (c ∈ joinWith mark ts ↔ ∃ t ∈ ts, c ∈ t)
  | [] => by simp [joinWith]
  | [t] => by simp [joinWith]
  | t :: u :: ts => by
      have ih := mem_joinWith hmark (u :: ts)
      simp only [joinWith, List.mem_append, ih, hmark, or_false, List.exists_mem_cons_iff]

/-- The text of the first of some joined texts is at the front. -/
theorem exists_joinWith_append (mark : Text) (us : List Text) :
    (ts : List Text) → ∃ after, joinWith mark (ts ++ us) = joinWith mark ts ++ after
  | [] => ⟨joinWith mark us, rfl⟩
  | [t] => by
      rcases us with _ | ⟨u, us⟩
      · exact ⟨[], (List.append_nil t).symm⟩
      · exact ⟨mark ++ joinWith mark (u :: us), List.append_assoc t mark _⟩
  | t :: u :: ts => by
      obtain ⟨after, hafter⟩ := exists_joinWith_append mark us (u :: ts)
      refine ⟨after, ?_⟩
      rw [joinWith, List.append_assoc, ← hafter]
      rfl

variable {mark : Char}

/-- A text has a first piece. -/
theorem exists_splitAt_eq_cons (mark : Char) :
    (t : Text) → ∃ piece pieces, splitAt mark t = piece :: pieces
  | [] => ⟨[], [], rfl⟩
  | c :: t => by
      obtain ⟨piece, pieces, hpieces⟩ := exists_splitAt_eq_cons mark t
      rw [splitAt, hpieces]
      split
      · exact ⟨_, _, rfl⟩
      · exact ⟨_, _, rfl⟩

theorem splitAt_append_cons (u : Text) :
    (t : Text) → splitAt mark (t ++ mark :: u) = splitAt mark t ++ splitAt mark u
  | [] => if_pos rfl
  | c :: t => by
      obtain ⟨piece, pieces, hpieces⟩ := exists_splitAt_eq_cons mark t
      rw [List.cons_append, splitAt, splitAt, splitAt_append_cons u t, hpieces]
      split
      · rfl
      · rfl

/-- The pieces of a joined text are those of its parts. -/
theorem splitAt_joinWith :
    (parts : List Text) → parts ≠ [] →
      splitAt mark (joinWith [mark] parts) = parts.flatMap (splitAt mark)
  | [], h => absurd rfl h
  | [t], _ => (List.flatMap_singleton _ _).symm
  | t :: u :: parts, _ => by
      rw [joinWith, List.append_assoc, List.singleton_append, splitAt_append_cons,
        splitAt_joinWith (u :: parts) (List.cons_ne_nil u parts)]
      exact List.flatMap_cons.symm

/-- A piece has only characters of the text. -/
theorem subset_of_mem_splitAt : {t : Text} → ∀ piece ∈ splitAt mark t, piece ⊆ t
  | [], piece, h => by
      rw [List.mem_singleton.mp h]
      exact List.nil_subset _
  | c :: t, piece, h => by
      obtain ⟨first, pieces, hpieces⟩ := exists_splitAt_eq_cons mark t
      have hrest (p : Text) (hp : p ∈ first :: pieces) : p ⊆ t :=
        subset_of_mem_splitAt p (hpieces ▸ hp)
      rw [splitAt, hpieces] at h
      split at h
      · rcases List.mem_cons.mp h with rfl | hlater
        · exact List.nil_subset _
        · exact List.subset_cons_of_subset c (hrest piece hlater)
      · rcases List.mem_cons.mp h with rfl | hlater
        · exact List.cons_subset_cons c (hrest first List.mem_cons_self)
        · exact List.subset_cons_of_subset c (hrest piece (List.mem_cons_of_mem first hlater))

/-- A text without the mark is one piece. -/
theorem splitAt_eq_singleton : {t : Text} → mark ∉ t → splitAt mark t = [t]
  | [], _ => rfl
  | c :: t, h => by
      obtain ⟨hc, ht⟩ : mark ≠ c ∧ mark ∉ t := by simpa using h
      rw [splitAt, if_neg (Ne.symm hc), splitAt_eq_singleton ht]

/-- Parts without the mark are the pieces of the text that joins them. -/
theorem splitAt_joinWith_of_not_mem {parts : List Text} (hne : parts ≠ [])
    (h : ∀ part ∈ parts, mark ∉ part) : splitAt mark (joinWith [mark] parts) = parts := by
  rw [splitAt_joinWith parts hne]
  clear hne
  induction parts with
  | nil => rfl
  | cons part parts ih =>
    obtain ⟨hpart, hparts⟩ := List.forall_mem_cons.mp h
    rw [List.flatMap_cons, splitAt_eq_singleton hpart, ih hparts]
    rfl

end DataSourceGen.Text
