import DataSourceGen.Proofs.Reading.Reached
import DataSourceGen.Query.Lookup

/-!
# Lines and the blanks around them

How a document is laid out does not matter to its trimmed lines: blanks around the content of a line
are trimmed away, and so is the line end, whichever it is (`trim_dropLineEnd`). A text that begins
with given lines in any layout therefore has them as its first trimmed lines
(`trimmedLines_of_beginsWithLines`).
-/

namespace DataSourceGen

namespace Text

/-! ### Trimming -/

/-- Whether a text begins and ends with a character that is not blank. -/
def IsTrimmed (t : Text) : Prop :=
  (∃ c ∈ t.head?, isBlank c = false) ∧ ∃ c ∈ t.getLast?, isBlank c = false

/-- Whether a text can stand alone on a line, between its margins. -/
def IsContent (t : Text) : Prop :=
  IsTrimmed t ∧ '\n' ∉ t

/-- A text that begins with a character that is not blank has nothing to trim there. -/
theorem trimStart_eq_self {t : Text} (h : ∃ c ∈ t.head?, isBlank c = false) : trimStart t = t := by
  obtain ⟨c, hc, hblank⟩ := h
  rcases t with _ | ⟨d, r⟩
  · cases hc
  · obtain rfl : d = c := by simpa using hc
    rw [trimStart, List.dropWhile_cons_of_neg (by simp [hblank])]

/-- A trimmed text is left as it is. -/
theorem trim_eq_self {t : Text} (h : IsTrimmed t) : trim t = t := by
  have hend : trimStart t.reverse = t.reverse := by
    apply trimStart_eq_self
    rw [List.head?_reverse]
    exact h.2
  rw [trim, trimStart_eq_self h.1, trimEnd, ← trimStart, hend, List.reverse_reverse]

/-- Blanks after a text are trimmed away. -/
theorem trim_append_blanks (t : Text) {b : Text} (h : ∀ c ∈ b, isBlank c = true) :
    trim (t ++ b) = trim t := by
  have htrim := trim_blank_append t (fun c hc => absurd hc List.not_mem_nil) h
  rwa [List.nil_append] at htrim

/-- Blanks before a text are trimmed away. -/
theorem trim_blanks_append {b : Text} (h : ∀ c ∈ b, isBlank c = true) (t : Text) :
    trim (b ++ t) = trim t := by
  rw [trim, trimStart_append h, trim]

/-- The content of a line, between its margins, is what trimming leaves. -/
theorem trim_margins {left line right : Text} (hleft : IsMargin left) (hright : IsMargin right)
    (h : IsTrimmed line) : trim (left ++ line ++ right) = line := by
  rw [trim_blank_append line (fun c hc => (hleft c hc).1) (fun c hc => (hright c hc).1),
    trim_eq_self h]

/-- A text is what trimming leaves, between blanks of the text. -/
theorem exists_blanks (t : Text) :
    ∃ left right, (∀ c ∈ left, isBlank c = true) ∧ (∀ c ∈ right, isBlank c = true) ∧
      left ++ trim t ++ right = t := by
  have hstart : t.takeWhile isBlank ++ trimStart t = t := List.takeWhile_append_dropWhile
  have hend : trim t ++ ((trimStart t).reverse.takeWhile isBlank).reverse = trimStart t := by
    rw [trim, trimEnd, ← List.reverse_append, List.takeWhile_append_dropWhile, List.reverse_reverse]
  have hblank (u : Text) : ∀ c ∈ u.takeWhile isBlank, isBlank c = true :=
    List.all_eq_true.mp List.all_takeWhile
  refine ⟨t.takeWhile isBlank, ((trimStart t).reverse.takeWhile isBlank).reverse, hblank t, ?_, ?_⟩
  · exact fun c hc => hblank _ c (List.mem_reverse.mp hc)
  · rw [List.append_assoc, hend, hstart]

/-- A text without a line feed is what trimming leaves, between margins. -/
theorem exists_margins {t : Text} (h : '\n' ∉ t) :
    ∃ left right, IsMargin left ∧ IsMargin right ∧ left ++ trim t ++ right = t := by
  obtain ⟨left, right, hleft, hright, hsplit⟩ := exists_blanks t
  have hfeed {c : Char} (hc : c ∈ left ++ trim t ++ right) : c ≠ '\n' := by
    rintro rfl
    exact h (hsplit ▸ hc)
  refine ⟨left, right, fun c hc => ⟨hleft c hc, hfeed ?_⟩, fun c hc => ⟨hright c hc, hfeed ?_⟩,
    hsplit⟩
  · exact List.mem_append_left _ (List.mem_append_left _ hc)
  · exact List.mem_append_right _ hc

/-- There is nothing left to trim in a text that was trimmed. -/
theorem trim_trim (t : Text) : trim (trim t) = trim t := by
  obtain ⟨left, right, hleft, hright, hsplit⟩ := exists_blanks t
  have htrim := trim_blank_append (trim t) hleft hright
  rw [hsplit] at htrim
  exact htrim.symm

/-- The line end is blank, so that trimming need not know it. -/
theorem trim_dropLineEnd (piece : Text) : trim (dropLineEnd piece) = trim piece := by
  have unreverse (ending r : Text) (h : piece.reverse = ending ++ r) :
      piece = r.reverse ++ ending.reverse := by
    rw [← List.reverse_append, ← h, List.reverse_reverse]
  unfold dropLineEnd
  split
  · next r h =>
    have hpiece : piece = r.reverse ++ ['\r', '\n'] := unreverse ['\n', '\r'] r h
    rw [hpiece, trim_append_blanks _ (by simp [isBlank])]
  · next r _ h =>
    have hpiece : piece = r.reverse ++ ['\n'] := unreverse ['\n'] r h
    rw [hpiece, trim_append_blanks _ (by simp [isBlank])]
  · rfl

/-! ### Cutting into lines -/

/-- The first piece of a text ends with its first line feed. -/
theorem pieces_append_cons (rest : Text) :
    (t : Text) → '\n' ∉ t → pieces (t ++ '\n' :: rest) = (t ++ ['\n']) :: pieces rest
  | [], _ => by simp [pieces]
  | c :: t, h => by
      obtain ⟨hc, ht⟩ : '\n' ≠ c ∧ '\n' ∉ t := by simpa using h
      rw [List.cons_append, pieces, if_neg (Ne.symm hc), pieces_append_cons rest t ht]
      rfl

/-- A text without a line feed is one piece. -/
theorem pieces_eq_singleton : (t : Text) → t ≠ [] → '\n' ∉ t → pieces t = [t]
  | [], h, _ => absurd rfl h
  | [c], _, h => by
      rw [pieces, if_neg (Ne.symm (by simpa using h))]
      rfl
  | c :: d :: t, _, h => by
      obtain ⟨hc, ht⟩ : '\n' ≠ c ∧ '\n' ∉ d :: t := by simpa using h
      rw [pieces, if_neg (Ne.symm hc), pieces_eq_singleton (d :: t) (by simp) ht]

/-- The first trimmed line of a text is what trimming leaves of the text before its first line
feed. -/
theorem trimmedLines_append_cons {t : Text} (h : '\n' ∉ t) (rest : Text) :
    trimmedLines (t ++ '\n' :: rest) = trim t :: trimmedLines rest := by
  rw [trimmedLines, lines, pieces_append_cons rest t h, List.map_cons, List.map_cons,
    trim_dropLineEnd, trim_append_blanks t (by simp [isBlank])]
  rfl

/-- A text without a line feed has one line. -/
theorem trimmedLines_eq_singleton {t : Text} (hne : t ≠ []) (h : '\n' ∉ t) :
    trimmedLines t = [trim t] := by
  rw [trimmedLines, lines, pieces_eq_singleton t hne h, List.map_singleton, List.map_singleton,
    trim_dropLineEnd]

/-- A line between its margins has no line feed, if its content has none. -/
theorem not_mem_margins {left line right : Text} (hleft : IsMargin left) (hright : IsMargin right)
    (h : '\n' ∉ line) : '\n' ∉ left ++ line ++ right := by
  intro hmem
  rcases List.mem_append.mp hmem with hmem | hmem
  · rcases List.mem_append.mp hmem with hmem | hmem
    · exact (hleft _ hmem).2 rfl
    · exact h hmem
  · exact (hright _ hmem).2 rfl

end Text

open Text

/-- Lines that a text begins with, in some layout, are the first of its trimmed lines. -/
theorem trimmedLines_of_beginsWithLines {contents : List Text} {t : Text}
    (h : BeginsWithLines contents t) (hcontents : ∀ line ∈ contents, IsContent line) :
    contents <+: trimmedLines t := by
  induction h with
  | nil rest => exact List.nil_prefix
  | @last left line right hleft hright =>
    obtain ⟨htrimmed, hline⟩ := hcontents line (by simp)
    have hne : left ++ line ++ right ≠ [] := by
      intro hnil
      obtain ⟨⟨c, hc, -⟩, -⟩ := htrimmed
      obtain ⟨-, rfl, -⟩ : left = [] ∧ line = [] ∧ right = [] := by simpa using hnil
      cases hc
    have hlines : trimmedLines (left ++ line ++ right) = [line] := by
      rw [trimmedLines_eq_singleton hne (not_mem_margins hleft hright hline),
        trim_margins hleft hright htrimmed]
    exact ⟨[], by rw [hlines, List.append_nil]⟩
  | @cons left line right lines rest hleft hright hrest ih =>
    obtain ⟨htrimmed, hline⟩ := hcontents line (by simp)
    rw [trimmedLines_append_cons (not_mem_margins hleft hright hline),
      trim_margins hleft hright htrimmed]
    obtain ⟨after, hafter⟩ := ih fun l hl => hcontents l (List.mem_cons_of_mem line hl)
    exact ⟨after, by rw [List.cons_append, hafter]⟩

/-- A text begins with its first trimmed lines, in some layout. -/
theorem beginsWithLines_of_trimmedLines :
    (contents : List Text) → ∀ t, contents <+: trimmedLines t → BeginsWithLines contents t
  | [], t, _ => .nil t
  | line :: contents, t, h => by
      by_cases hfeed : '\n' ∈ t
      · obtain ⟨first, rest, rfl, hfirst⟩ := List.eq_append_cons_of_mem hfeed
        rw [trimmedLines_append_cons hfirst, List.cons_prefix_cons] at h
        obtain ⟨hline, hrest⟩ := h
        obtain ⟨left, right, hleft, hright, hsplit⟩ := exists_margins hfirst
        rw [← hline] at hsplit
        rw [← hsplit]
        exact .cons hleft hright (beginsWithLines_of_trimmedLines contents rest hrest)
      · have hne : t ≠ [] := by
          rintro rfl
          exact absurd (List.prefix_nil.mp h) (List.cons_ne_nil _ _)
        rw [trimmedLines_eq_singleton hne hfeed, List.cons_prefix_cons, List.prefix_nil] at h
        obtain ⟨hline, rfl⟩ := h
        obtain ⟨left, right, hleft, hright, hsplit⟩ := exists_margins hfeed
        rw [← hline] at hsplit
        rw [← hsplit]
        exact .last hleft hright

/-- **Layout**: a text begins with lines in some layout iff they are the first of its trimmed
lines. -/
theorem beginsWithLines_iff {contents : List Text} {t : Text}
    (hcontents : ∀ line ∈ contents, IsContent line) :
    BeginsWithLines contents t ↔ contents <+: trimmedLines t :=
  ⟨fun h => trimmedLines_of_beginsWithLines h hcontents, beginsWithLines_of_trimmedLines contents t⟩

end DataSourceGen
