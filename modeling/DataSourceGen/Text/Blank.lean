import DataSourceGen.Text.Basic

/-!
# Blank characters

The white space of Unicode, and the two operations on lines that depend on it: trimming both
ends and taking the first word. `trim_blank_append` says that blanks around a text are inert.
-/

namespace DataSourceGen.Text

/-- The characters with the Unicode property White_Space. -/
def isBlank (c : Char) : Bool :=
  c == ' ' || ('\t' ≤ c && c ≤ '\r') || c == '\u0085' || c == '\u00a0' || c == '\u1680' ||
    ('\u2000' ≤ c && c ≤ '\u200a') || c == '\u2028' || c == '\u2029' || c == '\u202f' ||
    c == '\u205f' || c == '\u3000'

/-- Whether a text can stand beside the content of a line: it is blank and does not end the line. -/
def IsMargin (t : Text) : Prop :=
  ∀ c ∈ t, isBlank c = true ∧ c ≠ '\n'

/-- The text without the blanks at its start. -/
def trimStart (t : Text) : Text :=
  t.dropWhile isBlank

/-- The text without the blanks at its end. -/
def trimEnd (t : Text) : Text :=
  (t.reverse.dropWhile isBlank).reverse

/-- The text without the blanks at its two ends. -/
def trim (t : Text) : Text :=
  trimEnd (trimStart t)

/-- The first run of characters that are not blank, if the text has one. -/
def firstWord? (t : Text) : Option Text :=
  match trimStart t with
  | [] => none
  | c :: r => some ((c :: r).takeWhile fun x => !isBlank x)

/-- Trimming the start passes over blanks in front. -/
theorem trimStart_append {a : Text} (h : ∀ c ∈ a, isBlank c = true) (t : Text) :
    trimStart (a ++ t) = trimStart t := by
  induction a with
  | nil => rfl
  | cons c r ih =>
    simp only [List.mem_cons, forall_eq_or_imp] at h
    simpa [trimStart, List.dropWhile_cons, h.1] using ih h.2

/-- Trimming the start of a text of blanks leaves nothing. -/
theorem trimStart_eq_nil {t : Text} (h : ∀ c ∈ t, isBlank c = true) : trimStart t = [] := by
  simpa [trimStart] using trimStart_append h []

/-- What follows a text with a character that is not blank stays when the start is trimmed. -/
theorem trimStart_append_right {t : Text} (h : ¬ ∀ c ∈ t, isBlank c = true) (b : Text) :
    trimStart (t ++ b) = trimStart t ++ b := by
  induction t with
  | nil => simp at h
  | cons c r ih =>
    by_cases hc : isBlank c = true
    · have hr : ¬ ∀ x ∈ r, isBlank x = true := fun all => h (by simpa [hc] using all)
      simpa [trimStart, List.dropWhile_cons, hc] using ih hr
    · simp [trimStart, hc]

/-- Blanks at the two ends of a text do not change what trimming leaves. -/
theorem trim_blank_append {a b : Text} (t : Text) (ha : ∀ c ∈ a, isBlank c = true)
    (hb : ∀ c ∈ b, isBlank c = true) : trim (a ++ t ++ b) = trim t := by
  have reversed : ∀ c ∈ b.reverse, isBlank c = true := fun c hc => hb c (by simpa using hc)
  unfold trim
  rw [List.append_assoc, trimStart_append ha]
  by_cases h : ∀ c ∈ t, isBlank c = true
  · rw [trimStart_append h, trimStart_eq_nil hb, trimStart_eq_nil h]
  · have flipped := trimStart_append reversed (trimStart t).reverse
    rw [trimStart_append_right h, trimEnd, trimEnd, List.reverse_append]
    exact congrArg List.reverse flipped

end DataSourceGen.Text
