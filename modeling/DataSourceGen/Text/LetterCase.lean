import DataSourceGen.Text.Basic
import DataSourceGen.Text.UppercaseTable

/-!
# Letter case

The case of a first character. Upper case follows the full Unicode mapping, so that a character
may become several (`ß` becomes `SS`); lower case is needed for names of ASCII letters only.
-/

namespace DataSourceGen.Text

/-- The upper-case form of a character beyond ASCII, from the table. -/
def uppercaseForm (c : Char) : Text :=
  match uppercaseExpansions.find? (·.1 == c.toNat) with
  | some e => e.2.map Char.ofNat
  | none =>
    match uppercaseRuns.find? fun r => r.first ≤ c.toNat && c.toNat ≤ r.last &&
        (c.toNat - r.first) % r.step == 0 with
    | some r => [Char.ofNat (r.image + (c.toNat - r.first))]
    | none => [c]

/-- The upper-case form of a character. -/
def uppercase (c : Char) : Text :=
  if c.toNat < 128 then [c.toUpper] else uppercaseForm c

/-- The text with its first character in upper case and the rest as it is. -/
def capitalizeFirst : Text → Text
  | [] => []
  | c :: r => uppercase c ++ r

/-- The text with its first ASCII letter, if it starts with one, in lower case. -/
def lowercaseFirst : Text → Text
  | [] => []
  | c :: r => c.toLower :: r

theorem capitalizeFirst_cons_of_ascii {c : Char} (h : c.toNat < 128) (r : Text) :
    capitalizeFirst (c :: r) = c.toUpper :: r := by
  simp [capitalizeFirst, uppercase, h]

example : capitalizeFirst "ßa" = "SSa".toList := by decide +kernel
example : capitalizeFirst "ŉ" = "ʼN".toList := by decide +kernel
example : capitalizeFirst "ﬁrst" = "FIrst".toList := by decide +kernel
example : capitalizeFirst "élan" = "Élan".toList := by decide +kernel
example : capitalizeFirst "ǆ" = "Ǆ".toList := by decide +kernel

end DataSourceGen.Text
