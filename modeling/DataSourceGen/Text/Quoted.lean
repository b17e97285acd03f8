import DataSourceGen.Text.Basic
import DataSourceGen.Text.HiddenTable

/-!
# Quoted text

The form in which messages show a text unambiguously: between double quotes, with a backslash
before quotes and backslashes, short escapes for the common controls and `\u{…}` with the
hexadecimal code point for every other character that would not be seen.
-/

namespace DataSourceGen.Text

/-- Whether a quoted text writes a character as its code point. -/
def isHidden (c : Char) : Bool :=
  if c.toNat < 128 then c.toNat < 32 || c.toNat == 127
  else hiddenRanges.any fun r => r.1 ≤ c.toNat && c.toNat ≤ r.2

/-- The form of a character inside quotes. -/
def quotedChar (c : Char) : Text :=
  if c == '"' then "\\\""
  else if c == '\\' then "\\\\"
  else if c == '\t' then "\\t"
  else if c == '\n' then "\\n"
  else if c == '\r' then "\\r"
  else if c == '\x00' then "\\0"
  else if isHidden c then "\\u\x7b" ++ Nat.toDigits 16 c.toNat ++ "\x7d"
  else [c]

/-- A text between quotes. -/
def quoted (t : Text) : Text :=
  '"' :: t.flatMap quotedChar ++ ['"']

/-- A list of texts, each between quotes, in brackets. -/
def quotedList (ts : List Text) : Text :=
  '[' :: joinWith ", " (ts.map quoted) ++ [']']

/-- A text that may be absent: `None`, or the quoted text in `Some(…)`. -/
def quotedOption : Option Text → Text
  | none => "None"
  | some t => "Some(" ++ quoted t ++ ")"

example : quoted "a\"\\\n\x01é\u200b" = "\"a\\\"\\\\\\n\\u\x7b1\x7dé\\u\x7b200b\x7d\"".toList := by
  decide +kernel

end DataSourceGen.Text
