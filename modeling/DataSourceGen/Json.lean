import DataSourceGen.Text.Basic

/-!
# JSON

The JSON values that a report consists of, and their layout over several lines: each item of an
array and each member of an object on lines of its own, two spaces deeper than the brackets. The
members of an object keep their order.
-/

namespace DataSourceGen

/-- A JSON value without numbers, truth values and null. -/
inductive Json where
  | string (t : Text)
  | array (items : List Json)
  | object (members : List (Text × Json))

namespace Json

/-- The hexadecimal digit of a number below 16. -/
def hexDigit (n : Nat) : Char :=
  Nat.digitChar n

/-- The form of a character inside a string. -/
def escape (c : Char) : Text :=
  if c == '"' then "\\\""
  else if c == '\\' then "\\\\"
  else if c == '\x08' then "\\b"
  else if c == '\t' then "\\t"
  else if c == '\n' then "\\n"
  else if c == '\x0c' then "\\f"
  else if c == '\r' then "\\r"
  else if c.toNat < 32 then
    "\\u00" ++ [hexDigit (c.toNat / 16), hexDigit (c.toNat % 16)]
  else [c]

/-- A text as a string of a JSON document. -/
def quote (t : Text) : Text :=
  '"' :: t.flatMap escape ++ ['"']

/-- Lines two spaces deeper. -/
def deeper (lines : List Text) : List Text :=
  lines.map fun line => ' ' :: ' ' :: line

/-- Lines with a comma at the end of the last one. -/
def withComma : List Text → List Text
  | [] => []
  | [line] => [line ++ [',']]
  | line :: next :: r => line :: withComma (next :: r)

/-- Lines with a text at the start of the first one. -/
def after (start : Text) : List Text → List Text
  | [] => []
  | line :: r => (start ++ line) :: r

mutual

/-- The lines of a value. -/
def lines : Json → List Text
  | .string t => [quote t]
  | .array items =>
    if items.isEmpty then ["[]".toList] else ['['] :: deeper (itemLines items) ++ [[']']]
  | .object members =>
    if members.isEmpty then ["\x7b\x7d".toList]
    else ['\x7b'] :: deeper (memberLines members) ++ [['\x7d']]

/-- The lines of the items of an array. -/
def itemLines : List Json → List Text
  | [] => []
  | item :: r =>
    (if r.isEmpty then item.lines else withComma item.lines) ++ itemLines r

/-- The lines of the members of an object. -/
def memberLines : List (Text × Json) → List Text
  | [] => []
  | (key, value) :: r =>
    let own := after (quote key ++ ": ") value.lines
    (if r.isEmpty then own else withComma own) ++ memberLines r

end

/-- A value as a document of several lines. -/
def pretty (j : Json) : Text :=
  Text.joinWith ['\n'] j.lines

end Json

end DataSourceGen
