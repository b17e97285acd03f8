import DataSourceGen.Json

/-!
# Reading JSON

A document is read in two passes, its characters into tokens and the tokens into a value. Blanks
between tokens mean nothing, so that a document may be laid out in any way. Each pass is a machine
that takes one step at a time and knows what it is inside of; it stops at what no document has
there.

Only values that `Json` has are read: a number, a truth value or null stops the reader.
-/

namespace DataSourceGen

namespace Json

/-! ## Tokens -/

/-- A bracket, a mark between values, or a string. -/
inductive Token where
  | openArray
  | closeArray
  | openObject
  | closeObject
  | colon
  | comma
  | string (t : Text)
  deriving DecidableEq

/-- The token that a character is by itself. -/
def punctuation? (c : Char) : Option Token :=
  if c == '[' then some .openArray
  else if c == ']' then some .closeArray
  else if c == '\x7b' then some .openObject
  else if c == '\x7d' then some .closeObject
  else if c == ':' then some .colon
  else if c == ',' then some .comma
  else none

/-- Whether a character between tokens means nothing. -/
def isLayout (c : Char) : Bool :=
  c == ' ' || c == '\t' || c == '\n' || c == '\r'

/-- The character that a letter behind a backslash stands for. -/
def unescape? (c : Char) : Option Char :=
  if c == '"' || c == '\\' || c == '/' then some c
  else if c == 'b' then some '\x08'
  else if c == 'f' then some '\x0c'
  else if c == 'n' then some '\n'
  else if c == 'r' then some '\r'
  else if c == 't' then some '\t'
  else none

/-- The value of a hexadecimal digit. -/
def hexValue? (c : Char) : Option Nat :=
  if '0' ≤ c && c ≤ '9' then some (c.toNat - 48)
  else if 'a' ≤ c && c ≤ 'f' then some (c.toNat - 87)
  else if 'A' ≤ c && c ≤ 'F' then some (c.toNat - 55)
  else none

/-- What the characters read so far leave open. -/
inductive Mode where
  /-- Nothing: the next token may begin. -/
  | between
  /-- A string that has `t` so far. -/
  | inside (t : Text)
  /-- What a backslash in the string introduces. -/
  | escaped (t : Text)
  /-- A code unit with `left` digits after the next one; `high?` is the first half of a pair, if
  this is the second. -/
  | digits (t : Text) (high? : Option Nat) (value left : Nat)
  /-- The backslash of the second half of a pair. -/
  | half (t : Text) (high : Nat)
  /-- The letter `u` of the second half of a pair. -/
  | halfEscaped (t : Text) (high : Nat)
  deriving DecidableEq

/-- Whether a code unit is the first half of a pair. -/
def isHigh (unit : Nat) : Bool :=
  0xd800 ≤ unit && unit < 0xdc00

/-- Whether a code unit is the second half of a pair. -/
def isLow (unit : Nat) : Bool :=
  0xdc00 ≤ unit && unit < 0xe000

/-- Adds a code unit to a string. -/
def Mode.unit? (t : Text) (high? : Option Nat) (unit : Nat) : Option Mode :=
  match high? with
  | none =>
    if isHigh unit then some (.half t unit)
    else if isLow unit then none
    else some (.inside (t ++ [Char.ofNat unit]))
  | some high =>
    if isLow unit then
      some (.inside (t ++ [Char.ofNat (0x10000 + (high - 0xd800) * 0x400 + (unit - 0xdc00))]))
    else none

/-- What is known after some characters. -/
structure Lexer where
  mode : Mode := .between
  tokens : List Token := []
  deriving DecidableEq

/-- Reads a character. -/
def Lexer.next? (s : Lexer) (c : Char) : Option Lexer :=
  match s.mode with
  | .between =>
    if isLayout c then some s
    else if c == '"' then some { s with mode := .inside [] }
    else (punctuation? c).map fun token => { s with tokens := s.tokens ++ [token] }
  | .inside t =>
    if c == '"' then some ⟨.between, s.tokens ++ [.string t]⟩
    else if c == '\\' then some { s with mode := .escaped t }
    else if c.toNat < 32 then none
    else some { s with mode := .inside (t ++ [c]) }
  | .escaped t =>
    if c == 'u' then some { s with mode := .digits t none 0 3 }
    else (unescape? c).map fun d => { s with mode := .inside (t ++ [d]) }
  | .digits t high? value left =>
    match hexValue? c with
    | none => none
    | some d =>
      match left with
      | 0 => (Mode.unit? t high? (16 * value + d)).map fun mode => { s with mode }
      | n + 1 => some { s with mode := .digits t high? (16 * value + d) n }
  | .half t high => if c == '\\' then some { s with mode := .halfEscaped t high } else none
  | .halfEscaped t high =>
    if c == 'u' then some { s with mode := .digits t (some high) 0 3 } else none

/-- The tokens of a document. -/
def lex (document : Text) : Option (List Token) :=
  match document.foldlM Lexer.next? {} with
  | some ⟨.between, tokens⟩ => some tokens
  | _ => none

/-! ## Values -/

/-- An array or an object that is not complete, and a value of it is being read. -/
inductive Frame where
  | item (before : List Json)
  | member (before : List (Text × Json)) (key : Text)

/-- What the tokens read so far leave open. -/
inductive Parser where
  | value (stack : List Frame)
  /-- The first item of an array, or its end. -/
  | firstItem (stack : List Frame)
  /-- A comma behind an item, or the end of the array. -/
  | afterItem (items : List Json) (stack : List Frame)
  /-- The first key of an object, or its end. -/
  | firstKey (stack : List Frame)
  | nextKey (members : List (Text × Json)) (stack : List Frame)
  | colon (members : List (Text × Json)) (key : Text) (stack : List Frame)
  /-- A comma behind a member, or the end of the object. -/
  | afterMember (members : List (Text × Json)) (stack : List Frame)
  /-- Nothing: the value is complete. -/
  | nothing (j : Json)

/-- What is open after a value inside of some frames. -/
def Parser.after (j : Json) : List Frame → Parser
  | [] => .nothing j
  | .item before :: stack => .afterItem (before ++ [j]) stack
  | .member before key :: stack => .afterMember (before ++ [(key, j)]) stack

/-- Reads the first token of a value. -/
def Parser.begin? (stack : List Frame) : Token → Option Parser
  | .string t => some (.after (.string t) stack)
  | .openArray => some (.firstItem stack)
  | .openObject => some (.firstKey stack)
  | .closeArray | .closeObject | .colon | .comma => none

/-- Reads a token. -/
def Parser.next? : Parser → Token → Option Parser
  | .value stack, token => begin? stack token
  | .firstItem stack, .closeArray => some (.after (.array []) stack)
  | .firstItem stack, token => begin? (.item [] :: stack) token
  | .afterItem items stack, .comma => some (.value (.item items :: stack))
  | .afterItem items stack, .closeArray => some (.after (.array items) stack)
  | .firstKey stack, .closeObject => some (.after (.object []) stack)
  | .firstKey stack, .string key => some (.colon [] key stack)
  | .nextKey members stack, .string key => some (.colon members key stack)
  | .colon members key stack, .colon => some (.value (.member members key :: stack))
  | .afterMember members stack, .comma => some (.nextKey members stack)
  | .afterMember members stack, .closeObject => some (.after (.object members) stack)
  | _, _ => none

/-- The value that some tokens are. -/
def ofTokens? (tokens : List Token) : Option Json :=
  match tokens.foldlM Parser.next? (.value []) with
  | some (.nothing j) => some j
  | _ => none

/-- The value of a document. -/
def decode? (document : Text) : Option Json :=
  (lex document).bind ofTokens?

/-! ## Parts of a value -/

/-- The value of a key in an object. -/
def member? (key : Text) : Json → Option Json
  | .object members => members.lookup key
  | .array _ | .string _ => none

/-- The value that some keys lead to, through one object after another. -/
def at? (keys : List Text) (j : Json) : Option Json :=
  keys.foldlM (fun j key => j.member? key) j

/-- The text of a string. -/
def text? : Json → Option Text
  | .string t => some t
  | .array _ | .object _ => none

/-- The texts of an array of strings. -/
def texts? : Json → Option (List Text)
  | .array items => items.mapM text?
  | .string _ | .object _ => none

/-- The texts of a key in an array of objects. -/
def column? (key : Text) : Json → Option (List Text)
  | .array items => items.mapM fun item => (item.member? key).bind text?
  | .string _ | .object _ => none

end Json

end DataSourceGen
