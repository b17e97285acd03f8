import DataSourceGen.Name
import DataSourceGen.Query.Basic
import DataSourceGen.Text.Blank
import DataSourceGen.Text.LetterCase

/-!
# The heading of a document

The first line of a document is the operation line and the second names the root object. Both are
read from the trimmed line alone.
-/

namespace DataSourceGen

open Text

/-- What comes after the word `query` and before a parenthesis. -/
inductive OperationLine where
  /-- The line does not start with `query` and a blank. -/
  | other
  /-- The keyword stands alone. -/
  | nameless
  /-- The word after the keyword is no name. -/
  | malformed (word : Text)
  | named (name : Text)
  deriving DecidableEq

/-- The text after a leading `query`, if a blank follows the keyword. -/
def afterQueryKeyword? (line : Text) : Option Text :=
  match "query".toList.isPrefixOf? line with
  | some (c :: r) => if isBlank c then some (c :: r) else none
  | _ => none

/-- The word before any parenthesis; `device($name:` is the call of `device`. -/
def callee (word : Text) : Text :=
  upTo '(' word

/-- Reads the first line of a document. -/
def OperationLine.ofLine (line : Text) : OperationLine :=
  match afterQueryKeyword? line with
  | none => .other
  | some rest =>
    match firstWord? rest with
    | none => .nameless
    | some word =>
      if isName (callee word) then .named (lowercaseFirst (callee word))
      else .malformed (callee word)

/-- The second line of a document: the root object and what it is looked up by. -/
structure RootLine where
  name : Text
  parameter : Option Text
  /-- Whether the line has an argument that is bound to no variable. -/
  isUnbound : Bool
  deriving DecidableEq

/-- The name of the variable in the text of an argument, if it has one. -/
def boundVariable? (argument : Text) : Option Text :=
  match cutAt '$' argument with
  | none => none
  | some (_, rest) =>
    let name := dropEnd ')' (upTo ' ' rest)
    if name.isEmpty then none else some name

/-- Reads the second line of a document. Its first colon, if any, introduces the first argument,
which ends at the next colon. -/
def RootLine.ofLine (line : Text) : RootLine :=
  match cutAt ':' line with
  | none => ⟨upTo ' ' line, none, false⟩
  | some (head, tail) =>
    let parameter := boundVariable? (upTo ':' tail)
    ⟨trim (upTo '(' head), parameter, parameter.isNone⟩

end DataSourceGen
