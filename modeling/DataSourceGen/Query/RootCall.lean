import DataSourceGen.Query.Basic
import DataSourceGen.Name

/-!
# Root objects with arguments

The usual form of the second line of a document: the root object, and in parentheses what it is
looked up by. An argument has a fixed number or a variable for its value. `RootCall.line` writes
such a line, and `RootCall.shape` is the shape that it states: that of a lookup of one entity by the
first of its variables, or of a collection if it has none. -/

namespace DataSourceGen

open Text

/-- Whether a text is a number in decimal digits, perhaps after a minus sign. -/
def isInteger (t : Text) : Bool :=
  let digits := if t.head? = some '-' then t.tail else t
  !digits.isEmpty && digits.all Char.isDigit

/-- What an argument is bound to. -/
inductive ArgumentValue where
  /-- A number. -/
  | fixed (literal : Text)
  /-- A variable of the operation. -/
  | bound (parameter : Text)
  deriving DecidableEq, Repr

namespace ArgumentValue

/-- A value as it is written. -/
def text : ArgumentValue → Text
  | .fixed literal => literal
  | .bound parameter => '$' :: parameter

/-- The variable that the value is, if it is one. -/
def parameter? : ArgumentValue → Option Text
  | .fixed _ => none
  | .bound parameter => some parameter

/-- Whether the text of a value is what its kind promises. -/
def isWellFormed : ArgumentValue → Bool
  | .fixed literal => isInteger literal
  | .bound parameter => isName parameter

end ArgumentValue

/-- An argument of a root object. -/
structure Argument where
  name : Text
  value : ArgumentValue
  deriving DecidableEq, Repr

/-- An argument as it is written. -/
def Argument.text (a : Argument) : Text :=
  a.name ++ ": " ++ a.value.text

/-- A root object and the arguments that it is looked up by. -/
structure RootCall where
  root : Text
  arguments : List Argument
  deriving DecidableEq, Repr

namespace RootCall

/-- The line for a root object; without arguments there are no parentheses. -/
def line (c : RootCall) : Text :=
  match c.arguments with
  | [] => c.root ++ " \x7b"
  | first :: rest =>
    c.root ++ "(" ++ joinWith ", " ((first :: rest).map Argument.text) ++ ") \x7b"

/-- The variables among the values of the arguments, in order. -/
def parameters (c : RootCall) : List Text :=
  c.arguments.filterMap fun a => a.value.parameter?

/-- What the line states of the lookup: it is by the first variable, if there is one. -/
def shape (c : RootCall) : LookupShape :=
  .ofParameter? c.parameters.head?

/-- The root object and the arguments have names, and the values are numbers or variables. -/
structure IsWellFormed (c : RootCall) : Prop where
  root : isName c.root = true
  arguments : ∀ a ∈ c.arguments, isName a.name = true ∧ a.value.isWellFormed = true

end RootCall

end DataSourceGen
