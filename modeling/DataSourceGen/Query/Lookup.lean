import DataSourceGen.Query.SelectionSet

/-!
# Lookups

The usual form of a query document: an operation, a root object that may be looked up by the value
of a variable, and selections inside the two wrapper blocks. `Lookup.lines` writes a lookup, and
`BeginsWithLines` says that a text has given lines at its start, laid out in any way. -/

namespace DataSourceGen

open Text

/-- What a document in the usual form asks for. -/
structure Lookup where
  operation : Text
  root : Text
  /-- An argument of the root object and the variable that it is bound to. -/
  binding : Option (Text × Text)
  /-- The selections inside the wrapper blocks. -/
  selections : SelectionSet
  deriving DecidableEq, Repr

namespace Lookup

/-- The line that names the operation, and declares the variable if there is one. -/
def operationLine (l : Lookup) : Text :=
  match l.binding with
  | none => "query " ++ l.operation ++ " \x7b"
  | some (_, parameter) => "query " ++ l.operation ++ "($" ++ parameter ++ ": String!) \x7b"

/-- The line that names the root object, and binds its argument if it has one. -/
def rootLine (l : Lookup) : Text :=
  match l.binding with
  | none => l.root ++ " \x7b"
  | some (argument, parameter) => l.root ++ "(" ++ argument ++ ": $" ++ parameter ++ ") \x7b"

/-- The lines of a lookup up to the end of the wrapper blocks, without indentation. -/
def lines (l : Lookup) : List Text :=
  l.operationLine :: l.rootLine :: "edges \x7b".toList :: "node \x7b".toList ::
    (l.selections.lines ++ ["\x7d".toList, "\x7d".toList])

/-- The items of a lookup: the wrapper blocks and the selections inside them. -/
def items (l : Lookup) : List SelectionSet.Item :=
  .block "edges" :: .block "node" :: l.selections.items ["edges".toList, "node".toList]

/-- All that a lookup names has a name. -/
structure IsWellFormed (l : Lookup) : Prop where
  operation : isName l.operation = true
  root : isName l.root = true
  binding : ∀ b ∈ l.binding, isName b.1 = true ∧ isName b.2 = true
  selections : l.selections.IsWellFormed

end Lookup

/-- Whether a text begins with lines of the given content, each between blanks of any number; what
follows them may be anything. -/
inductive BeginsWithLines : List Text → Text → Prop where
  | nil (rest : Text) : BeginsWithLines [] rest
  /-- The end of the text may end the last line. -/
  | last {left line right : Text} : IsMargin left → IsMargin right →
      BeginsWithLines [line] (left ++ line ++ right)
  | cons {left line right : Text} {lines : List Text} {rest : Text} : IsMargin left →
      IsMargin right → BeginsWithLines lines rest →
      BeginsWithLines (line :: lines) (left ++ line ++ right ++ '\n' :: rest)

end DataSourceGen
