import DataSourceGen.Query.Reading

/-!
# Selection sets

What a document selects, as a tree of leaves and blocks. `SelectionSet.lines` writes the tree one
item to a line and `SelectionSet.paths` lists the names that lead to each leaf, in document order.
Between the two stands the reading of a document, which finds the leaves again, each under the
names of its path joined to one.

`SelectionSet.items` lists the blocks and leaves side by side, in the order of their lines, and
`SelectionSet.Item.recorded` leaves out each leaf whose flat name an earlier one has.
-/

namespace DataSourceGen

/-- Selections side by side, each with all that is below it. -/
inductive SelectionSet where
  | nil
  /-- A leaf; `arguments` is what follows its name on the line. -/
  | leaf (name arguments : Text) (rest : SelectionSet)
  /-- A block and the selections inside it. -/
  | block (name : Text) (inner rest : SelectionSet)
  deriving DecidableEq, Repr

namespace SelectionSet

/-- The lines that write a selection set, without indentation. -/
def lines : SelectionSet → List Text
  | .nil => []
  | .leaf name arguments rest => (name ++ arguments) :: rest.lines
  | .block name inner rest => (name ++ " \x7b") :: inner.lines ++ "\x7d".toList :: rest.lines

/-- The names that lead to each leaf, outermost first. -/
def paths : SelectionSet → List (List Text)
  | .nil => []
  | .leaf name _ rest => [name] :: rest.paths
  | .block name inner rest => inner.paths.map (name :: ·) ++ rest.paths

/-- The flat names of the leaves inside some blocks. -/
def flatNames (s : SelectionSet) (blocks : List Text) : List Text :=
  s.paths.map fun path => flatten (blocks ++ path)

/-- A block or a leaf on its own, without what is below it. -/
inductive Item where
  | block (name : Text)
  | leaf (name flatName : Text)
  deriving DecidableEq, Repr

namespace Item

/-- The name on the line of an item. -/
def name : Item → Text
  | .block name => name
  | .leaf name _ => name

/-- The flat name of a leaf. -/
def flatName? : Item → Option Text
  | .block _ => none
  | .leaf _ flatName => some flatName

/-- The items that are recorded if the flat names `seen` are taken: all blocks, and the first leaf
of each other flat name. -/
def recorded (seen : List Text) : List Item → List Item
  | [] => []
  | .block name :: rest => .block name :: recorded seen rest
  | .leaf name flatName :: rest =>
    if seen.contains flatName then recorded seen rest
    else .leaf name flatName :: recorded (seen ++ [flatName]) rest

end Item

/-- The items of a selection set inside some blocks, in the order of their lines. -/
def items (blocks : List Text) : SelectionSet → List Item
  | .nil => []
  | .leaf name _ rest => .leaf name (flatten (blocks ++ [name])) :: rest.items blocks
  | .block name inner rest =>
    .block name :: (inner.items (blocks ++ [name]) ++ rest.items blocks)

/-- The arguments that a leaf may have: none, or a list of them in parentheses, which blanks may
precede. -/
def IsArgumentList (arguments : Text) : Prop :=
  arguments = [] ∨ ∃ gap inner, Text.IsMargin gap ∧ '\n' ∉ inner ∧
    arguments = gap ++ '(' :: inner ++ [')']

/-- Every block and leaf has a name, and every leaf has arguments in parentheses if any. -/
def IsWellFormed : SelectionSet → Prop
  | .nil => True
  | .leaf name arguments rest => isName name ∧ IsArgumentList arguments ∧ rest.IsWellFormed
  | .block name inner rest => isName name ∧ inner.IsWellFormed ∧ rest.IsWellFormed

end SelectionSet

end DataSourceGen
