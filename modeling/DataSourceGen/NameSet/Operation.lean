import DataSourceGen.NameSet

/-!
# Operations on a set of names

What can be done with a set of names. Each operation says what type of result it has, so that a
transcript pairs every operation with a result of its own type. Only an insertion changes the set.
-/

namespace DataSourceGen.NameSet

/-- What can be done with a set of names. -/
inductive Operation where
  | insert (name : Text)
  | contains (name : Text)
  | hasExtension (word : Text)
  | members
  | size
  | isEmpty
  deriving DecidableEq, Repr

/-- The type of what an operation gives back. An insertion tells whether the name is new. -/
def Operation.Result : Operation → Type
  | insert _ | contains _ | hasExtension _ | isEmpty => Bool
  | members => List Text
  | size => Nat

/-- The set after an operation, and the result of it. -/
def perform (s : NameSet) : (operation : Operation) → NameSet × operation.Result
  | .insert name => s.insertNew name
  | .contains name => (s, s.contains name)
  | .hasExtension word => (s, s.hasExtension word)
  | .members => (s, s.toList)
  | .size => (s, s.size)
  | .isEmpty => (s, s.isEmpty)

/-- An operation that was performed, and its result. -/
structure Performed where
  operation : Operation
  result : operation.Result

/-- The set after some operations, one after another. -/
def after (s : NameSet) : List Operation → NameSet
  | [] => s
  | operation :: rest => (s.perform operation).1.after rest

/-- Some operations, one after another, and their results. -/
def transcript (s : NameSet) : List Operation → List Performed
  | [] => []
  | operation :: rest =>
    ⟨operation, (s.perform operation).2⟩ :: (s.perform operation).1.transcript rest

end DataSourceGen.NameSet
