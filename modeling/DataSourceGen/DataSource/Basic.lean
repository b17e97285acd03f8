import DataSourceGen.Query.Accessor

/-!
# Data sources

A data source is what a query becomes in a Terraform provider: a Go type whose attributes are the
fields of the query, each bound to the expression that reaches its value in an answer.

`DataSource.bind` binds the fields of a query through a list of accessor paths. Only the last path
of each flat name counts, and a field without a path is an error.
-/

namespace DataSourceGen

/-- A field of a data source and where its value comes from. -/
structure Attribute where
  name : Text
  /-- The path to the value in an answer. -/
  expression : Text
  scalar : ScalarType
  deriving DecidableEq

/-- What the source of a data source depends on. -/
structure DataSource where
  queryName : Text
  /-- The object under which an answer nests. -/
  objectName : Text
  /-- The parameter of a lookup of one entity; a collection has none. -/
  parameter? : Option Text
  /-- The name of the Go type. -/
  structName : Text
  attributes : List Attribute
  deriving DecidableEq

/-- Why a query cannot be made a data source. -/
inductive EmitError where
  /-- A field has no accessor path. -/
  | missingAccessorPath (flatName : Text)
  deriving DecidableEq

/-- The wording of the reason. -/
def EmitError.message : EmitError → Text
  | .missingAccessorPath flatName =>
    "no accessor path was resolved for field `" ++ flatName ++ "`"

/-- The expression of the last path of a flat name. -/
def lastExpression? (flatName : Text) : List AccessorPath → Option Text
  | [] => none
  | p :: r =>
    match lastExpression? flatName r with
    | some expression => some expression
    | none => if p.flatName = flatName then some p.expression else none

/-- A field with the expression that the paths give it. -/
def Field.bind (paths : List AccessorPath) (f : Field) : Except EmitError Attribute :=
  match lastExpression? f.flatName paths with
  | some expression => .ok { name := f.flatName, expression, scalar := f.scalar }
  | none => .error (.missingAccessorPath f.flatName)

/-- The data source of a query whose fields are bound through accessor paths. A lookup by a
parameter without a name has nothing to look up by and is listed like a collection. -/
def DataSource.bind (q : Query) (paths : List AccessorPath) : Except EmitError DataSource := do
  let attributes ← q.fields.mapM (·.bind paths)
  return {
    queryName := q.operationName
    objectName := q.rootName
    parameter? := q.parameter?.filter (!·.isEmpty)
    structName := q.structName
    attributes }

end DataSourceGen
