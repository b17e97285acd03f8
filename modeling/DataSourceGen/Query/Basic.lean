import DataSourceGen.NameSet

/-!
# Queries

What a query document says, as far as a data source depends on it: the operation, the root
object, whether one entity or a collection is looked up, the selected fields under flat names,
and the names that hold an underscore.
-/

namespace DataSourceGen

/-- The scalar type of a field. -/
inductive ScalarType where
  | boolean
  | float
  | int
  | string
  deriving DecidableEq, Repr

namespace ScalarType

/-- A field has this type unless something else is known. -/
instance : Inhabited ScalarType := ⟨.string⟩

/-- All scalar types. -/
def all : List ScalarType := [.boolean, .float, .int, .string]

/-- The name of the type in a query language document. -/
def name : ScalarType → Text
  | .boolean => "Boolean"
  | .float => "Float"
  | .int => "Int"
  | .string => "String"

/-- The type of the attribute value in a data source. -/
def valueType : ScalarType → Text
  | .boolean => "types.Bool"
  | .float => "types.Float64"
  | .int => "types.Int64"
  | .string => "types.String"

/-- The function that makes an attribute value of a plain one. -/
def valueConstructor : ScalarType → Text
  | .boolean => "types.BoolValue"
  | .float => "types.Float64Value"
  | .int => "types.Int64Value"
  | .string => "types.StringValue"

/-- The kind of attribute that a schema declares. -/
def schemaAttribute : ScalarType → Text
  | .boolean => "schema.BoolAttribute"
  | .float => "schema.Float64Attribute"
  | .int => "schema.Int64Attribute"
  | .string => "schema.StringAttribute"

end ScalarType

/-- A selected leaf, under the names of its enclosing blocks and its own joined to one. -/
structure Field where
  flatName : Text
  scalar : ScalarType := .string
  deriving DecidableEq

/-- Whether a query looks up one entity or lists several. -/
inductive LookupShape where
  /-- The lookup is by the value of a required parameter and expects exactly one answer. -/
  | single (parameter : Text)
  /-- The lookup lists all there are. -/
  | collection
  deriving DecidableEq

namespace LookupShape

/-- The shape of a lookup that may have a required parameter. -/
def ofParameter? : Option Text → LookupShape
  | some parameter => .single parameter
  | none => .collection

/-- The required parameter, if there is one. -/
def parameter? : LookupShape → Option Text
  | .single parameter => some parameter
  | .collection => none

/-- How the list of results is indexed: one entity is the first, of several each has its turn. -/
def edgesAccessor : LookupShape → Text
  | .single _ => "Edges[0]"
  | .collection => "Edges[i]"

@[simp] theorem parameter?_ofParameter? (p : Option Text) : (ofParameter? p).parameter? = p := by
  cases p <;> rfl

end LookupShape

/-- What one document asks for. -/
structure Query where
  /-- The name of the operation, in lower case at its start. -/
  operationName : Text
  /-- The object under which the answer nests. -/
  rootName : Text
  shape : LookupShape
  /-- The leaves, in document order. -/
  fields : List Field
  /-- The names of blocks and leaves that hold an underscore. -/
  compounds : NameSet
  deriving DecidableEq

namespace Query

/-- The required parameter of the lookup, if there is one. -/
def parameter? (q : Query) : Option Text :=
  q.shape.parameter?

/-- The name of the type that the data source gets. -/
def structName (q : Query) : Text :=
  q.operationName ++ "DataSource"

end Query

end DataSourceGen
