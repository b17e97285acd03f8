import DataSourceGen.Query.Basic
import DataSourceGen.Segment
import DataSourceGen.Text.LetterCase

/-!
# Accessors

The answer to a query is a nest of structs whose members have capitalized names. An accessor is
the path from the root object to a field: the segments of the flat name, capitalized, with an
index after each list of edges.
-/

namespace DataSourceGen

/-- A flat name and the expression that reaches its value. -/
structure AccessorPath where
  flatName : Text
  expression : Text
  deriving DecidableEq

/-- The member name of a list of edges. -/
def edgesComponent : Text := "Edges"

/-- The component of an accessor for one segment of a flat name. -/
def LookupShape.component (shape : LookupShape) (segment : Text) : Text :=
  let member := Text.capitalizeFirst segment
  if member = edgesComponent then shape.edgesAccessor else member

namespace Query

/-- The segments of a flat name, given the names of a query that hold an underscore. -/
def segmentsOf (q : Query) (flatName : Text) : List Text :=
  segments q.compounds flatName

/-- The accessor of a flat name. -/
def accessor (q : Query) (flatName : Text) : AccessorPath where
  flatName
  expression :=
    q.rootName ++ "." ++ Text.joinWith "." ((q.segmentsOf flatName).map q.shape.component)

/-- The accessors of all fields, in order. -/
def accessors (q : Query) : List AccessorPath :=
  q.fields.map fun f => q.accessor f.flatName

end Query

end DataSourceGen
