import DataSourceGen.Command.Outcome
import DataSourceGen.FileTree.Content
import DataSourceGen.Generation
import DataSourceGen.Json

/-!
# Inspecting a document

The command reports what one document says: its query, its fields with their types, and the
accessor of each field.
-/

namespace DataSourceGen

/-- What `inspect` is asked to do. -/
structure InspectOptions where
  wrapperDepth : Nat := defaultWrapperDepth
  path : Text
  deriving DecidableEq

/-- A lookup shape in a report. -/
def LookupShape.report : LookupShape → Json
  | .single parameter =>
    .object [("kind", .string "single_entity"), ("required_param", .string parameter)]
  | .collection => .object [("kind", .string "collection")]

/-- An accessor in a report. -/
def AccessorPath.report (p : AccessorPath) : Json :=
  .object [("flat_name", .string p.flatName), ("query", .string p.expression)]

namespace Query

/-- A field of the data source in a report. -/
def fieldReport (f : Field) : Json :=
  .object [
    ("flat_name", .string f.flatName),
    ("graphql_type", .string f.scalar.name),
    ("terraform_type", .string f.scalar.valueType)]

/-- A field of the query in a report. -/
def selectionReport (f : Field) : Json :=
  .object [("flat_name", .string f.flatName), ("scalar", .string f.scalar.name)]

/-- What a report says of the query itself. -/
def queryReport (q : Query) : Json :=
  .object [
    ("exceptions", .array (q.compounds.toList.map .string)),
    ("fields", .array (q.fields.map selectionReport)),
    ("operation_name", .string q.operationName),
    ("root_object_name", .string q.rootName),
    ("shape", q.shape.report)]

/-- The report on a query. -/
def report (q : Query) : Json :=
  .object [
    ("accessor_paths", .array (q.accessors.map AccessorPath.report)),
    ("fields", .array (q.fields.map fieldReport)),
    ("query", q.queryReport),
    ("struct_name", .string q.structName)]

end Query

/-- Runs the command. -/
def InspectOptions.run (o : InspectOptions) (tree : FileTree) : Completed :=
  match tree.readDocument o.path with
  | .error reason => { outcome := .failure (failureSign ++ reason.message), tree, events := [] }
  | .ok document =>
    let events := Query.parseLog o.wrapperDepth document
    match Query.parse o.wrapperDepth document with
    | .error reason =>
      { outcome := .failure (failureSign ++ Text.quoted o.path ++ ": " ++ reason.message)
        tree
        events }
    | .ok q => { outcome := .success q.report.pretty, tree, events := events ++ q.accessorLog }

end DataSourceGen
