import DataSourceGen.DataSource.GoSource
import DataSourceGen.Query.Reading

/-!
# Generation

From a document to the source of its data source: the document is read, each field is given its
accessor, and the source is emitted. What is reported on the way is a log of its own.
-/

namespace DataSourceGen

/-- The source of a data source and the file that it belongs in. -/
structure Generated where
  operationName : Text
  source : Text
  deriving DecidableEq

/-- The name of the file for an operation. -/
def fileNameFor (operationName : Text) : Text :=
  operationName ++ "_data_source.go"

/-- The name of the file of a source. -/
def Generated.fileName (g : Generated) : Text :=
  fileNameFor g.operationName

/-- Why a document gives no source. -/
inductive GenerateError where
  | parse (reason : ParseError)
  | emit (reason : EmitError)
  deriving DecidableEq

/-- The wording of the reason. -/
def GenerateError.message : GenerateError → Text
  | .parse reason => reason.message
  | .emit reason => reason.message

/-- The source for a query, each field at its own accessor. -/
def Query.generate (q : Query) : Except GenerateError Generated :=
  match emit q q.accessors with
  | .ok source => .ok { operationName := q.operationName, source }
  | .error reason => .error (.emit reason)

/-- The source for a document. -/
def generate (depth : Nat) (document : Text) : Except GenerateError Generated :=
  match Query.parse depth document with
  | .ok q => q.generate
  | .error reason => .error (.parse reason)

/-! ## Reporting -/

/-- What is reported while the accessors of a query are found. -/
def Query.accessorLog (q : Query) : List Event :=
  q.fields.map fun f => .segmented f.flatName (q.segmentsOf f.flatName)

/-- What is reported while the source for a query is emitted. -/
def Query.emitLog (q : Query) (paths : List AccessorPath) : List Event :=
  match DataSource.bind q paths with
  | .ok d => [.rendering d.structName d.attributes.length]
  | .error _ => []

/-- What is reported while the source for a document is generated. -/
def generateLog (depth : Nat) (document : Text) : List Event :=
  Query.parseLog depth document ++
    match Query.parse depth document with
    | .ok q => q.accessorLog ++ q.emitLog q.accessors
    | .error _ => []

end DataSourceGen
