import DataSourceGen.Command.Outcome
import DataSourceGen.FileTree.Content
import DataSourceGen.FileTree.Update
import DataSourceGen.Generation
import DataSourceGen.QueryFiles

/-!
# Generating data sources

The command finds the documents under its paths and makes one data source of each, in order. A
document that fails is reported and the others go on. The sources are written to files in the
output directory, or printed. Of several documents whose sources belong in the same file only the
first counts.

Documents are read when their turn comes, from the tree that the files written before have left.
-/

namespace DataSourceGen

/-- What `generate` is asked to do. -/
structure GenerateOptions where
  extensions : List Text := ["graphql", "gql"]
  outputDirectory : Text := "internal/provider"
  /-- Whether sources are printed instead of written. -/
  toStdout : Bool := false
  wrapperDepth : Nat := defaultWrapperDepth
  paths : List Text := ["gql"]
  deriving DecidableEq

/-- Why a document gives no output. -/
inductive DocumentError where
  | read (reason : ReadError)
  | generate (reason : GenerateError)
  /-- An earlier document has the same file name. -/
  | alreadyGenerated (fileName first : Text)
  | write (path : Text) (reason : OsError)
  deriving DecidableEq

/-- The wording of the reason. -/
def DocumentError.message : DocumentError → Text
  | .read reason => reason.message
  | .generate reason => reason.message
  | .alreadyGenerated fileName first =>
    "`" ++ fileName ++ "` was already generated from " ++ Text.quoted first
  | .write path reason => "failed to write " ++ Text.quoted path ++ ": " ++ reason.message

/-- What is done after some documents. -/
structure Batch where
  tree : FileTree
  /-- The file names that are taken, with the document that took each. -/
  taken : List (Text × Text) := []
  /-- What success prints: the sources, or the quoted paths of the files. -/
  outputs : List Text := []
  failures : List (Text × DocumentError) := []
  events : List Event := []

namespace Batch

/-- Adds to the log. -/
def report (b : Batch) (events : List Event) : Batch :=
  { b with events := b.events ++ events }

/-- Gives a document up. -/
def fail (b : Batch) (path : Text) (reason : DocumentError) : Batch :=
  { b with
    failures := b.failures ++ [(path, reason)]
    events := b.events ++ [.skippedDocument path reason.message] }

/-- Where the source of an operation is written. -/
def outputPath (o : GenerateOptions) (g : Generated) : Text :=
  Path.join o.outputDirectory g.fileName

/-- Prints or writes a source. -/
def deliver (o : GenerateOptions) (b : Batch) (path : Text) (g : Generated) : Batch :=
  if o.toStdout then { b with outputs := b.outputs ++ [g.source] }
  else
    let target := outputPath o g
    match b.tree.writeFile target (Text.encode g.source) with
    | .error reason => b.fail path (.write target reason)
    | .ok tree =>
      { b with tree, outputs := b.outputs ++ [Text.quoted target] }.report [.written target]

/-- Takes the file name of a source for a document, unless it is taken, and delivers it. -/
def accept (o : GenerateOptions) (b : Batch) (path : Text) (g : Generated) : Batch :=
  match b.taken.lookup g.fileName with
  | some first => b.fail path (.alreadyGenerated g.fileName first)
  | none => { b with taken := b.taken ++ [(g.fileName, path)] }.deliver o path g

/-- Does the document at a path. -/
def add (o : GenerateOptions) (b : Batch) (path : Text) : Batch :=
  match b.tree.readDocument path with
  | .error reason => b.fail path (.read reason)
  | .ok document =>
    let read := b.report (generateLog o.wrapperDepth document)
    match generate o.wrapperDepth document with
    | .error reason => read.fail path (.generate reason)
    | .ok g => (read.report [.generated g.fileName path]).accept o path g

/-- Does the documents at some paths in order. -/
def run (o : GenerateOptions) (tree : FileTree) (paths : List Text) : Batch :=
  paths.foldl (add o) { tree }

end Batch

namespace GenerateOptions

/-- The wording of a failed document. -/
def failureText (failure : Text × DocumentError) : Text :=
  Text.quoted failure.1 ++ ": " ++ failure.2.message

/-- What the command tells the user after doing the documents it found. -/
def summary (o : GenerateOptions) (found : QueryFiles) (b : Batch) : Outcome :=
  let failures := found.errors.map WalkError.message ++ b.failures.map failureText
  if !failures.isEmpty then
    .failure (failureSign ++ Text.ofNat failures.length ++ " of " ++
      Text.ofNat (found.paths.length + found.errors.length) ++
      " query documents could not be generated:\n" ++ bulleted failures)
  else if o.toStdout then .success (Text.joinWith "\n" b.outputs)
  else
    .success (successSign ++ "All data sources generated successfully:\n" ++ bulleted [
      "Generated " ++ Text.ofNat b.outputs.length ++ " files in " ++
        Text.quoted o.outputDirectory ++ ".",
      "Skipped " ++ Text.ofNat found.skipped ++ " files with other extensions."])

/-- The attempt to give the outputs a directory. -/
def prepare (o : GenerateOptions) (tree : FileTree) (found : QueryFiles) : FileTree.Attempt :=
  if o.toStdout || found.paths.isEmpty then { tree }
  else tree.ensureDirectories o.outputDirectory

/-- Runs the command. -/
def run (o : GenerateOptions) (tree : FileTree) : Completed :=
  let found := QueryFiles.find tree o.paths o.extensions
  let search := QueryFiles.findLog tree o.paths o.extensions
  let prepared := o.prepare tree found
  match prepared.failure? with
  | some reason =>
    { outcome := .failure (failureSign ++ "Unable to create output directory " ++
        Text.quoted o.outputDirectory ++ ": " ++ reason.message)
      tree := prepared.tree
      events := search }
  | none =>
    let batch := Batch.run o prepared.tree found.paths
    { outcome := o.summary found batch
      tree := batch.tree
      events := search ++ batch.events }

end GenerateOptions

end DataSourceGen
