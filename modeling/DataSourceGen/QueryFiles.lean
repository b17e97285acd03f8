import DataSourceGen.FileTree.Walk
import DataSourceGen.Log
import DataSourceGen.NameSet

/-!
# Finding documents

The documents under some paths are the regular files, found by walking each path in turn, whose
extension is one of those asked for. A single path that is itself a file is a document whatever
its extension.
-/

namespace DataSourceGen

/-- The documents found under some paths. -/
structure QueryFiles where
  /-- The canonical paths of the documents, in the order of the walk. -/
  paths : List Text := []
  /-- How many files were passed over. -/
  skipped : Nat := 0
  errors : List WalkError := []
  deriving DecidableEq

/-- The extensions asked for, without dots in front, each once. -/
def extensionSet (extensions : List Text) : NameSet :=
  .ofList (extensions.map (Text.dropStart '.'))

namespace QueryFiles

/-- Adds what a walk meets. -/
def visit (t : FileTree) (extensions : NameSet) (found : QueryFiles) : Visit → QueryFiles
  | .error reason => { found with errors := found.errors ++ [reason] }
  | .entry path e =>
    if !e.isFile then found
    else match Path.extension? path with
      | none => { found with skipped := found.skipped + 1 }
      | some extension =>
        if extensions.contains extension then
          { found with paths := found.paths ++ [t.canonical path] }
        else { found with skipped := found.skipped + 1 }

/-- The documents that walking some paths meets. -/
def walked (t : FileTree) (extensions : NameSet) (paths : List Text) : QueryFiles :=
  (paths.flatMap t.walk).foldl (visit t extensions) {}

/-- The single path that is a document whatever its extension, if nothing else was found. -/
def onlyFile? (t : FileTree) (paths : List Text) (found : QueryFiles) : Option Text :=
  match found.paths, paths with
  | [], [path] => if t.isFile path then some path else none
  | _, _ => none

/-- The documents under some paths. -/
def find (t : FileTree) (paths extensions : List Text) : QueryFiles :=
  let found := walked t (extensionSet extensions) paths
  match onlyFile? t paths found with
  | some path => { found with paths := [t.canonical path], skipped := found.skipped - 1 }
  | none => found

/-! ## Reporting -/

/-- What is reported of a visit on the walk of a path. -/
def visitEvent (root : Text) : Visit → Event
  | .error _ => .walkFailed root
  | .entry path e => if e.isFile then .foundFile path else .skippedEntry path

/-- What is reported while documents are looked for. -/
def findLog (t : FileTree) (paths extensions : List Text) : List Event :=
  let found := walked t (extensionSet extensions) paths
  .scanning paths.length ::
    (paths.flatMap fun root => (t.walk root).map (visitEvent root)) ++
    (match onlyFile? t paths found with
      | some path => [.acceptedAnyway (t.canonical path) (extensionSet extensions).toList]
      | none => []) ++
    [.foundDocuments (find t paths extensions).paths.length]

end QueryFiles

end DataSourceGen
