import DataSourceGen.Command.Program

/-!
# Files on disk

The outer layer between file trees and the file system: a tree is loaded with all that a command
line can reach, and the changes that a run made to it are saved. Nothing here decides what a
command does.
-/

namespace DataSourceGen.Disk

/-- The absolute path of a location. -/
def pathText (l : Location) : String :=
  String.ofList (FileTree.pathOf l)

/-- The location of an absolute path. -/
def locationOf (path : String) : Location :=
  Path.parts path.toList

/-- A name in a directory. -/
def entryAt (directory : Location) (name : Text) : IO.FS.DirEntry :=
  { root := pathText directory, fileName := String.ofList name }

/-- Puts a directory and all around it into a tree. -/
def putDirectories (t : FileTree) (l : Location) : FileTree :=
  (List.range (l.length + 1)).foldl (fun t k =>
    if (t.entry? (l.take k)).isSome then t else t.put (l.take k) .directory) t

/-- The target that a link to nowhere is given. -/
def missingTarget : Text := "(missing)"

/-- Loads the entry of a name in a directory. The location that it leads to comes with the tree, if
there is one. -/
def loadEntry (t : FileTree) (directory : Location) (name : Text) :
    IO (FileTree × Option Location) := do
  let l := directory ++ [name]
  let path := (entryAt directory name).path
  let kind ← try pure (some (← path.symlinkMetadata).type) catch _ => pure none
  match kind with
  | none => return (t, none)
  | some .dir => return (t.put l .directory, some l)
  | some .other => return (t.put l .special, some l)
  | some .file =>
    let content ← try pure (some (← IO.FS.readBinFile path)) catch _ => pure none
    return (t.put l ((content.map fun bytes => .file bytes.toList).getD .unreadable), some l)
  | some .symlink =>
    let target ← try pure (some (← IO.FS.realPath path).toString) catch _ => pure none
    match target with
    | none => return (t.put l (.link missingTarget), none)
    | some target => return (t.put l (.link target.toList), some (locationOf target))

/-- Loads what lies along some names, and gives the location that they lead to. -/
partial def loadAlong (t : FileTree) (here : Location) : List Text → IO (FileTree × Option Location)
  | [] => return (t, some here)
  | name :: rest => do
    if name.isEmpty || name = ['.'] then loadAlong t here rest
    else if name = ['.', '.'] then loadAlong t here.dropLast rest
    else
      let (t, reached) ← loadEntry (putDirectories t here) here name
      match reached with
      | none => return (t, none)
      | some l =>
        if l = here ++ [name] then loadAlong t l rest
        else loadAlong t [] (l ++ rest)

/-- Loads the entries of a directory, and gives the locations that they lead to. -/
def loadEntries (t : FileTree) (directory : Location) : IO (FileTree × List Location) := do
  let entries ← try (entryAt directory []).path.readDir catch _ => pure #[]
  entries.toList.foldlM (fun (t, places) e => do
    let (t, place) ← loadAlong t directory [e.fileName.toList]
    return (t, places ++ place.toList)) (t, [])

/-- Loads all that some directories hold, and what the links in them lead to. -/
partial def loadBelow (t : FileTree) (loaded : List Location) : List Location → IO FileTree
  | [] => return t
  | l :: waiting => do
    if loaded.contains l || !t.isDirectoryAt l then loadBelow t loaded waiting
    else
      let (t, places) ← loadEntries t l
      loadBelow t (l :: loaded) (places ++ waiting)

/-- Loads what a path leads to, and gives its location. -/
def loadPath (t : FileTree) (path : Text) : IO (FileTree × List Location) := do
  let here := if Path.isAbsolute path then [] else t.current
  let (t, reached) ← loadAlong t here (Path.parts path)
  return (t, reached.toList)

/-- Loads the directory in which files will be written, with its entries. -/
def loadTarget (t : FileTree) (path : Text) : IO FileTree := do
  let (t, places) ← loadPath t path
  return (← (places.filter t.isDirectoryAt).foldlM (fun t l => Prod.fst <$> loadEntries t l) t)

/-- Loads what a path leads to and all below it. -/
def loadTree (t : FileTree) (path : Text) : IO FileTree := do
  let (t, places) ← loadPath t path
  loadBelow t [] places

/-- The tree that a request depends on. -/
def load (request : Request) : IO FileTree := do
  let current := locationOf (← IO.currentDir).toString
  let t := putDirectories { current } current
  match request with
  | .nothing => return t
  | .inspect o => Prod.fst <$> loadPath t o.path
  | .generate o => o.paths.foldlM loadTree (← loadTarget t o.outputDirectory)

/-- Makes the directories and writes the files that a run has changed. -/
def save (earlier later : FileTree) : IO Unit := do
  for path in later.newDirectoriesSince earlier [] do
    IO.FS.createDirAll (String.ofList ('/' :: path))
  for (path, content) in later.changedFilesSince earlier [] do
    IO.FS.writeBinFile (String.ofList ('/' :: path)) ⟨content.toArray⟩

end DataSourceGen.Disk
