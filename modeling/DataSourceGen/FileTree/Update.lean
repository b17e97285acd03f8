import DataSourceGen.FileTree.Basic

/-!
# Changing a file tree

Making directories and writing files, with the outcomes that a file system gives them, and what
is different between two trees. A single step does all or nothing; an attempt of several steps may
fail after some of them, and what those have made stays.
-/

namespace DataSourceGen

namespace FileTree

/-- Makes a directory at a free place. -/
def makeDirectory (t : FileTree) (path : Text) : Except OsError FileTree :=
  match t.resolve .directory path with
  | .ok (.free l) => .ok (t.put l .directory)
  | .ok (.present _) => .error .alreadyExists
  | .error reason => .error reason

/-- Makes a directory unless there is one. -/
def ensureDirectory (t : FileTree) (path : Text) : Except OsError FileTree :=
  match t.makeDirectory path with
  | .ok after => .ok after
  | .error reason => if t.isDirectory path then .ok t else .error reason

/-- What is left of an attempt: the tree after it, in which a part may be done, and why the rest
could not be. -/
structure Attempt where
  tree : FileTree
  failure? : Option OsError := none
  deriving DecidableEq

/-- The attempt that a single step with a result is. -/
def attempt (t : FileTree) (result : Except OsError FileTree) : Attempt :=
  match result with
  | .ok after => { tree := after }
  | .error reason => { tree := t, failure? := some reason }

/-- Makes a directory in the directories around it, which are made first if they are missing. What
is made stays, also if the directory itself cannot be made then. -/
def ensureWithin (t : FileTree) (path : Text) : List Text → Attempt
  | [] => t.attempt (t.ensureDirectory path)
  | outer :: around =>
    match t.ensureDirectory path with
    | .error .notFound =>
      let made := t.ensureWithin outer around
      if made.failure?.isSome then made
      else made.tree.attempt (made.tree.ensureDirectory path)
    | result => t.attempt result

/-- Makes a directory and all that are missing around it, unless there is one. -/
def ensureDirectories (t : FileTree) (path : Text) : Attempt :=
  if path.isEmpty then { tree := t } else t.ensureWithin path (Path.parents path)

/-- Writes a file, which is made if there is none; a link is followed. -/
def writeFile (t : FileTree) (path : Text) (content : List UInt8) : Except OsError FileTree :=
  match t.resolve .file path with
  | .error reason => .error reason
  | .ok (.free l) => .ok (t.put l (.file content))
  | .ok (.present l) =>
    match t.entry? l with
    | some .directory => .error .isADirectory
    | some (.file _) | none => .ok (t.put l (.file content))
    | some (.link _) | some .unreadable | some .special => .ok t

/-- Makes a symbolic link at a free place. -/
def makeLink (t : FileTree) (path target : Text) : Except OsError FileTree :=
  match t.resolve .itself path with
  | .ok (.free l) => .ok (t.put l (.link target))
  | .ok (.present _) => .error .alreadyExists
  | .error reason => .error reason

/-! ## Differences -/

/-- The location of an entry below a directory, as a relative path. -/
def relative? (base l : Location) : Option Text :=
  if base.isPrefixOf l then some (Path.ofParts false (l.drop base.length)) else none

/-- The directories below `base` that are not in an earlier tree, as relative paths in order. -/
def newDirectoriesSince (later earlier : FileTree) (base : Location) : List Text :=
  sortNames (later.entries.filterMap fun e =>
    if e.2 = .directory ∧ earlier.entry? e.1 ≠ some .directory then relative? base e.1 else none)

/-- The regular files below `base` that are not the same in an earlier tree, as relative paths in
order, with their bytes. -/
def changedFilesSince (later earlier : FileTree) (base : Location) :
    List (Text × List UInt8) :=
  let changed := later.entries.filterMap fun e =>
    match e.2 with
    | .file content =>
      if earlier.entry? e.1 = some e.2 then none
      else (relative? base e.1).map fun path => (path, content)
    | _ => none
  (sortNames (changed.map (·.1))).filterMap fun path =>
    (changed.lookup path).map fun content => (path, content)

end FileTree

end DataSourceGen
