import DataSourceGen.FileTree.Basic

/-!
# Walking a file tree

A walk visits a path and, if it is a directory, everything below it: depth first, the names of a
directory in ascending order, and a directory before what it holds. Links are followed. A link to
a directory that the walk is inside of would never end and is an error instead, as is a link that
leads nowhere.

What a name in a directory stands for is known from the directory. The path to it is used only to
follow a link and to open a directory, so a file whose path is too long is visited all the same.
-/

namespace DataSourceGen

/-- Why a walk cannot visit a path. -/
inductive WalkError where
  | failed (path : Text) (reason : OsError)
  /-- A link leads back to a directory that the walk is inside of. -/
  | loops (path ancestor : Text)
  deriving DecidableEq

/-- The wording of the reason. -/
def WalkError.message : WalkError → Text
  | .failed path reason => "IO error for operation on " ++ path ++ ": " ++ reason.message
  | .loops path ancestor =>
    "File system loop found: " ++ path ++ " points to an ancestor " ++ ancestor

/-- What a walk meets: an entry under the path that led to it, or a path that it cannot visit. -/
inductive Visit where
  | entry (path : Text) (e : Entry)
  | error (reason : WalkError)
  deriving DecidableEq

/-- A directory that a walk is inside of. -/
structure Ancestor where
  path : Text
  location : Location

namespace FileTree

/-- What to visit at a path where an entry is known: a link stands for what it leads to. The flag
says whether there was a link. -/
def follow (t : FileTree) (path : Text) (l : Location) :
    Entry → Except OsError (Bool × Location × Entry)
  | .link _ => (t.stat path).map fun r => (true, r)
  | e => .ok (false, l, e)

/-- The entries of a directory that is opened by its path, in ascending order of their names. -/
def list (t : FileTree) (path : Text) (l : Location) : Except OsError (List (Text × Entry)) :=
  match t.stat path with
  | .error reason => .error reason
  | .ok _ => .ok ((t.names l).filterMap fun name => (t.entry? (l ++ [name])).map (name, ·))

/-- The visits at and below a path where an entry is known, inside the directories `ancestors`
(innermost first), as deep as `depth` levels. -/
def walkFrom (t : FileTree) (ancestors : List Ancestor) (path : Text) (l : Location) (e : Entry) :
    Nat → List Visit
  | 0 => []
  | depth + 1 =>
    match t.follow path l e with
    | .error reason => [.error (.failed path reason)]
    | .ok (linked, l, .directory) =>
      match ancestors.find? fun a => linked && a.location == l with
      | some a => [.error (.loops path a.path)]
      | none =>
        .entry path .directory ::
          match t.list path l with
          | .error reason => [.error (.failed path reason)]
          | .ok inner =>
            inner.flatMap fun (name, e) =>
              t.walkFrom (⟨path, l⟩ :: ancestors) (Path.join path name) (l ++ [name]) e depth
    | .ok (_, _, e) => [.entry path e]

/-- More levels than a walk has. A directory is entered by name from the one around it or through
a link, and through a link only if the walk is not inside of it; so a walk is inside of it at most
once for itself and once for each directory around it. -/
def maxDepth (t : FileTree) : Nat :=
  (t.entries.length + 2) * (t.entries.length + 2)

/-- The visits at and below a path. -/
def walk (t : FileTree) (path : Text) : List Visit :=
  match t.lstat path with
  | .error reason => [.error (.failed path reason)]
  | .ok (l, e) => t.walkFrom [] path l e t.maxDepth

end FileTree

end DataSourceGen
