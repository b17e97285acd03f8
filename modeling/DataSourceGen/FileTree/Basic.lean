import DataSourceGen.FileTree.Path
import DataSourceGen.Text.Utf8

/-!
# File trees

A file tree is the part of a file system that a program sees: the entries by their location, and
the current directory. Locations are the names from the root; a path is resolved to a location
name by name, and symbolic links are replaced by their targets on the way.

Every operation is a function from the tree, and an operation that changes files gives the tree
after it.
-/

namespace DataSourceGen

/-- The names from the root to an entry. -/
abbrev Location := List Text

/-- What there is at a location. -/
inductive Entry where
  | directory
  /-- A regular file and its bytes. -/
  | file (content : List UInt8)
  /-- A symbolic link to another path. -/
  | link (target : Text)
  /-- A regular file whose bytes cannot be read. -/
  | unreadable
  /-- Neither a regular file nor a directory. -/
  | special
  deriving DecidableEq, Repr

/-- Whether an entry is a regular file. -/
def Entry.isFile : Entry → Bool
  | .file _ | .unreadable => true
  | .directory | .link _ | .special => false

/-- Why an operation on files fails. -/
inductive OsError where
  | notFound
  | inputOutput
  | alreadyExists
  | notADirectory
  | isADirectory
  | nameTooLong
  | tooManyLinks
  | nulInPath
  deriving DecidableEq, Repr

/-- The wording of the reason, with its number where the system has one. -/
def OsError.message : OsError → Text
  | .notFound => "No such file or directory (os error 2)"
  | .inputOutput => "Input/output error (os error 5)"
  | .alreadyExists => "File exists (os error 17)"
  | .notADirectory => "Not a directory (os error 20)"
  | .isADirectory => "Is a directory (os error 21)"
  | .nameTooLong => "File name too long (os error 36)"
  | .tooManyLinks => "Too many levels of symbolic links (os error 40)"
  | .nulInPath => "file name contained an unexpected NUL byte"

/-- The entries of a file system and the directory in which relative paths start. The root is a
directory that is not listed. -/
structure FileTree where
  entries : List (Location × Entry) := []
  current : Location := []
  deriving DecidableEq

namespace FileTree

/-! ## Entries -/

/-- What there is at a location. -/
def entry? (t : FileTree) (l : Location) : Option Entry :=
  if l.isEmpty then some .directory else t.entries.lookup l

/-- The tree with an entry put at a location. -/
def put (t : FileTree) (l : Location) (e : Entry) : FileTree :=
  { t with entries := t.entries.filter (·.1 != l) ++ [(l, e)] }

/-- Whether there is a directory at a location. -/
def isDirectoryAt (t : FileTree) (l : Location) : Bool :=
  t.entry? l == some .directory

/-- Puts a name before the first one that is not smaller. -/
def insertSorted (name : Text) : List Text → List Text
  | [] => [name]
  | n :: r => if n < name then n :: insertSorted name r else name :: n :: r

/-- Names in ascending order of their bytes, which is the order of their code points. -/
def sortNames : List Text → List Text
  | [] => []
  | n :: r => insertSorted n (sortNames r)

/-- The names in a directory, in ascending order. -/
def names (t : FileTree) (directory : Location) : List Text :=
  sortNames (t.entries.filterMap fun e =>
    match e.1.getLast? with
    | some name => if e.1.dropLast = directory then some name else none
    | none => none)

/-! ## Resolving paths -/

/-- The number of bytes that a name may have. -/
def maxNameSize : Nat := 255

/-- The number of bytes from which on a path is too long. -/
def maxPathSize : Nat := 4096

/-- How many links one path may lead through. -/
def maxLinks : Nat := 40

/-- What a path is resolved for. -/
inductive Purpose where
  /-- To see what there is; a link stands for itself. -/
  | itself
  /-- To see what there is, after all links. -/
  | target
  /-- To write a file, after all links. -/
  | file
  /-- To make a directory; a link is in its way. -/
  | directory
  deriving DecidableEq, Repr

/-- Whether a link is followed when it is the last name of a path. -/
def Purpose.followsLast : Purpose → Bool
  | .target | .file => true
  | .itself | .directory => false

/-- Whether a name is the last one when `rest` follows it. A directory may be made under a name
with a slash at its end. -/
def Purpose.endsAt (purpose : Purpose) (rest : List Text) : Bool :=
  rest.isEmpty || (purpose == .directory && rest == [[]])

/-- Whether the path of a file ends in a slash, so that it can name nothing but a directory. -/
def Purpose.isMisplaced (purpose : Purpose) (rest : List Text) : Bool :=
  purpose == .file && rest == [[]]

/-- How far some names lead. -/
inductive Progress where
  /-- To an entry; it is a link only if the last link stands for itself. -/
  | arrived (l : Location)
  /-- To a directory that has no entry of the last name; `l` is where it would be. -/
  | absent (l : Location)
  /-- To a link, with names still to follow. -/
  | link (l : Location) (target : Text) (rest : List Text)
  | failed (reason : OsError)

/-- Follows names from a location as far as the first link that has to be followed. -/
def advance (t : FileTree) (purpose : Purpose) (here : Location) : List Text → Progress
  | [] => .arrived here
  | name :: rest =>
    if !t.isDirectoryAt here then .failed .notADirectory
    else if name.isEmpty || name = ['.'] then t.advance purpose here rest
    else if name = ['.', '.'] then t.advance purpose here.dropLast rest
    else if purpose.isMisplaced rest then .failed .isADirectory
    else if maxNameSize < Text.byteSize name then .failed .nameTooLong
    else
      let l := here ++ [name]
      match t.entry? l with
      | none => if purpose.endsAt rest then .absent l else .failed .notFound
      | some (.link target) =>
        if purpose.endsAt rest && !purpose.followsLast then .arrived l else .link l target rest
      | some _ => if purpose.endsAt rest then .arrived l else t.advance purpose l rest

/-- Where a path leads: to an entry, or to a place in a directory that is still free. -/
inductive Place where
  | present (l : Location)
  | free (l : Location)
  deriving DecidableEq

/-- Follows names from a location through at most `links` links. -/
def resolveFrom (t : FileTree) (purpose : Purpose) (links : Nat) (here : Location)
    (parts : List Text) : Except OsError Place :=
  match t.advance purpose here parts with
  | .arrived l => .ok (.present l)
  | .absent l => .ok (.free l)
  | .failed reason => .error reason
  | .link l target rest =>
    match links with
    | 0 => .error .tooManyLinks
    | n + 1 =>
      t.resolveFrom purpose n (if Path.isAbsolute target then [] else l.dropLast)
        (Path.parts target ++ rest)

/-- Where a path leads, however long it is. -/
def locate (t : FileTree) (purpose : Purpose) (path : Text) : Except OsError Place :=
  if path.contains '\x00' then .error .nulInPath
  else if path.isEmpty then .error .notFound
  else
    t.resolveFrom purpose maxLinks (if Path.isAbsolute path then [] else t.current)
      (Path.parts path)

/-- Where a path leads, unless it is too long to be handed over as a whole. -/
def resolve (t : FileTree) (purpose : Purpose) (path : Text) : Except OsError Place :=
  if maxPathSize ≤ Text.byteSize path && !path.contains '\x00' then .error .nameTooLong
  else t.locate purpose path

/-- The location and the entry at a path. -/
def lookup (t : FileTree) (purpose : Purpose) (path : Text) : Except OsError (Location × Entry) :=
  match t.resolve purpose path with
  | .error reason => .error reason
  | .ok (.free _) => .error .notFound
  | .ok (.present l) =>
    match t.entry? l with
    | some e => .ok (l, e)
    | none => .error .notFound

/-- The location and the entry at a path, after all links. -/
def stat (t : FileTree) (path : Text) : Except OsError (Location × Entry) :=
  t.lookup .target path

/-- The location and the entry at a path; a link stands for itself. -/
def lstat (t : FileTree) (path : Text) : Except OsError (Location × Entry) :=
  t.lookup .itself path

/-- Whether a path leads to a regular file. -/
def isFile (t : FileTree) (path : Text) : Bool :=
  match t.stat path with
  | .ok (_, e) => e.isFile
  | .error _ => false

/-- Whether a path leads to a directory. -/
def isDirectory (t : FileTree) (path : Text) : Bool :=
  match t.stat path with
  | .ok (_, e) => e == .directory
  | .error _ => false

/-- The absolute path of a location. -/
def pathOf (l : Location) : Text :=
  Path.ofParts true l

/-- The tree without the entries whose absolute path is too long to be handed over. -/
def spellable (t : FileTree) : FileTree :=
  { t with entries := t.entries.filter fun x => decide (Text.byteSize (pathOf x.1) < maxPathSize) }

/-- The absolute path without links that leads where a path does; the path itself if it leads
nowhere. It is found name by name, and each entry on the way is asked for by its absolute path, so
that the path may have any length if none of these is too long. -/
def canonical (t : FileTree) (path : Text) : Text :=
  match t.spellable.locate .target path with
  | .ok (.present l) => pathOf l
  | .ok (.free _) | .error _ => path

end FileTree

end DataSourceGen
