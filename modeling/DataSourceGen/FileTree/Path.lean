import DataSourceGen.Text.Basic

/-!
# Paths

A path is a text; its slashes separate names. Nothing is normalised: messages show a path as it
was given. The functions here read a path without looking at any file.
-/

namespace DataSourceGen.Path

open Text

/-- Whether a path starts from the root. -/
def isAbsolute (path : Text) : Bool :=
  path.head? == some '/'

/-- The names of a path, in order. A slash at the end, unless there is nothing before it, leaves an
empty name, which leads from a directory to itself. -/
def parts (path : Text) : List Text :=
  let names := (splitAt '/' path).filter (!·.isEmpty)
  if path.getLast? == some '/' && !names.isEmpty then names ++ [[]] else names

/-- A path below another one; an absolute path stays as it is. -/
def join (base path : Text) : Text :=
  if isAbsolute path || base.isEmpty then path
  else if base.getLast? == some '/' then base ++ path
  else base ++ '/' :: path

/-- The last name of a path. -/
def lastName (path : Text) : Text :=
  (splitAt '/' path).getLastD []

/-- What follows the last dot of a name, if something precedes that dot. -/
def extensionOf? (name : Text) : Option Text :=
  match cutAt '.' name.reverse with
  | some (_, []) | none => none
  | some (extension, _) => if name == "..".toList then none else some extension.reverse

/-- What follows the last dot of the last name of a path, if something precedes that dot. -/
def extension? (path : Text) : Option Text :=
  extensionOf? (lastName path)

/-- The path of some names. -/
def ofParts (absolute : Bool) (names : List Text) : Text :=
  (if absolute then ['/'] else []) ++ joinWith ['/'] names

/-- The paths of the directories around a path, innermost first. The directory in which a relative
path starts is not among them. -/
def parents (path : Text) : List Text :=
  let names := (parts path).filter fun name => !name.isEmpty && name != ['.']
  let around := (List.range (names.length - 1)).reverse.map fun k =>
    ofParts (isAbsolute path) (names.take (k + 1))
  if isAbsolute path then around ++ [['/']] else around

end DataSourceGen.Path
