import DataSourceGen.FileTree.Basic
import DataSourceGen.Text.Quoted

/-!
# Reading a document from a file

A document is the text that the bytes of a regular file encode, unchanged.
-/

namespace DataSourceGen

/-- Why a path has no document. -/
inductive ReadError where
  /-- The path leads to no regular file. -/
  | notAFile (path : Text)
  | unreadable (path : Text) (reason : OsError)
  /-- The bytes are no text. -/
  | undecodable (path : Text) (reason : Text.DecodeError)
  deriving DecidableEq

/-- The wording of the reason. -/
def ReadError.message : ReadError → Text
  | .notAFile path => Text.quoted path ++ " is not a file"
  | .unreadable path reason => "failed to read " ++ Text.quoted path ++ ": " ++ reason.message
  | .undecodable path reason => Text.quoted path ++ " is not valid UTF-8: " ++ reason.message

/-- The document in the file at a path. -/
def FileTree.readDocument (t : FileTree) (path : Text) : Except ReadError Text :=
  match t.stat path with
  | .ok (_, .file content) =>
    match Text.decode content with
    | .ok document => .ok document
    | .error reason => .error (.undecodable path reason)
  | .ok (_, .unreadable) => .error (.unreadable path .inputOutput)
  | .ok (_, .directory) | .ok (_, .link _) | .ok (_, .special) | .error _ =>
    .error (.notAFile path)

end DataSourceGen
