import DataSourceGen.FileTree.Basic
import DataSourceGen.Log

/-!
# Outcomes

What a command comes to: a text for the user, the file tree after it, and what was reported.
-/

namespace DataSourceGen

/-- What a command tells the user. -/
inductive Outcome where
  | success (output : Text)
  | failure (error : Text)
  deriving DecidableEq

/-- The exit code of an outcome. -/
def Outcome.exitCode : Outcome → Nat
  | .success _ => 0
  | .failure _ => 1

/-- A finished command. -/
structure Completed where
  outcome : Outcome
  /-- The file tree after the command. -/
  tree : FileTree
  events : List Event

/-- The sign in front of a success. -/
def successSign : Text := "✅ "

/-- The sign in front of a failure. -/
def failureSign : Text := "❌ "

/-- A list of texts, one to a line. -/
def bulleted (items : List Text) : Text :=
  Text.joinWith "\n" (items.map fun item => ("  * " : Text) ++ item)

end DataSourceGen
