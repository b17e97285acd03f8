import DataSourceGen.Text.Basic

/-!
# Names

The names of a query document: a letter or an underscore, then letters, digits and underscores,
all of ASCII. The underscore has a second use: it joins the names of nested selections to one
flat name.
-/

namespace DataSourceGen

/-- The character that joins nesting levels in a flat name. -/
def separator : Char := '_'

/-- The characters that begin a name. -/
def isNameStart (c : Char) : Bool :=
  c.isAlpha || c == '_'

/-- The characters of a name. -/
def isNameChar (c : Char) : Bool :=
  c.isAlphanum || c == '_'

/-- Whether a text is a name. -/
def isName : Text → Bool
  | [] => false
  | c :: r => isNameStart c && r.all isNameChar

/-- Names joined to a flat name. -/
def flatten (names : List Text) : Text :=
  Text.joinWith [separator] names

end DataSourceGen
