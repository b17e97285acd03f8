import DataSourceGen.Text.Basic

/-!
# Lines

A text is cut after every line feed. The pieces together are the text (`flatten_pieces`); a line
is a piece without its line end, which is a line feed and one carriage return before it. A
carriage return elsewhere belongs to its line.
-/

namespace DataSourceGen.Text

/-- The pieces of a text, each ended by its line feed; the last one may have none. -/
def pieces : Text → List Text
  | [] => []
  | c :: r =>
    if c = '\n' then [c] :: pieces r
    else match pieces r with
      | [] => [[c]]
      | p :: ps => (c :: p) :: ps

/-- A piece without its line end. -/
def dropLineEnd (piece : Text) : Text :=
  match piece.reverse with
  | '\n' :: '\r' :: r => r.reverse
  | '\n' :: r => r.reverse
  | _ => piece

/-- The lines of a text, without their line ends. -/
def lines (t : Text) : List Text :=
  (pieces t).map dropLineEnd

/-- The pieces of a text, put together again, are the text. -/
theorem flatten_pieces (t : Text) : (pieces t).flatten = t := by
  induction t with
  | nil => rfl
  | cons c r ih =>
    by_cases h : c = '\n'
    · simp [pieces, h, ih]
    · cases hp : pieces r with
      | nil => simp_all [pieces]
      | cons p ps => simp_all [pieces]

end DataSourceGen.Text
