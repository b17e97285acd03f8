/-!
# Text

Text is a list of characters. A string literal stands for its characters wherever text is
expected, and the operations here are those that every reader and printer of this library
shares: cutting at a character, taking a fixed beginning or ending away, joining, counting bytes
and writing numbers.

`cutAt_eq_some_iff` characterises the cut: it is at the first occurrence, and nothing is lost.
`truncate_append` says that cutting the size of a beginning off a text leaves exactly that
beginning.
-/

namespace DataSourceGen

/-- A text is the list of its characters. -/
abbrev Text := List Char

/-- A string literal stands for its characters. -/
instance : Coe String Text := ⟨String.toList⟩

namespace Text

/-! ## Cutting -/

/-- The parts of a text before and after the first `mark`, if it has one. -/
def cutAt (mark : Char) : Text → Option (Text × Text)
  | [] => none
  | c :: r => if c = mark then some ([], r) else (cutAt mark r).map fun p => (c :: p.1, p.2)

/-- The part of a text before the first `mark`, or all of it if there is none. -/
def upTo (mark : Char) (t : Text) : Text :=
  t.takeWhile (· != mark)

/-- The text without the characters equal to `mark` at its end. -/
def dropEnd (mark : Char) (t : Text) : Text :=
  (t.reverse.dropWhile (· == mark)).reverse

/-- The text without the characters equal to `mark` at its start. -/
def dropStart (mark : Char) (t : Text) : Text :=
  t.dropWhile (· == mark)

/-- All pieces between the occurrences of `mark`; one more than there are occurrences. -/
def splitAt (mark : Char) : Text → List Text
  | [] => [[]]
  | c :: r =>
    if c = mark then [] :: splitAt mark r
    else match splitAt mark r with
      | [] => [[c]]
      | p :: ps => (c :: p) :: ps

/-- A cut loses only the mark, and the mark is not in the part before it. -/
theorem cutAt_eq_some_iff {mark : Char} {t a b : Text} :
    cutAt mark t = some (a, b) ↔ t = a ++ mark :: b ∧ mark ∉ a := by
  induction t generalizing a with
  | nil => simp [cutAt]
  | cons c r ih =>
    by_cases h : c = mark
    · subst h
      cases a <;> simp_all [cutAt, eq_comm]
    · cases a with
      | nil => simp [cutAt, h]
      | cons x a =>
        simp only [cutAt, h, if_false, Option.map_eq_some_iff, Prod.exists, Prod.mk.injEq,
          List.cons.injEq, List.cons_append, List.mem_cons]
        constructor
        · rintro ⟨u, v, huv, ⟨rfl, rfl⟩, rfl⟩
          obtain ⟨rfl, hn⟩ := ih.1 huv
          exact ⟨⟨rfl, rfl⟩, fun hm => hm.elim (fun e => h e.symm) hn⟩
        · rintro ⟨⟨rfl, rfl⟩, hn⟩
          exact ⟨a, b, ih.2 ⟨rfl, fun hm => hn (.inr hm)⟩, ⟨rfl, rfl⟩, rfl⟩

/-- A text has no cut exactly when the mark does not occur in it. -/
theorem cutAt_eq_none_iff {mark : Char} {t : Text} : cutAt mark t = none ↔ mark ∉ t := by
  induction t with
  | nil => simp [cutAt]
  | cons c r ih =>
    by_cases h : c = mark
    · simp [cutAt, h]
    · simp [cutAt, h, ih, Ne.symm h]

/-! ## Joining -/

/-- The texts one after another, with `mark` between neighbours. -/
def joinWith (mark : Text) : List Text → Text
  | [] => []
  | [t] => t
  | t :: u :: r => t ++ mark ++ joinWith mark (u :: r)

/-! ## Size in bytes -/

/-- The number of bytes of a text in UTF-8. -/
def byteSize : Text → Nat
  | [] => 0
  | c :: r => c.utf8Size + byteSize r

/-- The longest beginning of a text that takes at most `size` bytes. -/
def truncate : Nat → Text → Text
  | _, [] => []
  | size, c :: r => if c.utf8Size ≤ size then c :: truncate (size - c.utf8Size) r else []

@[simp] theorem byteSize_nil : byteSize [] = 0 := rfl

@[simp] theorem byteSize_cons (c : Char) (t : Text) :
    byteSize (c :: t) = c.utf8Size + byteSize t := rfl

@[simp] theorem byteSize_append (t u : Text) : byteSize (t ++ u) = byteSize t + byteSize u := by
  induction t with
  | nil => simp
  | cons c r ih => simp [ih, Nat.add_assoc]

theorem truncate_zero (t : Text) : truncate 0 t = [] := by
  cases t with
  | nil => rfl
  | cons c r =>
    have := c.utf8Size_pos
    simp [truncate, Nat.not_le.2 this]

/-- Cutting a text down to the size of a beginning leaves that beginning. -/
theorem truncate_append (t u : Text) : truncate (byteSize t) (t ++ u) = t := by
  induction t with
  | nil => exact truncate_zero u
  | cons c r ih => simp [truncate, ih]

/-! ## Numbers -/

/-- A number in decimal digits. -/
def ofNat (n : Nat) : Text :=
  Nat.toDigits 10 n

end Text

end DataSourceGen
