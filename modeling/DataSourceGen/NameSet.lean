import DataSourceGen.Text.Basic

/-!
# Sets of names

A set of names in the order in which they were first inserted. It only grows. The list of its
members is its view: `toList_insert` and `mem_ofList` describe every way to build one.
-/

namespace DataSourceGen

/-- A duplicate-free list of names, in order of first insertion. -/
structure NameSet where
  /-- The members, first inserted first. -/
  toList : List Text
  nodup : toList.Nodup
  deriving DecidableEq

/-- Whether `word` is an incomplete piece of `name`: its beginning, and shorter. -/
def isProperBeginning (word name : Text) : Bool :=
  word.isPrefixOf name && word.length < name.length

namespace NameSet

/-- The set without members. -/
def empty : NameSet := ⟨[], .nil⟩

instance : EmptyCollection NameSet := ⟨empty⟩

instance : Inhabited NameSet := ⟨empty⟩

/-- Whether a name is a member. -/
def contains (s : NameSet) (name : Text) : Bool :=
  s.toList.contains name

/-- The set with a name, which comes last if it is new. -/
def insert (s : NameSet) (name : Text) : NameSet :=
  if h : name ∈ s.toList then s
  else ⟨s.toList ++ [name], by
    rw [List.nodup_append]
    exact ⟨s.nodup, by simp, fun a ha b hb e => h (by simp_all)⟩⟩

/-- The set with a name, and whether the name is new. -/
def insertNew (s : NameSet) (name : Text) : NameSet × Bool :=
  (s.insert name, !s.contains name)

/-- The set of the names of a list. -/
def ofList (names : List Text) : NameSet :=
  names.foldl insert empty

/-- The number of members. -/
def size (s : NameSet) : Nat :=
  s.toList.length

/-- Whether the set has no member. -/
def isEmpty (s : NameSet) : Bool :=
  s.toList.isEmpty

/-- Whether some member properly begins with `word`. -/
def hasExtension (s : NameSet) (word : Text) : Bool :=
  s.toList.any (isProperBeginning word)

theorem toList_insert (s : NameSet) (name : Text) :
    (s.insert name).toList = if name ∈ s.toList then s.toList else s.toList ++ [name] := by
  unfold insert
  split <;> rfl

@[simp] theorem mem_insert {s : NameSet} {name other : Text} :
    other ∈ (s.insert name).toList ↔ other ∈ s.toList ∨ other = name := by
  rw [toList_insert]
  split
  · exact ⟨.inl, fun h => h.elim id fun e => e ▸ ‹name ∈ s.toList›⟩
  · simp

@[simp] theorem contains_iff {s : NameSet} {name : Text} :
    s.contains name = true ↔ name ∈ s.toList := by
  simp [contains]

theorem mem_foldl_insert {names : List Text} {s : NameSet} {name : Text} :
    name ∈ (names.foldl insert s).toList ↔ name ∈ s.toList ∨ name ∈ names := by
  induction names generalizing s with
  | nil => simp
  | cons n r ih => simp [ih, or_assoc]

@[simp] theorem mem_ofList {names : List Text} {name : Text} :
    name ∈ (ofList names).toList ↔ name ∈ names := by
  simp [ofList, mem_foldl_insert, empty]

end NameSet

/-- A proper beginning of a name leaves a rest that is not empty. -/
theorem isProperBeginning_iff {word name : Text} :
    isProperBeginning word name = true ↔ ∃ rest, rest ≠ [] ∧ name = word ++ rest := by
  simp only [isProperBeginning, Bool.and_eq_true, List.isPrefixOf_iff_prefix, decide_eq_true_eq]
  constructor
  · rintro ⟨⟨rest, rfl⟩, h⟩
    exact ⟨rest, by rintro rfl; simp at h, rfl⟩
  · rintro ⟨rest, h, rfl⟩
    exact ⟨List.prefix_append .., by simpa using List.length_pos_iff.2 h⟩

end DataSourceGen
