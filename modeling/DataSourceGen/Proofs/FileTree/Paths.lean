import DataSourceGen.FileTree.Basic
import DataSourceGen.Proofs.Text.Splitting

/-!
# The names of a path

Slashes separate the names of a path, and more of them in a row, in front or at the end make no
further names. So a path below a directory has the names on the path of the directory and one more
(`parts_join`), and the absolute path of a location has the names of the location
(`parts_pathOf`). -/

namespace DataSourceGen

open Text

namespace Path

/-- The names of a path, whether or not it ends in a slash. -/
def names (path : Text) : List Text :=
  (splitAt '/' path).filter (!·.isEmpty)

/-- Whether a text is a single name on each path that has it between slashes. -/
structure IsPart (name : Text) : Prop where
  nonempty : name ≠ []
  noSlash : '/' ∉ name

variable {name : Text}

/-- A slash at the end of a path shows in its parts only. -/
theorem parts_cases (path : Text) : parts path = names path ∨ parts path = names path ++ [[]] := by
  unfold parts
  dsimp only
  split
  · exact .inr rfl
  · exact .inl rfl

theorem parts_eq_names {path : Text} (h : path.getLast? ≠ some '/') : parts path = names path := by
  have hlast : (path.getLast? == some '/') = false := by simpa using h
  unfold parts
  dsimp only
  rw [hlast, Bool.false_and]
  rfl

theorem names_append_cons (base path : Text) :
    names (base ++ '/' :: path) = names base ++ names path := by
  rw [names, splitAt_append_cons, List.filter_append]
  rfl

/-- A relative path has a name. -/
theorem names_ne_nil {path : Text} (hne : path ≠ []) (h : isAbsolute path = false) :
    names path ≠ [] := by
  rcases path with _ | ⟨c, path⟩
  · exact absurd rfl hne
  · have hc : c ≠ '/' := by simpa [isAbsolute] using h
    obtain ⟨piece, pieces, hpieces⟩ := exists_splitAt_eq_cons '/' path
    rw [names, splitAt, if_neg hc, hpieces]
    exact List.cons_ne_nil _ _

/-- The last name of a path, if it is not empty, is the last of its names. -/
theorem exists_names_eq_concat {path last : Text} (h : lastName path = last) (hne : last ≠ []) :
    ∃ around, names path = around ++ [last] := by
  obtain ⟨piece, pieces, hpieces⟩ := exists_splitAt_eq_cons '/' path
  rw [lastName, List.getLastD_eq_getLast?] at h
  rcases hlast : (splitAt '/' path).getLast? with _ | name
  · rw [hlast] at h
    exact absurd h.symm hne
  · rw [hlast] at h
    obtain rfl : name = last := h
    obtain ⟨around, haround⟩ := List.getLast?_eq_some_iff.mp hlast
    refine ⟨around.filter (!·.isEmpty), ?_⟩
    rw [names, haround, List.filter_append, List.filter_cons_of_pos (by simpa using hne)]
    rfl

/-- A single name does not start from the root. -/
theorem isAbsolute_eq_false (h : IsPart name) : isAbsolute name = false := by
  rcases name with _ | ⟨c, r⟩
  · rfl
  · have hc : c ≠ '/' := fun heq => h.noSlash (heq ▸ List.mem_cons_self)
    simpa [isAbsolute] using hc

theorem names_eq_singleton (h : IsPart name) : names name = [name] := by
  rw [names, splitAt_eq_singleton h.noSlash, List.filter_cons_of_pos (by simpa using h.nonempty)]
  rfl

/-- A slash more or less between two paths makes no name. -/
theorem names_join {base : Text} (h : IsPart name) :
    names (join base name) = names base ++ [name] := by
  unfold join
  rw [isAbsolute_eq_false h, Bool.false_or]
  split
  · next hempty =>
    rw [List.isEmpty_iff.mp hempty, names_eq_singleton h]
    rfl
  · split
    · next hslash =>
      obtain ⟨around, rfl⟩ := List.getLast?_eq_some_iff.mp (beq_iff_eq.mp hslash)
      have hends : names (around ++ ['/']) = names around := by
        rw [names_append_cons]
        exact List.append_nil _
      rw [hends, List.append_assoc, List.singleton_append, names_append_cons, names_eq_singleton h]
    · rw [names_append_cons, names_eq_singleton h]

/-- The last character below a directory is that of the name. -/
theorem getLast?_join {base : Text} (h : IsPart name) :
    (join base name).getLast? = name.getLast? := by
  have hlast := List.getLast?_eq_some_getLast h.nonempty
  unfold join
  split
  · rfl
  · split
    · rw [List.getLast?_append, hlast]
      rfl
    · rw [List.getLast?_append, List.getLast?_cons, hlast]
      rfl

/-- **A path below a directory** has the names of the directory and one more. -/
theorem parts_join {base : Text} (h : IsPart name) :
    parts (join base name) = names base ++ [name] := by
  rw [parts_eq_names, names_join h]
  rw [getLast?_join h]
  exact fun hslash => h.noSlash (List.mem_of_getLast? hslash)

/-- A path below a directory starts where that of the directory starts. -/
theorem isAbsolute_join {base : Text} (h : IsPart name) :
    isAbsolute (join base name) = isAbsolute base := by
  unfold join
  rw [isAbsolute_eq_false h, Bool.false_or]
  rcases base with _ | ⟨c, base⟩
  · exact isAbsolute_eq_false h
  · split
    · next hempty => cases hempty
    · split
      · rfl
      · rfl

/-- A path below a directory has only the characters of the two paths, and slashes. -/
theorem not_mem_join {base : Text} {c : Char} (hc : c ≠ '/') (hbase : c ∉ base) (hname : c ∉ name) :
    c ∉ join base name := by
  unfold join
  split
  · exact hname
  · split
    · simp [hbase, hname]
    · simp [hc, hbase, hname]

/-- No slash ends the text that joins names. -/
theorem getLast?_joinWith :
    (l : List Text) → (∀ name ∈ l, IsPart name) → (joinWith ['/'] l).getLast? ≠ some '/'
  | [], _ => fun h => nomatch h
  | [name], h => fun hslash => (h name List.mem_cons_self).noSlash (List.mem_of_getLast? hslash)
  | name :: next :: l, h => by
      obtain ⟨-, hrest⟩ := List.forall_mem_cons.mp h
      have ih := getLast?_joinWith (next :: l) hrest
      have hne : joinWith ['/'] (next :: l) ≠ [] := by
        have hnext := (hrest next List.mem_cons_self).nonempty
        rcases l with _ | ⟨last, l⟩
        · exact hnext
        · exact List.append_ne_nil_of_left_ne_nil (List.append_ne_nil_of_left_ne_nil hnext _) _
      rw [joinWith, List.getLast?_append, List.getLast?_eq_some_getLast hne, Option.some_or,
        ← List.getLast?_eq_some_getLast hne]
      exact ih

end Path

namespace FileTree

/-- The path of a location has the characters of its names, and slashes. -/
theorem not_mem_pathOf {l : Location} {c : Char} (hc : c ≠ '/') (h : ∀ name ∈ l, c ∉ name) :
    c ∉ pathOf l := by
  have hslash : c ∉ ['/'] := List.mem_singleton.not.mpr hc
  intro hmem
  rcases List.mem_append.mp hmem with hroot | hnames
  · exact hslash hroot
  · obtain ⟨name, hname, hmem⟩ := (mem_joinWith hslash l).mp hnames
    exact h name hname hmem

/-- The path of a location around is not longer. -/
theorem byteSize_pathOf_le {k l : Location} (h : k <+: l) :
    byteSize (pathOf k) ≤ byteSize (pathOf l) := by
  obtain ⟨below, rfl⟩ := h
  obtain ⟨after, hafter⟩ := exists_joinWith_append ['/'] below k
  rw [pathOf, pathOf, Path.ofParts, Path.ofParts, hafter, ← List.append_assoc,
    byteSize_append _ after]
  exact Nat.le_add_right _ _

/-- **The path of a location** has the names of the location. -/
theorem parts_pathOf {l : Location} (h : ∀ name ∈ l, Path.IsPart name) :
    Path.parts (pathOf l) = l := by
  rcases l with _ | ⟨name, l⟩
  · rfl
  · have hpath : pathOf (name :: l) = [] ++ '/' :: joinWith ['/'] (name :: l) := rfl
    have hnames : Path.names (joinWith ['/'] (name :: l)) = name :: l := by
      rw [Path.names, splitAt_joinWith_of_not_mem (List.cons_ne_nil name l) fun n hn => (h n hn).noSlash]
      exact List.filter_eq_self.mpr fun n hn => by simpa using (h n hn).nonempty
    rw [Path.parts_eq_names, hpath, Path.names_append_cons, hnames]
    · rfl
    · have hlast := Path.getLast?_joinWith (name :: l) h
      have hne : joinWith ['/'] (name :: l) ≠ [] := by
        intro hnil
        rw [hnil] at hnames
        cases hnames
      rw [hpath, List.getLast?_append, List.getLast?_cons]
      rw [List.getLast?_eq_some_getLast hne] at hlast ⊢
      exact hlast

end FileTree

end DataSourceGen
