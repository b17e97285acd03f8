import DataSourceGen.NameSet

/-!
# The members of a set of names, and the words that they extend

Inserting names one after another adds those that are new, each where it occurs first. **Theorem**
(`toList_foldl_insert`): the members are the old ones and then the new names without their
repetitions.

A word is extended by a set if it is a proper prefix of some member (`hasExtension_iff`). So a set
with more members extends more words (`hasExtension_mono`), and one more member extends its own
beginnings only (`hasExtension_insert_of_not`).
-/

namespace DataSourceGen

/-- No name is left out when none is taken. -/
theorem filter_not_mem_nil (names : List Text) : names.filter (· ∉ ([] : List Text)) = names :=
  List.filter_eq_self.mpr fun n _ => by simp

/-- The first occurrence of a new name is kept, and the later ones are dropped. -/
theorem eraseDups_filter_cons {name : Text} {seen : List Text} (h : name ∉ seen)
    (names : List Text) :
    ((name :: names).filter (· ∉ seen)).eraseDups =
      name :: (names.filter (· ∉ seen ++ [name])).eraseDups := by
  have hfilter : names.filter (· ∉ seen ++ [name]) =
      (names.filter (· ∉ seen)).filter fun n => !n == name := by
    rw [List.filter_filter]
    apply List.filter_congr
    intro n _
    by_cases hn : n = name
    · simp [hn]
    · simp [hn]
  rw [hfilter, List.filter_cons_of_pos (by simpa using h), List.eraseDups_cons]

namespace NameSet

/-- **Insertion of a list**: the old members, and then the new names in order of first occurrence.
-/
theorem toList_foldl_insert :
    (names : List Text) → ∀ s : NameSet,
      (names.foldl insert s).toList = s.toList ++ (names.filter (· ∉ s.toList)).eraseDups
  | [], s => by simp
  | name :: names, s => by
      rw [List.foldl_cons, toList_foldl_insert names (s.insert name)]
      by_cases hold : name ∈ s.toList
      · have hinsert : (s.insert name).toList = s.toList := by rw [toList_insert, if_pos hold]
        rw [hinsert, List.filter_cons_of_neg (by simpa using hold)]
      · have hinsert : (s.insert name).toList = s.toList ++ [name] := by
          rw [toList_insert, if_neg hold]
        rw [hinsert, eraseDups_filter_cons hold, List.append_assoc, List.singleton_append]

/-- The members of the set of a list are its names without their repetitions. -/
theorem toList_ofList (names : List Text) : (ofList names).toList = names.eraseDups := by
  rw [ofList, toList_foldl_insert]
  exact congrArg List.eraseDups (filter_not_mem_nil names)

end NameSet

/-! ### Words that are extended -/

/-- A proper beginning is a prefix that is not all of the name. -/
theorem isProperBeginning_iff_prefix_and_ne {word name : Text} :
    isProperBeginning word name = true ↔ word <+: name ∧ word ≠ name := by
  rw [isProperBeginning_iff]
  constructor
  · rintro ⟨rest, hrest, rfl⟩
    exact ⟨List.prefix_append word rest, fun h => hrest (by simpa using h)⟩
  · rintro ⟨⟨rest, rfl⟩, hne⟩
    exact ⟨rest, fun h => hne (by simp [h]), rfl⟩

namespace NameSet

/-- A word has an extension in a set iff it is a proper prefix of some member. -/
theorem hasExtension_iff {compounds : NameSet} {word : Text} :
    compounds.hasExtension word = true ↔ ∃ m ∈ compounds.toList, word <+: m ∧ word ≠ m := by
  simp only [hasExtension, List.any_eq_true, isProperBeginning_iff_prefix_and_ne]

/-- A word has no extension in a set iff it is a proper prefix of no member. -/
theorem hasExtension_eq_false_iff {compounds : NameSet} {word : Text} :
    compounds.hasExtension word = false ↔ ∀ m ∈ compounds.toList, ¬ (word <+: m ∧ word ≠ m) := by
  rw [← Bool.not_eq_true, hasExtension_iff]
  simp only [not_exists, not_and]

/-- More members extend more words. -/
theorem hasExtension_mono {s t : NameSet} (hsub : s.toList ⊆ t.toList) {word : Text}
    (h : s.hasExtension word = true) : t.hasExtension word = true := by
  obtain ⟨m, hm, hextends⟩ := hasExtension_iff.mp h
  exact hasExtension_iff.mpr ⟨m, hsub hm, hextends⟩

/-- Whether a name goes on in a member of a set is a matter of its members, not of their order. -/
theorem hasExtension_congr {s s' : NameSet} (h : ∀ n, n ∈ s.toList ↔ n ∈ s'.toList)
    (word : Text) : s.hasExtension word = s'.hasExtension word := by
  rw [Bool.eq_iff_iff]
  constructor
  · exact hasExtension_mono fun n => (h n).mp
  · exact hasExtension_mono fun n => (h n).mpr

/-- A new member extends its own proper beginnings, and nothing else. -/
theorem hasExtension_insert_of_not {name word : Text} (h : ¬ (word <+: name ∧ word ≠ name))
    (s : NameSet) : (s.insert name).hasExtension word = s.hasExtension word := by
  rw [Bool.eq_iff_iff]
  constructor
  · intro hnew
    obtain ⟨m, hm, hextends⟩ := hasExtension_iff.mp hnew
    rcases mem_insert.mp hm with hold | rfl
    · exact hasExtension_iff.mpr ⟨m, hold, hextends⟩
    · exact absurd hextends h
  · exact hasExtension_mono fun m hm => mem_insert.mpr (.inl hm)

/-- An extension of a word extends the beginnings of the word. -/
theorem hasExtension_of_prefix {s : NameSet} {beginning word : Text} (hbegins : beginning <+: word)
    (h : s.hasExtension word = true) : s.hasExtension beginning = true := by
  obtain ⟨m, hm, hword, hne⟩ := hasExtension_iff.mp h
  refine hasExtension_iff.mpr ⟨m, hm, hbegins.trans hword, ?_⟩
  rintro rfl
  exact hne (hword.eq_of_length_le hbegins.length_le)

end NameSet

end DataSourceGen
