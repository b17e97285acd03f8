import DataSourceGen.Proofs.NameSet
import DataSourceGen.Proofs.Query.Heading
import DataSourceGen.Proofs.Reading.Coherence
import Mathlib.Data.List.Basic

/-!
# Reading a selection set

The lines of a selection set, read inside some blocks, leave these blocks as they were and add the
items of the set one after another (`Reached.lines`). The proof is an induction on the set: the line
of a block opens it, the lines inside it add its items, and the closing line leaves it again. No
closing line of the set is taken for the end of the wrappers, because the lead already holds enough
separators when the set begins and only becomes longer inside it.

What the items add is then a matter of lists: `foldl_add` says which fields and which compounds they
leave, `filterMap_flatName?_recorded` that no flat name is recorded twice, and
`filterMap_flatName?_items` that the flat names are the paths of the set.
-/

namespace DataSourceGen

open Text

/-! ### The lines of a selection set -/

/-- A name stands alone on a line with what ends in no blank and holds no line feed. -/
theorem isContent_append {name rest : Text} (h : isName name = true)
    (hend : ∀ c ∈ rest.getLast?, isBlank c = false) (hline : '\n' ∉ rest) :
    IsContent (name ++ rest) := by
  obtain ⟨⟨c, hc, hfirst⟩, d, hd, hlast⟩ := isTrimmed_of_isName h
  refine ⟨⟨⟨c, by simp [Option.mem_def.mp hc], hfirst⟩, ?_⟩, ?_⟩
  · rcases hrest : rest.getLast? with _ | e
    · exact ⟨d, by simp [hrest, Option.mem_def.mp hd], hlast⟩
    · exact ⟨e, by simp [hrest], hend e hrest⟩
  · rw [List.mem_append, not_or]
    exact ⟨not_mem_of_isName h (by decide), hline⟩

/-- A line that begins with a name and opens a block stands alone. -/
theorem isContent_opening {name : Text} (h : isName name = true) {rest : Text}
    (hline : '\n' ∉ rest) : IsContent (name ++ (rest ++ " \x7b".toList)) :=
  isContent_append h (by simp [isBlank]) (by simp [hline])

/-- The closing line stands alone. -/
theorem isContent_closingLine : IsContent closingLine :=
  ⟨⟨⟨'\x7d', rfl, rfl⟩, '\x7d', rfl, rfl⟩, by decide⟩

/-- A line that ends in a blank and an opening brace opens the block before them. -/
theorem openedBlock?_append (block : Text) :
    openedBlock? (block ++ " \x7b".toList) = some block := by
  rw [openedBlock?, List.isSuffixOf?_eq_some_iff_append_eq]

/-- A line that ends in another character than an opening brace opens no block. -/
theorem openedBlock?_eq_none {line : Text} (h : ∀ c ∈ line.getLast?, c ≠ '\x7b') :
    openedBlock? line = none := by
  rw [Option.eq_none_iff_forall_ne_some]
  intro block hopen
  have hline : block ++ " \x7b".toList = line := by
    rwa [openedBlock?, List.isSuffixOf?_eq_some_iff_append_eq] at hopen
  exact h '\x7b' (by simp [← hline]) rfl

namespace SelectionSet

/-- An argument list ends in a parenthesis, if it is there. -/
theorem IsArgumentList.getLast? {arguments : Text} (h : IsArgumentList arguments) :
    ∀ c ∈ arguments.getLast?, c = ')' := by
  intro c hc
  rcases h with rfl | ⟨gap, inner, -, -, rfl⟩
  · cases hc
  · rw [List.getLast?_concat] at hc
    exact (Option.some.inj hc).symm

/-- An argument list begins with a blank or a parenthesis, if it is there. -/
theorem IsArgumentList.head? {arguments : Text} (h : IsArgumentList arguments) :
    ∀ c ∈ arguments.head?, isBlank c = true ∨ c = '(' := by
  intro c hc
  rcases h with rfl | ⟨gap, inner, hgap, -, rfl⟩
  · cases hc
  · rcases gap with _ | ⟨d, gap⟩
    · have hfirst : '(' = c := by simpa using hc
      exact .inr hfirst.symm
    · obtain rfl : d = c := by simpa using hc
      exact .inl (hgap d List.mem_cons_self).1

/-- An argument list is on one line. -/
theorem IsArgumentList.not_mem {arguments : Text} (h : IsArgumentList arguments) :
    '\n' ∉ arguments := by
  rcases h with rfl | ⟨gap, inner, hgap, hinner, rfl⟩
  · exact List.not_mem_nil
  · have hgap' : '\n' ∉ gap := fun hmem => (hgap _ hmem).2 rfl
    simp [hgap', hinner]

/-- The lines of a well-formed selection set are contents of lines. -/
theorem isContent_of_mem_lines :
    (t : SelectionSet) → t.IsWellFormed → ∀ line ∈ t.lines, IsContent line
  | .nil, _, _, hline => absurd hline List.not_mem_nil
  | .leaf name arguments rest, ⟨hname, harguments, hrest⟩, line, hline => by
      rcases List.mem_cons.mp hline with rfl | hline
      · refine isContent_append hname (fun c hc => ?_) harguments.not_mem
        rw [harguments.getLast? c hc]
        rfl
      · exact isContent_of_mem_lines rest hrest line hline
  | .block name inner rest, ⟨hname, hinner, hrest⟩, line, hline => by
      rw [lines, List.cons_append, List.mem_cons, List.mem_append, List.mem_cons] at hline
      rcases hline with rfl | hline | rfl | hline
      · have hempty : '\n' ∉ ([] : Text) := List.not_mem_nil
        exact isContent_opening hname hempty
      · exact isContent_of_mem_lines inner hinner line hline
      · exact isContent_closingLine
      · exact isContent_of_mem_lines rest hrest line hline

/-! ### The items that are recorded -/

/-- A leaf whose flat name is taken is left out. -/
theorem Item.recorded_leaf_of_mem {seen : List Text} {flatName : Text} (h : flatName ∈ seen)
    (name : Text) (items : List Item) :
    recorded seen (.leaf name flatName :: items) = recorded seen items :=
  if_pos (by simpa using h)

/-- A leaf with a new flat name is recorded, and the name is taken. -/
theorem Item.recorded_leaf_of_not_mem {seen : List Text} {flatName : Text} (h : flatName ∉ seen)
    (name : Text) (items : List Item) :
    recorded seen (.leaf name flatName :: items) =
      .leaf name flatName :: recorded (seen ++ [flatName]) items :=
  if_neg (by simpa using h)

end SelectionSet

/-! ### What the items add -/

namespace Reading

open SelectionSet

/-- A reading with an item of a selection set: the name of a block may be a compound, and a leaf is
recorded unless its flat name is taken. -/
def add (s : Reading) : Item → Reading
  | .block name => { s with compounds := noteCompound s.compounds name }
  | .leaf name flatName =>
    if s.flatNames.contains flatName then s
    else { s with
      flatNames := s.flatNames.insert flatName
      compounds := noteCompound s.compounds name
      fields := s.fields ++ [{ flatName }] }

/-- A leaf whose flat name is taken adds nothing. -/
theorem add_leaf_of_mem {s : Reading} {flatName : Text} (h : flatName ∈ s.flatNames.toList)
    (name : Text) : s.add (.leaf name flatName) = s :=
  if_pos (NameSet.contains_iff.mpr h)

/-- A leaf with a new flat name is recorded. -/
theorem add_leaf_of_not_mem {s : Reading} {flatName : Text} (h : flatName ∉ s.flatNames.toList)
    (name : Text) : s.add (.leaf name flatName) = { s with
      flatNames := s.flatNames.insert flatName
      compounds := noteCompound s.compounds name
      fields := s.fields ++ [{ flatName }] } :=
  if_neg fun hcontains => h (NameSet.contains_iff.mp hcontains)

/-- A reading with other blocks open; the innermost comes first. -/
def within (s : Reading) (blocks : List Text) : Reading :=
  { s with lead := leadOf blocks.reverse, openBlocks := blocks }

/-! ### One line of a selection set -/

section

variable {depth : Nat} {before blocks : List Text} {s : Reading} {name : Text}

/-- A line that opens a block is not the last, and adds the block. -/
theorem Reached.opened (h : Reached depth before (s.within blocks)) (hlength : 2 ≤ before.length)
    (name : Text) :
    Reached depth (before ++ [name ++ " \x7b".toList])
      ((s.add (.block name)).within (name :: blocks)) := by
  have hnext : (s.within blocks).next depth before.length (name ++ " \x7b".toList) =
      (s.within blocks).openBlock name := by
    rw [next_eq_select (readsSelections_of_two_le hlength _), select, openedBlock?_append]
  have hreading : ((s.within blocks).openBlock name).reading =
      (s.add (.block name)).within (name :: blocks) := by
    simp only [openBlock, within, add, List.reverse_cons, leadOf_concat, List.append_assoc]
  rw [← hreading]
  exact h.of_next_eq hnext rfl

/-- A closing line inside the wrappers is not the last, and leaves the innermost block. -/
theorem Reached.closed (h : Reached depth before (s.within (name :: blocks)))
    (hlength : 2 ≤ before.length)
    (inside : depth ≤ (leadOf (blocks.reverse ++ [name])).count separator) :
    Reached depth (before ++ [closingLine]) (s.within blocks) := by
  have hlead : (s.within (name :: blocks)).lead = leadOf (blocks.reverse ++ [name]) := by
    rw [within, List.reverse_cons]
  have hnext : (s.within (name :: blocks)).next depth before.length closingLine =
      { reading := s.within blocks, events := [.closingBlock name] } := by
    rw [next_eq_select (readsSelections_of_two_le hlength _), select, openedBlock?_closingLine]
    exact h.coherent.closeBlock_eq rfl (hlead ▸ inside)
  exact h.of_next_eq hnext rfl

/-- A line that selects a name inside some blocks adds the leaf with its flat name. -/
theorem recordLeaf_eq_add {line : Text} (hword : selectedWord? line = some name)
    (hname : isName name = true) (s : Reading) (blocks : List Text) :
    ((s.within blocks).recordLeaf line).stops = false ∧
      ((s.within blocks).recordLeaf line).reading =
        (s.add (.leaf name (flatten (blocks.reverse ++ [name])))).within blocks := by
  have hcontains : (s.within blocks).flatNames.contains ((s.within blocks).lead ++ name) = true ↔
      leadOf blocks.reverse ++ name ∈ s.flatNames.toList := NameSet.contains_iff
  rw [flatten_append_singleton]
  simp only [recordLeaf, hword, hname]
  by_cases htaken : leadOf blocks.reverse ++ name ∈ s.flatNames.toList
  · rw [add_leaf_of_mem htaken]
    simp [hcontains.mpr htaken]
  · rw [add_leaf_of_not_mem htaken]
    simp [htaken, within]

/-- The line of a leaf inside a block is not the last, and adds the leaf. -/
theorem Reached.leaf (h : Reached depth before (s.within blocks)) (hlength : 2 ≤ before.length)
    (inside : blocks ≠ []) {arguments : Text} (hname : isName name = true)
    (harguments : IsArgumentList arguments) :
    Reached depth (before ++ [name ++ arguments])
      ((s.add (.leaf name (flatten (blocks.reverse ++ [name])))).within blocks) := by
  have hword : selectedWord? (name ++ arguments) = some name :=
    selectedWord?_append hname harguments.head?
  have hlast : ∀ c ∈ (name ++ arguments).getLast?, c = ')' ∨ isNameChar c = true := by
    intro c hc
    rcases hargs : arguments.getLast? with _ | d
    · have hmem : c ∈ name.getLast? := by simpa [hargs] using hc
      exact .inr (isNameChar_of_isName hname c (List.mem_of_getLast? hmem))
    · obtain rfl : d = c := by simpa [hargs] using hc
      exact .inl (harguments.getLast? d hargs)
  have hplain : openedBlock? (name ++ arguments) = none := by
    apply openedBlock?_eq_none
    rintro _ hc rfl
    exact absurd (hlast _ hc) (by decide)
  have hstays : name ++ arguments ≠ closingLine := by
    intro heq
    exact absurd (hlast '\x7d' (by rw [heq]; rfl)) (by decide)
  have hnext : (s.within blocks).next depth before.length (name ++ arguments) =
      (s.within blocks).recordLeaf (name ++ arguments) := by
    have hblocks : (s.within blocks).openBlocks.isEmpty = false := by
      simpa [within] using inside
    rw [next_eq_select (readsSelections_of_two_le hlength _), select, hplain]
    simp only [if_neg hstays, hblocks]
    rfl
  obtain ⟨hgoesOn, hreading⟩ := recordLeaf_eq_add hword hname s blocks
  rw [← hreading]
  exact h.of_next_eq hnext hgoesOn

end

/-! ### All lines of a selection set -/

/-- **Reading a selection set**: its lines, read inside some blocks and inside the wrappers, leave
the blocks as they were and add its items one after another. -/
theorem Reached.lines {depth : Nat} :
    (t : SelectionSet) → t.IsWellFormed → ∀ {before blocks : List Text} {s : Reading},
      Reached depth before (s.within blocks) → 2 ≤ before.length → blocks ≠ [] →
      depth ≤ (leadOf blocks.reverse).count separator →
      Reached depth (before ++ t.lines) (((t.items blocks.reverse).foldl add s).within blocks)
  | .nil, _, before, blocks, s, h, _, _, _ => by
      rwa [SelectionSet.lines, List.append_nil]
  | .leaf name arguments rest, ⟨hname, harguments, hrest⟩, before, blocks, s, h, hlength, hne,
      inside => by
      have hleaf := h.leaf hlength hne hname harguments
      have hall := Reached.lines rest hrest hleaf (by simp; omega) hne inside
      rw [List.append_assoc] at hall
      exact hall
  | .block name inner rest, ⟨hname, hinner, hrest⟩, before, blocks, s, h, hlength, hne, inside => by
      have hinside : depth ≤ (leadOf (blocks.reverse ++ [name])).count separator := by
        rw [leadOf_concat, List.count_append]
        omega
      have hopened := h.opened hlength name
      have hread := Reached.lines inner hinner hopened (by simp; omega) (List.cons_ne_nil _ _)
        (by rwa [List.reverse_cons])
      have hclosed := hread.closed (by simp; omega) hinside
      have hall := Reached.lines rest hrest hclosed (by simp; omega) hne inside
      rw [List.reverse_cons] at hall
      simpa [SelectionSet.lines, items, closingLine] using hall

/-! ### The fields and compounds of the items -/

/-- What items leave in a reading: those that are recorded add their flat names and their names. -/
theorem foldl_add :
    (items : List Item) → ∀ s : Reading,
      items.foldl add s =
        let new := Item.recorded s.flatNames.toList items
        { s with
          flatNames := (new.filterMap Item.flatName?).foldl NameSet.insert s.flatNames
          compounds := (new.map Item.name).foldl noteCompound s.compounds
          fields := s.fields ++ (new.filterMap Item.flatName?).map ({ flatName := · }) }
  | [], s => by simp [Item.recorded]
  | .block name :: items, s => by
      rw [List.foldl_cons, foldl_add items]
      rfl
  | .leaf name flatName :: items, s => by
      rw [List.foldl_cons, foldl_add items]
      by_cases htaken : flatName ∈ s.flatNames.toList
      · rw [add_leaf_of_mem htaken, Item.recorded_leaf_of_mem htaken]
      · rw [add_leaf_of_not_mem htaken, Item.recorded_leaf_of_not_mem htaken]
        simp [NameSet.toList_insert, htaken, Item.flatName?, Item.name]

/-- Names noted one after another are those with a separator, inserted one after another. -/
theorem foldl_noteCompound (names : List Text) (compounds : NameSet) :
    names.foldl noteCompound compounds =
      (names.filter (·.contains separator)).foldl NameSet.insert compounds := by
  rw [List.foldl_filter]
  rfl

end Reading

namespace SelectionSet

/-- The flat names of the leaves recorded are those of all leaves that are not taken, without their
repetitions. -/
theorem filterMap_flatName?_recorded :
    (items : List Item) → ∀ seen : List Text,
      (Item.recorded seen items).filterMap Item.flatName? =
        ((items.filterMap Item.flatName?).filter (· ∉ seen)).eraseDups
  | [], _ => rfl
  | .block name :: items, seen => filterMap_flatName?_recorded items seen
  | .leaf name flatName :: items, seen => by
      by_cases htaken : flatName ∈ seen
      · rw [Item.recorded_leaf_of_mem htaken, filterMap_flatName?_recorded items seen]
        simp [Item.flatName?, htaken]
      · have hnames : (Item.leaf name flatName :: items).filterMap Item.flatName? =
            flatName :: items.filterMap Item.flatName? := rfl
        rw [hnames, eraseDups_filter_cons htaken, ← filterMap_flatName?_recorded items,
          Item.recorded_leaf_of_not_mem htaken]
        rfl

/-- The flat names of the items of a selection set are those of its paths. -/
theorem filterMap_flatName?_items :
    (t : SelectionSet) → ∀ blocks : List Text,
      (t.items blocks).filterMap Item.flatName? = t.flatNames blocks
  | .nil, _ => rfl
  | .leaf name arguments rest, blocks => by
      have hrest := filterMap_flatName?_items rest blocks
      have hleaf : (Item.leaf name (flatten (blocks ++ [name]))).flatName? =
          some (flatten (blocks ++ [name])) := rfl
      rw [items, List.filterMap_cons_some hleaf, hrest]
      rfl
  | .block name inner rest, blocks => by
      have hinner := filterMap_flatName?_items inner (blocks ++ [name])
      have hrest := filterMap_flatName?_items rest blocks
      rw [items, List.filterMap_cons_none rfl, List.filterMap_append, hinner, hrest]
      simp [flatNames, paths]

/-- The path of a leaf is not empty. -/
theorem ne_nil_of_mem_paths : (t : SelectionSet) → ∀ path ∈ t.paths, path ≠ []
  | .nil, _, hpath => absurd hpath List.not_mem_nil
  | .leaf name arguments rest, path, hpath => by
      rcases List.mem_cons.mp hpath with rfl | hrest
      · exact List.cons_ne_nil name []
      · exact ne_nil_of_mem_paths rest path hrest
  | .block name inner rest, path, hpath => by
      rcases List.mem_append.mp hpath with hinner | hrest
      · obtain ⟨below, -, rfl⟩ := List.mem_map.mp hinner
        exact List.cons_ne_nil name below
      · exact ne_nil_of_mem_paths rest path hrest

end SelectionSet

end DataSourceGen
