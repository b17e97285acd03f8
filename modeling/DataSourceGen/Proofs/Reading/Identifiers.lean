import DataSourceGen.Proofs.DataSource.Binding
import DataSourceGen.Proofs.Reading.Characters

/-!
# Flat names that are names

A leaf is recorded only under a name, but a block is whatever stands before its brace. So a flat
name, which joins the blocks around a leaf and the leaf, need not be a name itself. **Theorem**
(`isName_flatName_iff`): it is one iff the outermost block is a name and the blocks inside it have
only characters of names; and then so is the member that it gives its attribute.

A block with arguments has other characters, and its leaves get flat names that are no names
(`not_isName_of_arguments`). -/

namespace DataSourceGen

open Text

/-! ### Names and what follows them -/

/-- A name is told by its first character and the characters of names. -/
theorem isName_append_iff {t : Text} (ht : t ≠ []) (u : Text) :
    isName (t ++ u) = true ↔ isName t = true ∧ ∀ c ∈ u, isNameChar c = true := by
  rcases t with _ | ⟨c, r⟩
  · exact absurd rfl ht
  · simp only [List.cons_append, isName, List.all_append, Bool.and_eq_true, List.all_eq_true,
      and_assoc]

/-- The separator is a character of names. -/
theorem isNameChar_separator : isNameChar separator = true := rfl

/-- Below some blocks, the lead has characters of names only iff the blocks have. -/
theorem isNameChar_leadOf_iff (blocks : List Text) :
    (∀ c ∈ Reading.leadOf blocks, isNameChar c = true) ↔
      ∀ block ∈ blocks, ∀ c ∈ block, isNameChar c = true := by
  constructor
  · intro h block hblock c hc
    apply h
    exact List.mem_flatMap.mpr ⟨block, hblock, List.mem_append_left _ hc⟩
  · intro h c hc
    obtain ⟨block, hblock, hmem⟩ := List.mem_flatMap.mp hc
    rcases List.mem_append.mp hmem with hchar | hsep
    · exact h block hblock c hchar
    · rw [List.mem_singleton.mp hsep]
      exact isNameChar_separator

/-- A name below some blocks has a flat name that is a name iff the outermost block is a name and
the others have characters of names only. -/
theorem isName_flatten_iff {outermost name : Text} (hne : outermost ≠ [])
    (hname : isName name = true) (inner : List Text) :
    isName (flatten (outermost :: inner ++ [name])) = true ↔
      isName outermost = true ∧ ∀ block ∈ inner, ∀ c ∈ block, isNameChar c = true := by
  have hflat : flatten (outermost :: inner ++ [name]) =
      outermost ++ ([separator] ++ (Reading.leadOf inner ++ name)) := by
    rw [Reading.flatten_append_singleton, Reading.leadOf, List.flatMap_cons]
    simp only [Reading.leadOf, List.append_assoc]
  rw [hflat, isName_append_iff hne, ← isNameChar_leadOf_iff]
  apply and_congr_right
  intro _
  constructor
  · intro h c hc
    apply h
    exact List.mem_append_right _ (List.mem_append_left _ hc)
  · intro h c hc
    rcases List.mem_append.mp hc with hsep | hrest
    · rw [List.mem_singleton.mp hsep]
      exact isNameChar_separator
    · rcases List.mem_append.mp hrest with hlead | hleaf
      · exact h c hlead
      · exact isNameChar_of_isName hname c hleaf

/-- A name stays one when its first letter is put in upper case. -/
theorem isName_capitalizeFirst {name : Text} (h : isName name = true) :
    isName (capitalizeFirst name) = true := by
  rcases name with _ | ⟨c, r⟩
  · cases h
  · have hletter : ∀ n < 123, isNameStart (Char.ofNat n) = true →
        isNameStart (Char.ofNat n).toUpper = true := by decide
    obtain ⟨-, hbound⟩ := toNat_of_isNameChar (isNameChar_of_isName h c List.mem_cons_self)
    obtain ⟨hstart, hrest⟩ : isNameStart c = true ∧ r.all isNameChar = true := by
      simpa only [isName, Bool.and_eq_true] using h
    have hupper := hletter c.toNat (by omega)
    rw [Char.ofNat_toNat] at hupper
    rw [capitalizeFirst_cons_of_ascii (by omega), isName, hupper hstart, hrest]
    rfl

/-! ### The blocks of a document -/

/-- What trimming leaves does not begin with a blank. -/
theorem Text.isBlank_head?_trim (t : Text) : ∀ c ∈ (trim t).head?, isBlank c = false := by
  intro c hc
  have hprefix : trim t <+: trimStart t :=
    List.reverse_suffix.mp (by
      rw [trim, trimEnd, List.reverse_reverse]
      exact List.dropWhile_suffix isBlank)
  have hstart : (trimStart t).head? = some c := by
    obtain ⟨rest, hrest⟩ := hprefix
    rw [← hrest, List.head?_append, Option.mem_def.mp hc]
    rfl
  have hfirst := List.head?_dropWhile_not isBlank t
  rw [← trimStart, hstart] at hfirst
  exact hfirst

/-- A line that does not begin with a blank opens no block without a text. -/
theorem ne_nil_of_openedBlock? {line block : Text}
    (hline : ∀ c ∈ line.head?, isBlank c = false) (h : openedBlock? line = some block) :
    block ≠ [] := by
  rintro rfl
  rw [openedBlock?, List.isSuffixOf?_eq_some_iff_append_eq, List.nil_append] at h
  have hblank : isBlank ' ' = false := hline ' ' (h ▸ rfl)
  cases hblank

/-- Each block that is open after some lines was opened by one of them, or before. -/
theorem mem_foldl_nest {block : Text} :
    (lines blocks : List Text) → block ∈ lines.foldl nest blocks →
      block ∈ blocks ∨ ∃ line ∈ lines, openedBlock? line = some block
  | [], _, h => .inl h
  | line :: lines, blocks, h => by
      rcases mem_foldl_nest lines (nest blocks line) h with hnest | ⟨later, hlater, hopens⟩
      · unfold nest at hnest
        split at hnest
        · next opened hopened =>
          rcases List.mem_append.mp hnest with hold | hnew
          · exact .inl hold
          · obtain rfl := List.mem_singleton.mp hnew
            exact .inr ⟨line, List.mem_cons_self, hopened⟩
        · split at hnest
          · exact .inl ((List.dropLast_prefix blocks).subset hnest)
          · exact .inl hnest
      · exact .inr ⟨later, List.mem_cons_of_mem line hlater, hopens⟩

/-- In a document, each open block has a text. -/
theorem ne_nil_of_mem_blocksAfter {document : Text} {before : List Text}
    (hbefore : before <+: trimmedLines document) {block : Text} (h : block ∈ blocksAfter before) :
    block ≠ [] := by
  rcases mem_foldl_nest (before.drop 2) [] h with hnone | ⟨line, hline, hopens⟩
  · cases hnone
  · have hmem : line ∈ trimmedLines document := hbefore.subset (List.mem_of_mem_drop hline)
    obtain ⟨raw, -, rfl⟩ := List.mem_map.mp hmem
    exact ne_nil_of_openedBlock? (isBlank_head?_trim raw) hopens

open Reading

/-- A line that records a field is inside a block and names a leaf, which end the flat name. -/
theorem blocksAfter_of_records {depth : Nat} {document : Text} {before : List Text} {line : Text}
    {field : Field} (hkey : HasKeyword (trimmedLines document))
    (hline : before ++ [line] <+: trimmedLines document) (hrec : Records depth before line field) :
    blocksAfter before ≠ [] ∧ ∃ name, isName name = true ∧
      field.flatName = flatten (blocksAfter before ++ [name]) := by
  obtain ⟨s, hs, hadd⟩ := hrec
  obtain ⟨hinside, name, -, hname, hflat, -⟩ := leaf_of_fields_eq hadd
  have hbefore : before <+: trimmedLines document := (List.prefix_append before [line]).trans hline
  have hblocks : s.openBlocks.reverse = blocksAfter before :=
    hs.openBlocks_eq (hkey.of_prefix hbefore)
  refine ⟨?_, name, hname, ?_⟩
  · rw [← hblocks]
    exact List.reverse_ne_nil_iff.mpr hinside
  · rw [hflat, hs.coherent.lead, hblocks, flatten_append_singleton]

/-- **Flat names that are names**: each field of an accepted document is recorded by one of its
lines, inside a block. Its flat name is a name iff the outermost of the blocks open at the line is a
name and the others have only characters of names. If it is one, then all texts that the attribute
of the field gives a source are names: the key, the member and its tag. -/
theorem isName_flatName_iff {depth : Nat} {document : Text} {q : Query}
    (h : Query.parse depth document = .ok q) :
    (∀ field ∈ q.fields, ∃ before line,
      before ++ [line] <+: trimmedLines document ∧ Records depth before line field) ∧
    ∀ before line field, before ++ [line] <+: trimmedLines document →
      Records depth before line field →
      ∃ outermost inner, blocksAfter before = outermost :: inner ∧
        (isName field.flatName = true ↔
          isName outermost = true ∧ ∀ block ∈ inner, ∀ c ∈ block, isNameChar c = true) ∧
        (isName field.flatName = true →
          isName (q.attributeOf field).name = true ∧
            isName (q.attributeOf field).member.name = true ∧
            ∀ tag ∈ (q.attributeOf field).member.tag?, isName tag = true) := by
  obtain ⟨-, hfields, -⟩ := Query.of_parse_eq_ok h
  refine ⟨fun field hfield => mem_fields_ofDocument_iff.mp (hfields ▸ hfield), ?_⟩
  intro before line field hline hrec
  obtain ⟨hinside, name, hname, hflat⟩ :=
    blocksAfter_of_records (hasKeyword_of_parse h) hline hrec
  obtain ⟨outermost, inner, hblocks⟩ := List.exists_cons_of_ne_nil hinside
  have houtermost : outermost ≠ [] := by
    apply ne_nil_of_mem_blocksAfter ((List.prefix_append before [line]).trans hline)
    rw [hblocks]
    exact List.mem_cons_self
  refine ⟨outermost, inner, hblocks, ?_, ?_⟩
  · rw [hflat, hblocks]
    exact isName_flatten_iff houtermost hname inner
  · intro hfield
    refine ⟨hfield, isName_capitalizeFirst hfield, ?_⟩
    intro tag htag
    rw [← Option.mem_some.mp htag]
    exact hfield

/-- A lookup with a block whose text is no name, but has only characters of names. -/
def rankedDocument : Text :=
  "query q \x7b\nr \x7b\nedges \x7b\n1st \x7b\nid\n"

/-- Below `edges`, the block `1st` leaves the flat name a name. -/
theorem isName_flatName_iff_rankedDocument :
    ∃ q field, Query.parse 2 rankedDocument = .ok q ∧ q.fields = [field] ∧
      isName "1st" = false ∧ field.flatName = "edges_1st_id".toList ∧
      isName field.flatName = true := by
  have reading : ofDocument 2 rankedDocument =
      { operationName := some "q".toList
        rootName := "r"
        openBlocks := ["1st".toList, "edges".toList]
        lead := "edges_1st_"
        fields := [{ flatName := "edges_1st_id" }]
        flatNames := .ofList ["edges_1st_id".toList] } := rfl
  have accepted : Query.parse 2 rankedDocument = .ok
      { operationName := "q"
        rootName := "r"
        shape := .collection
        fields := [{ flatName := "edges_1st_id" }]
        compounds := .empty } := by rw [Query.parse, reading]; rfl
  refine ⟨_, { flatName := "edges_1st_id" }, accepted, rfl, by decide, rfl, ?_⟩
  have reached : Reached 2 ["query q \x7b".toList, "r \x7b".toList, "edges \x7b".toList,
      "1st \x7b".toList] _ :=
    (((Reached.start.step "query q \x7b" (by decide)).step "r \x7b" (by decide)).step
      "edges \x7b" (by decide)).step "1st \x7b" (by decide)
  have hline : ["query q \x7b".toList, "r \x7b".toList, "edges \x7b".toList,
      "1st \x7b".toList] ++ ["id".toList] <+: trimmedLines rankedDocument := by decide
  obtain ⟨outermost, inner, hblocks, hiff, -⟩ := (isName_flatName_iff accepted).2 _ "id"
    { flatName := "edges_1st_id" } hline ⟨_, reached, by decide⟩
  have hopen : blocksAfter ["query q \x7b".toList, "r \x7b".toList, "edges \x7b".toList,
      "1st \x7b".toList] = ["edges".toList, "1st".toList] := by decide
  rw [hopen] at hblocks
  obtain ⟨rfl, rfl⟩ := List.cons.inj hblocks
  apply hiff.mpr
  refine ⟨by decide, ?_⟩
  intro block hblock
  obtain rfl := List.mem_singleton.mp hblock
  exact List.all_eq_true.mp rfl

/-- A query for the names of the first interfaces of each device. -/
def interfacesDocument : Text :=
  "query Devices \x7b\n  InfraDevice \x7b\n    edges \x7b\n      node \x7b\n" ++
  "        interfaces(first: 10) \x7b\n          name\n        \x7d\n      \x7d\n" ++
  "    \x7d\n  \x7d\n\x7d\n"

/-- The arguments of a block stay in the flat names below it, which are then no names. -/
theorem not_isName_of_arguments :
    ∃ q field, Query.parse defaultWrapperDepth interfacesDocument = .ok q ∧ field ∈ q.fields ∧
      field.flatName = "edges_node_interfaces(first: 10)_name".toList ∧
      isName field.flatName = false := by
  have reading : ofDocument defaultWrapperDepth interfacesDocument =
      { operationName := some "devices".toList
        rootName := "InfraDevice"
        openBlocks := ["edges".toList]
        lead := []
        fields := [{ flatName := "edges_node_interfaces(first: 10)_name" }]
        flatNames := .ofList ["edges_node_interfaces(first: 10)_name".toList] } := by
    decide
  have accepted : Query.parse defaultWrapperDepth interfacesDocument = .ok
      { operationName := "devices"
        rootName := "InfraDevice"
        shape := .collection
        fields := [{ flatName := "edges_node_interfaces(first: 10)_name" }]
        compounds := .empty } := by rw [Query.parse, reading]; rfl
  exact ⟨_, { flatName := "edges_node_interfaces(first: 10)_name" }, accepted,
    List.mem_singleton.mpr rfl, rfl, by decide⟩

end DataSourceGen
