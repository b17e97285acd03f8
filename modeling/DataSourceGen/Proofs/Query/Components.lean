import DataSourceGen.Proofs.DataSource.EdgesIndex
import DataSourceGen.Proofs.Reading.Nesting
import DataSourceGen.Proofs.Text.LetterCase
import DataSourceGen.Proofs.Text.Spacing

/-!
# Accessors without empty components

Joining loses nothing, so an empty segment shows in the flat name: as a separator at one of its
ends, as two separators in a row, or as an empty flat name. Where none of these is, no set of names
can make a segment empty, and where one is, the empty set does (`segments_ne_nil_iff`).

The flat names of a document join the blocks around a leaf and the leaf, which the lines mention.
If each of these is a name that separators only divide, then so is the flat name. Its segments have
characters, but no dots; so have the components that they become, and an accessor has no dot but
between two components (`isSpaced_expression`). **Theorem** (`isSpaced_accessors`) has both halves.

The empty text is spaced as well, and its one segment is empty (`not_forall_segments_ne_nil`). -/

namespace DataSourceGen

open Text

/-! ### Segments -/

/-- The empty set extends no word. -/
theorem NameSet.hasExtension_empty (word : Text) : NameSet.empty.hasExtension word = false := rfl

/-- **Segments with characters**: no set of names gives a flat name an empty segment iff it is not
empty, and separators are neither at its ends nor side by side. -/
theorem segments_ne_nil_iff {flatName : Text} :
    (∀ compounds, ∀ segment ∈ segments compounds flatName, segment ≠ []) ↔
      flatName ≠ [] ∧ IsSpaced separator flatName := by
  have hjoined (compounds : NameSet) : flatName ≠ [] ∧ IsSpaced separator flatName ↔
      ∀ segment ∈ segments compounds flatName, segment ≠ [] ∧ IsSpaced separator segment := by
    have hparts : segments compounds flatName ≠ [] := segmentsFrom_ne_nil compounds [] flatName
    rw [← isSpaced_joinWith_iff _ hparts, ← flatten, flatten_segments]
  constructor
  · intro h
    rw [hjoined .empty]
    intro segment hsegment
    refine ⟨h .empty segment hsegment, isSpaced_of_not_mem fun hsep => ?_⟩
    -- the empty set keeps no separator
    obtain ⟨u, v, hsplit⟩ := List.append_of_mem hsep
    have hkept := (isCut_segments .empty flatName).kept segment hsegment u v hsplit
    rw [NameSet.hasExtension_empty] at hkept
    cases hkept
  · intro h compounds segment hsegment
    exact ((hjoined compounds).mp h segment hsegment).1

/-! ### Accessors -/

/-- The component of a segment with characters has characters. -/
theorem LookupShape.component_ne_nil {shape : LookupShape} {segment : Text} (h : segment ≠ []) :
    shape.component segment ≠ [] := by
  rcases shape.component_cases segment with ⟨-, hindexed⟩ | ⟨-, hplain⟩
  · rw [hindexed]
    exact List.ne_nil_of_mem shape.bracket_mem_edgesAccessor
  · rw [hplain]
    exact capitalizeFirst_ne_nil h

/-- **Dots of an accessor** stand between its components only, if the flat name is spaced. -/
theorem Query.isSpaced_expression {q : Query} (hroot : q.rootName ≠ []) (hdot : '.' ∉ q.rootName)
    {flatName : Text} (hne : flatName ≠ []) (hspaced : IsSpaced separator flatName)
    (hname : '.' ∉ flatName) : IsSpaced '.' (q.accessor flatName).expression := by
  have hindex : '.' ∉ q.shape.edgesAccessor := by
    cases q.shape
    all_goals exact not_mem_toList_ofList rfl
  have hcomponents : ∀ component ∈ (q.segmentsOf flatName).map q.shape.component,
      component ≠ [] ∧ IsSpaced '.' component := by
    intro component h
    obtain ⟨segment, hsegment, rfl⟩ := List.mem_map.mp h
    have hchars := segments_ne_nil_iff.mpr ⟨hne, hspaced⟩ q.compounds segment hsegment
    refine ⟨LookupShape.component_ne_nil hchars, isSpaced_of_not_mem ?_⟩
    exact LookupShape.not_mem_component (by decide) hindex
      (not_mem_segment (by decide) hname segment hsegment)
  have hsome : (q.segmentsOf flatName).map q.shape.component ≠ [] :=
    List.map_eq_nil_iff.not.mpr (segmentsFrom_ne_nil q.compounds [] flatName)
  have hpath := (isSpaced_joinWith_iff _ hsome).mpr hcomponents
  have hexpression : (q.accessor flatName).expression =
      q.rootName ++ '.' :: joinWith ['.'] ((q.segmentsOf flatName).map q.shape.component) := by
    rw [accessor, List.append_assoc]
    rfl
  rw [hexpression, isSpaced_append_cons_iff]
  exact ⟨⟨hroot, isSpaced_of_not_mem hdot⟩, hpath⟩

/-! ### The names in a flat name -/

namespace Reading

/-- Each open block of a reading is mentioned by one of its lines. -/
theorem Reached.mentions_of_mem_openBlocks {depth : Nat} {lines : List Text} {s : Reading}
    (h : Reached depth lines s) : ∀ block ∈ s.openBlocks, Mentions depth lines block := by
  induction h with
  | start => exact fun block hblock => absurd hblock List.not_mem_nil
  | @step lines s line reached goesOn ih =>
    intro block hblock
    have older (hold : block ∈ s.openBlocks) : Mentions depth (lines ++ [line]) block :=
      (ih block hold).mono (List.prefix_append lines [line])
    have hchange := change_of_next goesOn
    generalize hnext : (s.next depth lines.length line).reading = t at hblock hchange
    cases hchange with
    | operation | nameless | root | recorded | passed => exact older hblock
    | opened =>
      rcases List.mem_cons.mp hblock with rfl | hold
      · exact .block (List.prefix_refl _) ⟨s, reached, by rw [hnext]⟩
      · exact older hold
    | closed sel closes innermost => exact older (innermost ▸ List.mem_cons_of_mem _ hblock)

/-- A line that puts a block inside the open ones is a line of selections that opens it. -/
theorem opens_of_openBlocks_eq {depth index : Nat} {line block : Text} {s : Reading}
    (h : (s.next depth index line).reading.openBlocks = block :: s.openBlocks) :
    ReadsSelections index line ∧ openedBlock? line = some block := by
  rcases next_cases depth index s line with ⟨-, hchange⟩ | ⟨-, hhalt⟩
  · generalize (s.next depth index line).reading = t at h hchange
    cases hchange with
    | operation | nameless | root | recorded | passed => simp at h
    | opened sel opens =>
      obtain ⟨rfl, -⟩ := List.cons.inj h
      exact ⟨sel, opens⟩
    | closed sel closes innermost =>
      -- closing a block leaves fewer of them
      have hlength := congrArg List.length h
      simp only [innermost, List.length_cons] at hlength
      omega
  · obtain ⟨lead, hlead⟩ := hhalt.exists_lead
    simp [hlead] at h

/-- A line that adds a field is a line of selections. -/
theorem readsSelections_of_fields_eq {depth index : Nat} {line : Text} {s : Reading} {field : Field}
    (h : (s.next depth index line).reading.fields = s.fields ++ [field]) :
    ReadsSelections index line := by
  rcases next_cases depth index s line with ⟨-, hchange⟩ | ⟨-, hhalt⟩
  · generalize (s.next depth index line).reading = t at h hchange
    cases hchange with
    | operation | nameless | root => simp at h
    | opened sel | closed sel | recorded sel | passed sel => exact sel
  · obtain ⟨lead, hlead⟩ := hhalt.exists_lead
    simp [hlead] at h

/-- A name that the lines of a document mention is that of a block that one of them opens below the
heading, or the word that it selects. -/
theorem Mentions.exists_line {depth : Nat} {lines : List Text} {name : Text}
    (h : Mentions depth lines name) (hkey : HasKeyword lines) :
    ∃ line ∈ lines.drop 2, openedBlock? line = some name ∨ selectedWord? line = some name := by
  have below {before : List Text} {line : Text} (hline : before ++ [line] <+: lines)
      (sel : ReadsSelections before.length line) : line ∈ lines.drop 2 := by
    have hlong := two_le_of_readsSelections (hkey.of_prefix hline) sel
    obtain ⟨after, rfl⟩ := hline
    rw [List.append_assoc, List.drop_append_of_le_length hlong]
    simp
  cases h with
  | block hline opens =>
    obtain ⟨s, -, hopens⟩ := opens
    obtain ⟨sel, hblock⟩ := opens_of_openBlocks_eq hopens
    exact ⟨_, below hline sel, .inl hblock⟩
  | leaf hline records selects =>
    obtain ⟨s, -, hadd⟩ := records
    exact ⟨_, below hline (readsSelections_of_fields_eq hadd), .inr selects⟩

end Reading

open Reading

/-- The flat name of a field of an accepted document joins names that its lines mention. -/
theorem exists_names_of_mem_fields {depth : Nat} {document : Text} {q : Query}
    (h : Query.parse depth document = .ok q) {f : Field} (hf : f ∈ q.fields) :
    ∃ names, names ≠ [] ∧ f.flatName = flatten names ∧
      ∀ name ∈ names, Mentions depth (trimmedLines document) name := by
  obtain ⟨-, hfields, -⟩ := Query.of_parse_eq_ok h
  have hkey := hasKeyword_of_parse h
  obtain ⟨before, line, hline, hrec⟩ := mem_fields_ofDocument_iff.mp (hfields ▸ hf)
  obtain ⟨name, hword, hflat, -⟩ := flatName_of_records hkey hline hrec
  refine ⟨blocksAfter before ++ [name], by simp, hflat, fun n hn => ?_⟩
  rcases List.mem_append.mp hn with hblock | hleaf
  · obtain ⟨s, hs, -⟩ := hrec
    have hbefore : before <+: trimmedLines document :=
      (List.prefix_append before [line]).trans hline
    rw [← hs.openBlocks_eq (hkey.of_prefix hbefore), List.mem_reverse] at hblock
    exact (hs.mentions_of_mem_openBlocks n hblock).mono hbefore
  · obtain rfl := List.mem_singleton.mp hleaf
    exact .leaf hline hrec hword

/-- **No empty components**: no set of names gives a flat name an empty segment iff it is not empty,
neither starts nor ends with a separator, and has no two separators side by side; the empty flat
name has just one segment, which is empty. And in an accepted document whose root object has a name,
if all blocks and leaves that its lines mention have names that separate in this way, then in the
accessor of a field dots are neither first nor last nor side by side. -/
theorem isSpaced_accessors :
    (∀ flatName, (∀ compounds, ∀ segment ∈ segments compounds flatName, segment ≠ []) ↔
      flatName ≠ [] ∧ IsSpaced separator flatName) ∧
    (∀ compounds, segments compounds [] = [[]]) ∧
    ∀ depth document q, Query.parse depth document = .ok q → isName q.rootName = true →
      (∀ name, Mentions depth (trimmedLines document) name →
        isName name = true ∧ IsSpaced separator name) →
      ∀ path ∈ q.accessors, IsSpaced '.' path.expression := by
  refine ⟨fun flatName => segments_ne_nil_iff, fun compounds => rfl, ?_⟩
  intro depth document q h hroot hnames path hpath
  obtain ⟨f, hf, rfl⟩ := List.mem_map.mp hpath
  obtain ⟨names, hne, hflat, hmentioned⟩ := exists_names_of_mem_fields h hf
  have nonempty {name : Text} (hname : isName name = true) : name ≠ [] := by
    rintro rfl
    cases hname
  have hjoined : flatten names ≠ [] ∧ IsSpaced separator (flatten names) := by
    apply (isSpaced_joinWith_iff names hne).mpr
    intro name hname
    obtain ⟨hisName, hspaced⟩ := hnames name (hmentioned name hname)
    exact ⟨nonempty hisName, hspaced⟩
  have hdots : '.' ∉ flatten names := by
    rw [flatten, mem_joinWith (by decide)]
    rintro ⟨name, hname, hdot⟩
    exact not_mem_of_isName (hnames name (hmentioned name hname)).1 rfl hdot
  rw [← hflat] at hjoined hdots
  exact Query.isSpaced_expression (nonempty hroot) (not_mem_of_isName hroot rfl) hjoined.1 hjoined.2
    hdots

/-- The condition on the ends and the neighbours of separators does not exclude the empty text,
whose one segment is empty. -/
theorem not_forall_segments_ne_nil :
    ¬ ∀ flatName, IsSpaced separator flatName →
      ∀ compounds, ∀ segment ∈ segments compounds flatName, segment ≠ [] := by
  intro h
  exact h [] (isSpaced_of_not_mem List.not_mem_nil) .empty [] (by decide) rfl

/-- A collection with a block of two words. -/
def addressDocument : Text :=
  "query Q \x7b\nR \x7b\nedges \x7b\nprimary_address \x7b\nid\n"

/-- The accessor below `primary_address` has no empty component. Neither has any segment of
`edges_node`, even under a name that begins with `edges` and goes on otherwise. -/
theorem isSpaced_accessors_addressDocument :
    (∀ segment ∈ segments (.ofList ["edges_id".toList]) "edges_node", segment ≠ []) ∧
    ∃ q, Query.parse 2 addressDocument = .ok q ∧ isName q.rootName = true ∧
      (∀ name, Mentions 2 (trimmedLines addressDocument) name →
        isName name = true ∧ IsSpaced separator name) ∧
      q.accessors.map AccessorPath.expression = ["R.Edges[i].Primary_address.Id".toList] ∧
      ∀ path ∈ q.accessors, IsSpaced '.' path.expression := by
  have reading : ofDocument 2 addressDocument =
      { operationName := some "q".toList
        rootName := "R"
        openBlocks := ["primary_address".toList, "edges".toList]
        lead := "edges_primary_address_"
        fields := [{ flatName := "edges_primary_address_id" }]
        flatNames := .ofList ["edges_primary_address_id".toList]
        compounds := .ofList ["primary_address".toList] } := rfl
  have accepted : Query.parse 2 addressDocument = .ok
      { operationName := "q"
        rootName := "R"
        shape := .collection
        fields := [{ flatName := "edges_primary_address_id" }]
        compounds := .ofList ["primary_address".toList] } := by rw [Query.parse, reading]; rfl
  have hnames : ∀ name, Mentions 2 (trimmedLines addressDocument) name →
      isName name = true ∧ IsSpaced separator name := by
    intro name hname
    obtain ⟨line, hline, hsays⟩ := hname.exists_line (hasKeyword_of_parse accepted)
    have hlines : (trimmedLines addressDocument).drop 2 =
        ["edges \x7b".toList, "primary_address \x7b".toList, "id".toList] := by decide
    have hplain : ∀ line ∈ (["edges \x7b".toList, "primary_address \x7b".toList, "id".toList]),
        ∀ n ∈ (openedBlock? line).toList ++ (selectedWord? line).toList,
          isName n = true ∧ IsSpaced separator n := by decide
    refine hplain line (hlines ▸ hline) name (List.mem_append.mpr ?_)
    exact hsays.imp Option.mem_toList.mpr Option.mem_toList.mpr
  refine ⟨?_, _, accepted, rfl, hnames, by decide, ?_⟩
  · exact (isSpaced_accessors.1 "edges_node").mpr ⟨by decide, by decide⟩ _
  · exact isSpaced_accessors.2.2 2 addressDocument _ accepted rfl hnames

end DataSourceGen
