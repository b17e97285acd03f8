import DataSourceGen.Proofs.Reading.Coherence
import DataSourceGen.Proofs.Segment.RoundTrip
import DataSourceGen.Query.Accessor

/-!
# Fields and the blocks around them

`blocksAfter` tells from the lines alone which blocks are open after them, and a reading agrees with
it (`Reached.openBlocks_eq`). So the flat name of a field spells the blocks open at its line and the
name on the line (`flatName_of_records`).

Whether the segments of a flat name are these blocks and this name again is a matter of the
compounds of the whole document, some of which come from later lines. They hold each of these names
that has a separator (`mem_compounds_of_mem_openBlocks`), and so **Theorem**
(`nesting_of_recorded_field`) is an instance of the round trip of segments: the nesting comes back
iff no compound of the document strictly extends one of the blocks. In a document whose names hold
no separator there are no compounds (`compounds_eq_nil`), and every accessor mirrors the nesting. -/

namespace DataSourceGen

open Text

/-! ### The blocks that the lines open -/

/-- What a line of selections makes of the blocks around it; the outermost one comes first. -/
def nest (blocks : List Text) (line : Text) : List Text :=
  match openedBlock? line with
  | some block => blocks ++ [block]
  | none => if line = closingLine then blocks.dropLast else blocks

/-- The blocks that are open after some trimmed lines of a document. The first two are its heading
and open none. -/
def blocksAfter (before : List Text) : List Text :=
  (before.drop 2).foldl nest []

/-- No block is open after the heading. -/
theorem blocksAfter_of_length_le {before : List Text} (h : before.length ≤ 2) :
    blocksAfter before = [] := by
  rw [blocksAfter, List.drop_eq_nil_of_le h, List.foldl_nil]

/-- Below the heading, the last line acts on the blocks that were open before it. -/
theorem blocksAfter_concat {before : List Text} (h : 2 ≤ before.length) (line : Text) :
    blocksAfter (before ++ [line]) = nest (blocksAfter before) line := by
  rw [blocksAfter, List.drop_append_of_le_length h, List.foldl_append]
  rfl

namespace Reading

/-- Whether a first line, if there is one, starts with the keyword. -/
def HasKeyword (before : List Text) : Prop :=
  ∀ first ∈ before.head?, OperationLine.ofLine first ≠ .other

/-- What comes first in a beginning of the lines comes first in all of them. -/
theorem HasKeyword.of_prefix {before lines : List Text} (h : HasKeyword lines)
    (hinit : before <+: lines) : HasKeyword before := by
  intro first hfirst
  obtain ⟨after, rfl⟩ := hinit
  exact h first (by simp [Option.mem_def.mp hfirst])

/-- Under a first line with the keyword, the lines of selections come after the heading. -/
theorem two_le_of_readsSelections {before : List Text} {line : Text}
    (hkey : HasKeyword (before ++ [line])) (sel : ReadsSelections before.length line) :
    2 ≤ before.length := by
  obtain ⟨hsecond, hfirst⟩ := sel
  rcases before with _ | ⟨first, _ | ⟨second, before⟩⟩
  · exact absurd (hfirst rfl) (hkey line (by simp))
  · exact absurd rfl hsecond
  · simp

/-- A change acts on the open blocks as its line tells. -/
theorem Change.openBlocks_eq {depth : Nat} {before : List Text} {line : Text} {s t : Reading}
    (h : Change depth before.length line s t) (hkey : HasKeyword (before ++ [line]))
    (hs : s.openBlocks.reverse = blocksAfter before) :
    t.openBlocks.reverse = blocksAfter (before ++ [line]) := by
  have heading (hshort : before.length ≤ 1) :
      s.openBlocks.reverse = blocksAfter (before ++ [line]) := by
    rw [hs, blocksAfter_of_length_le (by omega),
      blocksAfter_of_length_le (by rw [List.length_append, List.length_singleton]; omega)]
  have below (sel : ReadsSelections before.length line) :
      blocksAfter (before ++ [line]) = nest s.openBlocks.reverse line := by
    rw [blocksAfter_concat (two_le_of_readsSelections hkey sel), hs]
  cases h with
  | operation first => exact heading (by omega)
  | nameless first => exact heading (by omega)
  | root second => exact heading (by omega)
  | opened sel opens =>
    rw [below sel, nest, opens]
    exact List.reverse_cons
  | closed sel closes innermost =>
    rw [below sel, nest, closes, openedBlock?_closingLine, innermost]
    simp
  | recorded sel plain stays | passed sel plain stays =>
    rw [below sel, nest, plain]
    simp [stays]

/-- The open blocks of a reading are those that its lines opened. -/
theorem Reached.openBlocks_eq {depth : Nat} {before : List Text} {s : Reading}
    (h : Reached depth before s) (hkey : HasKeyword before) :
    s.openBlocks.reverse = blocksAfter before := by
  induction h with
  | start => rfl
  | @step before s line reached goesOn ih =>
    exact (change_of_next goesOn).openBlocks_eq hkey
      (ih (hkey.of_prefix (List.prefix_append before [line])))

/-! ### Where names come from -/

/-- Whether a line, read after the lines before it, records a field. -/
def Records (depth : Nat) (before : List Text) (line : Text) (field : Field) : Prop :=
  ∃ s, Reached depth before s ∧
    (s.next depth before.length line).reading.fields = s.fields ++ [field]

/-- Whether a line, read after the lines before it, opens a block. -/
def Opens (depth : Nat) (before : List Text) (line block : Text) : Prop :=
  ∃ s, Reached depth before s ∧
    (s.next depth before.length line).reading.openBlocks = block :: s.openBlocks

/-- The names that some lines mention: the texts of the blocks they open and the names of the leaves
they record. -/
inductive Mentions (depth : Nat) (lines : List Text) : Text → Prop where
  | block {before : List Text} {line block : Text} (hline : before ++ [line] <+: lines)
      (opens : Opens depth before line block) : Mentions depth lines block
  | leaf {before : List Text} {line name : Text} {field : Field}
      (hline : before ++ [line] <+: lines) (records : Records depth before line field)
      (selects : selectedWord? line = some name) : Mentions depth lines name

/-- More lines mention what fewer do. -/
theorem Mentions.mono {depth : Nat} {lines more : List Text} {name : Text}
    (h : Mentions depth lines name) (hinit : lines <+: more) : Mentions depth more name := by
  cases h with
  | block hline opens => exact .block (hline.trans hinit) opens
  | leaf hline records selects => exact .leaf (hline.trans hinit) records selects

/-- A change adds at most one field. -/
theorem Change.fields_eq {depth index : Nat} {line : Text} {s t : Reading}
    (h : Change depth index line s t) :
    t.fields = s.fields ∨ ∃ field, t.fields = s.fields ++ [field] := by
  cases h with
  | operation | nameless | root | opened | closed | passed => exact .inl rfl
  | recorded => exact .inr ⟨_, rfl⟩

/-- A compound after a change is an old one, the block opened or the name of the leaf recorded. -/
theorem Change.mem_compounds {depth index : Nat} {line : Text} {s t : Reading}
    (h : Change depth index line s t) {name : Text} (hname : name ∈ t.compounds.toList) :
    name ∈ s.compounds.toList ∨ t.openBlocks = name :: s.openBlocks ∨
      ((∃ field, t.fields = s.fields ++ [field]) ∧ selectedWord? line = some name) := by
  cases h with
  | operation | nameless | root | closed | passed => exact .inl hname
  | opened sel opens =>
    rcases mem_noteCompound.mp hname with hold | ⟨rfl, -⟩
    · exact .inl hold
    · exact .inr (.inl rfl)
  | recorded sel plain stays inside selects =>
    rcases mem_noteCompound.mp hname with hold | ⟨rfl, -⟩
    · exact .inl hold
    · exact .inr (.inr ⟨⟨_, rfl⟩, selects⟩)

/-- Each field of a reading was recorded by one of its lines. -/
theorem Reached.records_of_mem {depth : Nat} {lines : List Text} {s : Reading}
    (h : Reached depth lines s) :
    ∀ field ∈ s.fields, ∃ before line,
      before ++ [line] <+: lines ∧ Records depth before line field := by
  induction h with
  | start => exact fun field hfield => absurd hfield List.not_mem_nil
  | @step lines s line reached goesOn ih =>
    intro field hfield
    have older (hold : field ∈ s.fields) :
        ∃ before line',
          before ++ [line'] <+: lines ++ [line] ∧ Records depth before line' field := by
      obtain ⟨before, line', hline, hrec⟩ := ih field hold
      exact ⟨before, line', hline.trans (List.prefix_append lines [line]), hrec⟩
    rcases (change_of_next goesOn).fields_eq with hsame | ⟨added, hadd⟩
    · exact older (hsame ▸ hfield)
    · rw [hadd, List.mem_append, List.mem_singleton] at hfield
      rcases hfield with hold | rfl
      · exact older hold
      · exact ⟨lines, line, List.prefix_refl _, s, reached, hadd⟩

/-- Each compound of a reading is mentioned by one of its lines. -/
theorem Reached.mentions_of_mem {depth : Nat} {lines : List Text} {s : Reading}
    (h : Reached depth lines s) : ∀ name ∈ s.compounds.toList, Mentions depth lines name := by
  induction h with
  | start => exact fun name hname => absurd hname List.not_mem_nil
  | @step lines s line reached goesOn ih =>
    intro name hname
    rcases (change_of_next goesOn).mem_compounds hname with hold | hopened | ⟨⟨field, hadd⟩, hword⟩
    · exact (ih name hold).mono (List.prefix_append lines [line])
    · exact .block (List.prefix_refl _) ⟨s, reached, hopened⟩
    · exact .leaf (List.prefix_refl _) ⟨s, reached, hadd⟩ hword

/-- An open block with a separator is among the compounds. -/
theorem Change.mem_compounds_of_mem_openBlocks {depth index : Nat} {line : Text} {s t : Reading}
    (h : Change depth index line s t)
    (hs : ∀ block ∈ s.openBlocks, separator ∈ block → block ∈ s.compounds.toList) :
    ∀ block ∈ t.openBlocks, separator ∈ block → block ∈ t.compounds.toList := by
  intro block hblock hsep
  cases h with
  | operation | nameless | root | passed => exact hs block hblock hsep
  | opened =>
    rcases List.mem_cons.mp hblock with rfl | hold
    · exact mem_noteCompound.mpr (.inr ⟨rfl, hsep⟩)
    · exact mem_noteCompound.mpr (.inl (hs block hold hsep))
  | closed sel closes innermost =>
    exact hs block (innermost ▸ List.mem_cons_of_mem _ hblock) hsep
  | recorded => exact mem_noteCompound.mpr (.inl (hs block hblock hsep))

/-- In a reading reached, the open blocks with a separator are among the compounds. -/
theorem Reached.mem_compounds_of_mem_openBlocks {depth : Nat} {before : List Text} {s : Reading}
    (h : Reached depth before s) :
    ∀ block ∈ s.openBlocks, separator ∈ block → block ∈ s.compounds.toList := by
  induction h with
  | start => exact fun block hblock => absurd hblock List.not_mem_nil
  | step line reached goesOn ih => exact (change_of_next goesOn).mem_compounds_of_mem_openBlocks ih

/-- A line that adds a field names a leaf inside a block; the flat name is the lead and this name,
which is noted if it holds a separator. -/
theorem leaf_of_fields_eq {depth index : Nat} {line : Text} {s : Reading} {field : Field}
    (h : (s.next depth index line).reading.fields = s.fields ++ [field]) :
    s.openBlocks ≠ [] ∧ ∃ name, selectedWord? line = some name ∧ isName name = true ∧
      field.flatName = s.lead ++ name ∧
      (s.next depth index line).reading.compounds = noteCompound s.compounds name := by
  rcases next_cases depth index s line with ⟨-, hchange⟩ | ⟨-, hhalt⟩
  · generalize (s.next depth index line).reading = t at h hchange
    cases hchange with
    | operation | nameless | root | opened | closed | passed => simp at h
    | @recorded name sel plain stays inside selects named =>
      obtain rfl : { flatName := s.lead ++ name } = field := by simpa using h
      exact ⟨inside, name, selects, named, rfl, rfl⟩
  · obtain ⟨lead, hlead⟩ := hhalt.exists_lead
    simp [hlead] at h

/-! ### The fields of a document -/

/-- The fields of a document are those that its lines record. -/
theorem mem_fields_ofDocument_iff {depth : Nat} {document : Text} {field : Field} :
    field ∈ (ofDocument depth document).fields ↔
      ∃ before line, before ++ [line] <+: trimmedLines document ∧
        Records depth before line field := by
  constructor
  · intro hfield
    obtain ⟨lines, s, lead, hlines, hs, hdoc⟩ := exists_reached_ofDocument depth document
    rw [hdoc] at hfield
    obtain ⟨before, line, hline, hrec⟩ := hs.records_of_mem field hfield
    exact ⟨before, line, hline.trans hlines, hrec⟩
  · rintro ⟨before, line, hline, s, hs, hadd⟩
    have hgrows := (grows_of_reached hs hline).fields.subset
    exact hgrows (by simp [hadd])

/-- The compounds of a document are names that it mentions, with a separator. -/
theorem mentions_of_mem_compounds {depth : Nat} {document name : Text}
    (h : name ∈ (ofDocument depth document).compounds.toList) :
    Mentions depth (trimmedLines document) name ∧ separator ∈ name := by
  obtain ⟨lines, s, lead, hlines, hs, hdoc⟩ := exists_reached_ofDocument depth document
  rw [hdoc] at h
  exact ⟨(hs.mentions_of_mem name h).mono hlines, hs.coherent.compounds name h⟩

/-- A document has no compounds if no name that it mentions holds a separator. -/
theorem compounds_eq_nil {depth : Nat} {document : Text}
    (h : ∀ name, Mentions depth (trimmedLines document) name → separator ∉ name) :
    (ofDocument depth document).compounds.toList = [] := by
  apply List.eq_nil_iff_forall_not_mem.mpr
  intro name hname
  obtain ⟨hmention, hsep⟩ := mentions_of_mem_compounds hname
  exact h name hmention hsep

/-- A field recorded at a line has the blocks open there and the name on the line in its flat name;
those of them with a separator are compounds of the document. -/
theorem flatName_of_records {depth : Nat} {document : Text} {before : List Text} {line : Text}
    {field : Field} (hkey : HasKeyword (trimmedLines document))
    (hline : before ++ [line] <+: trimmedLines document) (hrec : Records depth before line field) :
    ∃ name, selectedWord? line = some name ∧
      field.flatName = flatten (blocksAfter before ++ [name]) ∧
      ∀ n ∈ blocksAfter before ++ [name], separator ∈ n →
        n ∈ (ofDocument depth document).compounds.toList := by
  obtain ⟨s, hs, hadd⟩ := hrec
  obtain ⟨-, name, hword, -, hflat, hnoted⟩ := leaf_of_fields_eq hadd
  have hbefore : before <+: trimmedLines document := (List.prefix_append before [line]).trans hline
  have hblocks := hs.openBlocks_eq (hkey.of_prefix hbefore)
  have hgrows := (grows_of_reached hs hline).compounds.subset
  refine ⟨name, hword, ?_, ?_⟩
  · rw [hflat, hs.coherent.lead, hblocks, flatten_append_singleton]
  · intro n hn hsep
    apply hgrows
    rw [hnoted]
    rcases List.mem_append.mp hn with hblock | hleaf
    · rw [← hblocks, List.mem_reverse] at hblock
      exact mem_noteCompound.mpr (.inl (hs.mem_compounds_of_mem_openBlocks n hblock hsep))
    · obtain rfl := List.mem_singleton.mp hleaf
      exact mem_noteCompound.mpr (.inr ⟨rfl, hsep⟩)

end Reading

open Reading

/-- An accepted document has a first line with the keyword. -/
theorem hasKeyword_of_parse {depth : Nat} {document : Text} {q : Query}
    (h : Query.parse depth document = .ok q) : HasKeyword (trimmedLines document) := by
  obtain ⟨hname, -, -⟩ := Query.of_parse_eq_ok h
  obtain ⟨first, rest, hlines, hfirst⟩ := head?_of_operationName hname
  intro line hline
  rw [hlines, List.head?_cons, Option.mem_some] at hline
  rw [← hline, hfirst]
  exact OperationLine.noConfusion

/-- **Fields mirror the nesting**: the fields of an accepted document are those that its lines
record, and a field recorded at a line has the blocks open there and the name on the line, joined,
as its flat name. The segments of the flat name are these names again iff no compound of the
document strictly extends one of the blocks. If no name that the document mentions holds a
separator, the accessor has one component for each of them. -/
theorem nesting_of_recorded_field {depth : Nat} {document : Text} {q : Query}
    (h : Query.parse depth document = .ok q) :
    (∀ field, field ∈ q.fields ↔ ∃ before line,
      before ++ [line] <+: trimmedLines document ∧ Records depth before line field) ∧
    ∀ before line field, before ++ [line] <+: trimmedLines document →
      Records depth before line field →
      ∃ name, selectedWord? line = some name ∧
        field.flatName = flatten (blocksAfter before ++ [name]) ∧
        (q.segmentsOf field.flatName = blocksAfter before ++ [name] ↔
          ∀ block ∈ blocksAfter before, ∀ m ∈ q.compounds.toList, ¬ (block <+: m ∧ block ≠ m)) ∧
        ((∀ mentioned, Mentions depth (trimmedLines document) mentioned → separator ∉ mentioned) →
          (q.accessor field.flatName).expression = q.rootName ++ "." ++
            joinWith "." ((blocksAfter before ++ [name]).map q.shape.component)) := by
  obtain ⟨-, hfields, hcompounds⟩ := Query.of_parse_eq_ok h
  refine ⟨fun field => hfields ▸ mem_fields_ofDocument_iff, ?_⟩
  intro before line field hline hrec
  obtain ⟨name, hword, hflat, hmem⟩ := flatName_of_records (hasKeyword_of_parse h) hline hrec
  rw [hcompounds] at hmem
  have hsegments : q.segmentsOf field.flatName = blocksAfter before ++ [name] ↔
      ∀ block ∈ blocksAfter before, ∀ m ∈ q.compounds.toList, ¬ (block <+: m ∧ block ≠ m) := by
    rw [hflat, Query.segmentsOf, segments_flatten_eq_self_iff, isCut_iff_of_mem (by simp) hmem,
      List.dropLast_concat]
  refine ⟨name, hword, hflat, hsegments, fun hplain => ?_⟩
  have hnone : q.compounds.toList = [] := hcompounds ▸ compounds_eq_nil hplain
  have hself : q.segmentsOf field.flatName = blocksAfter before ++ [name] := by
    rw [hsegments, hnone]
    exact fun _ _ m hm => absurd hm List.not_mem_nil
  rw [Query.accessor, hself]

/-- A document in which the text of a block begins a name further down. -/
def deviceDocument : Text :=
  "query Device \x7b\n D \x7b\n edges \x7b\n device \x7b\n name\n \x7d\n device_type\n" ++
  " \x7d\n \x7d\n\x7d"

/-- In `deviceDocument`, `name` is recorded below `edges` and `device`, and its flat name has other
segments, since `device_type` comes later. So its accessor has one component fewer. -/
theorem nesting_of_device_name :
    ∃ q before, Query.parse 1 deviceDocument = .ok q ∧ q.compounds.toList = ["device_type".toList] ∧
      before ++ ["name".toList] <+: trimmedLines deviceDocument ∧
      Records 1 before "name" { flatName := "edges_device_name" } ∧
      blocksAfter before = ["edges".toList, "device".toList] ∧
      "edges_device_name".toList = flatten ["edges".toList, "device".toList, "name".toList] ∧
      q.segmentsOf "edges_device_name" ≠ ["edges".toList, "device".toList, "name".toList] ∧
      q.segmentsOf "edges_device_name" = ["edges".toList, "device_name".toList] ∧
      (q.accessor "edges_device_name").expression = "D.Edges[i].Device_name".toList := by
  have reading : ofDocument 1 deviceDocument =
      { operationName := some "device".toList
        rootName := "D"
        fields := [{ flatName := "edges_device_name" }, { flatName := "edges_device_type" }]
        flatNames := .ofList ["edges_device_name".toList, "edges_device_type".toList]
        compounds := .ofList ["device_type".toList] } := by decide +kernel
  have accepted : Query.parse 1 deviceDocument = .ok
      { operationName := "device"
        rootName := "D"
        shape := .collection
        fields := [{ flatName := "edges_device_name" }, { flatName := "edges_device_type" }]
        compounds := .ofList ["device_type".toList] } := by rw [Query.parse, reading]; rfl
  have reached : Reached 1 ["query Device \x7b".toList, "D \x7b".toList, "edges \x7b".toList,
      "device \x7b".toList] _ :=
    (((Reached.start.step "query Device \x7b" (by decide)).step "D \x7b" (by decide)).step
      "edges \x7b" (by decide)).step "device \x7b" (by decide)
  have hline : ["query Device \x7b".toList, "D \x7b".toList, "edges \x7b".toList,
      "device \x7b".toList] ++ ["name".toList] <+: trimmedLines deviceDocument := by decide +kernel
  have hrecords : Records 1 ["query Device \x7b".toList, "D \x7b".toList, "edges \x7b".toList,
      "device \x7b".toList] "name" { flatName := "edges_device_name" } :=
    ⟨_, reached, by decide +kernel⟩
  obtain ⟨name, hword, hflat, hiff, -⟩ :=
    (nesting_of_recorded_field accepted).2 _ "name" _ hline hrecords
  obtain rfl : "name".toList = name := Option.some.inj (by rw [← hword]; decide)
  have hblocks : blocksAfter ["query Device \x7b".toList, "D \x7b".toList, "edges \x7b".toList,
      "device \x7b".toList] = ["edges".toList, "device".toList] := by decide
  rw [hblocks] at hflat hiff
  refine ⟨_, _, accepted, by decide, hline, hrecords, hblocks, hflat, fun hsegments => ?_,
    by decide, by decide⟩
  exact hiff.mp hsegments "device" (by decide) "device_type" (by decide) (by decide)

end DataSourceGen
