import DataSourceGen.Proofs.Reading.Depth

/-!
# The sections of a document

A document has three sections: its first line, its second line, and all lines below them. The first
names the operation, the second the root object, and the rest makes the selections. No section
reaches into another: reading a line of selections commutes with a change of the heading
(`select_headed`), so that the selections of a document are those of the lines below its heading,
read by themselves (`ofDocument_eq_headed`). **Theorem** (`parse_of_sections`) compares two
documents, section by section. -/

namespace DataSourceGen

open Text

namespace Reading

/-! ### The heading and the selections -/

/-- A reading with another heading. -/
def headed (s : Reading) (operationName : Option Text) (rootName : Text)
    (parameter : Option Text) : Reading :=
  { s with operationName, rootName, parameter }

section

variable {operationName parameter : Option Text} {rootName : Text}

theorem closeBlock_headed (depth : Nat) (s : Reading) :
    (s.headed operationName rootName parameter).closeBlock depth =
      { s.closeBlock depth with
        reading := (s.closeBlock depth).reading.headed operationName rootName parameter } := by
  unfold closeBlock headed
  dsimp only
  split
  · rfl
  · split
    · rfl
    · rfl

theorem recordLeaf_headed (s : Reading) (line : Text) :
    (s.headed operationName rootName parameter).recordLeaf line =
      { s.recordLeaf line with
        reading := (s.recordLeaf line).reading.headed operationName rootName parameter } := by
  unfold recordLeaf headed
  split
  · rfl
  · dsimp only
    split
    · rfl
    · split
      · rfl
      · rfl

/-- **Selections do not touch the heading**: a line of selections does the same under every heading,
and leaves it as it is. -/
theorem select_headed (depth : Nat) (s : Reading) (line : Text) :
    (s.headed operationName rootName parameter).select depth line =
      { s.select depth line with
        reading := (s.select depth line).reading.headed operationName rootName parameter } := by
  unfold select
  split
  · rfl
  · split
    · exact closeBlock_headed depth s
    · split
      · next outside => rw [if_pos (show s.openBlocks.isEmpty = true from outside)]
      · next inside =>
        rw [if_neg (show ¬ s.openBlocks.isEmpty = true from inside)]
        exact recordLeaf_headed s line

/-- A run over lines of selections does the same under every heading. -/
theorem run_headed (depth : Nat) :
    (raw : List Text) → ∀ (index : Nat) (s : Reading), 2 ≤ index →
      ((s.headed operationName rootName parameter).run depth index raw).1 =
        (s.run depth index raw).1.headed operationName rootName parameter
  | [], _, _, _ => rfl
  | line :: rest, index, s, hindex => by
      have sel := readsSelections_of_two_le hindex (trim line)
      simp only [run, next_eq_select sel, select_headed]
      split
      · rfl
      · exact run_headed depth rest (index + 1) _ (by omega)

end

/-- A run judges its lines by what trimming leaves of them. -/
theorem run_eq_of_map_trim_eq (depth : Nat) :
    {raw raw' : List Text} → raw.map trim = raw'.map trim →
      ∀ index s, run depth index s raw = run depth index s raw'
  | [], raw', h, index, s => by
      obtain rfl := List.map_eq_nil_iff.mp h.symm
      rfl
  | line :: rest, raw', h, index, s => by
      obtain ⟨line', rest', rfl, hline, hrest⟩ := List.map_eq_cons_iff.mp h.symm
      simp only [run, hline, run_eq_of_map_trim_eq depth hrest.symm]

/-! ### Above the selections -/

/-- Up to the second line, a reading has a heading and nothing else. -/
theorem Reached.eq_headed {depth : Nat} {before : List Text} {s : Reading}
    (h : Reached depth before s) (hkey : HasKeyword before) (hshort : before.length ≤ 2) :
    s = headed {} s.operationName s.rootName s.parameter := by
  induction h with
  | start => rfl
  | @step before s line reached goesOn ih =>
    rw [List.length_append, List.length_singleton] at hshort
    have hs := ih (hkey.of_prefix (List.prefix_append before [line])) (by omega)
    have heading : ¬ ReadsSelections before.length line := fun sel => by
      have := two_le_of_readsSelections hkey sel
      omega
    have hchange := change_of_next goesOn
    generalize (s.next depth before.length line).reading = t at hchange
    cases hchange with
    | operation | nameless | root =>
      rw [hs]
      rfl
    | opened sel | closed sel | recorded sel | passed sel => exact absurd sel heading

/-- The heading of an accepted document is read to its end. -/
theorem exists_reached_heading (depth : Nat) {heading : List Text} (hkey : HasKeyword heading)
    (hshort : heading.length ≤ 2) :
    ∃ operationName rootName parameter,
      Reached depth heading (headed {} operationName rootName parameter) := by
  rcases reached_or_ends depth heading with ⟨s, hs⟩ | ⟨before, line, s, hline, hs, hstops⟩
  · refine ⟨s.operationName, s.rootName, s.parameter, ?_⟩
    rw [← hs.eq_headed hkey hshort]
    exact hs
  · have hlong := two_le_of_readsSelections (hkey.of_prefix hline)
      (next_stops_iff.mp hstops).1
    have hlength := hline.length_le
    rw [List.length_append, List.length_singleton] at hlength
    omega

/-- What the lines below a heading select, read by themselves. -/
def selectionsOf (depth : Nat) (below : List Text) : Reading :=
  (run depth 2 {} below).1

/-- **The selections of a document** whose first line has the keyword are those of the lines below
its heading. -/
theorem ofDocument_eq_headed (depth : Nat) {document : Text}
    (hkey : HasKeyword (trimmedLines document)) :
    ∃ operationName rootName parameter, ofDocument depth document =
      (selectionsOf depth ((lines document).drop 2)).headed operationName rootName parameter := by
  have hheading : ((lines document).take 2).map trim = (trimmedLines document).take 2 :=
    List.map_take
  obtain ⟨operationName, rootName, parameter, hs⟩ := exists_reached_heading depth
    (hkey.of_prefix (List.take_prefix 2 _)) (List.length_take_le 2 (trimmedLines document))
  refine ⟨operationName, rootName, parameter, ?_⟩
  have hrun := run_append_of_reached hs _ hheading ((lines document).drop 2)
  rw [List.take_append_drop] at hrun
  rw [ofDocument, hrun, selectionsOf]
  by_cases hlong : 2 ≤ (lines document).length
  · have hlength : ((trimmedLines document).take 2).length = 2 := by
      rw [List.length_take, trimmedLines, List.length_map]
      omega
    rw [hlength]
    exact run_headed depth _ 2 {} (Nat.le_refl 2)
  · rw [List.drop_eq_nil_of_le (by omega)]
    rfl

end Reading

open Reading

/-- **The sections of a document do not influence each other**: of two accepted documents, whatever
else is in them, those with the same first line have the same operation name, those with the same
second line have the same root object and shape, and those with the same lines from the third on
have the same fields and compounds. Lines are the same here if trimming leaves the same of them. -/
theorem parse_of_sections {depth : Nat} {d₁ d₂ : Text} {q₁ q₂ : Query}
    (h₁ : Query.parse depth d₁ = .ok q₁) (h₂ : Query.parse depth d₂ = .ok q₂) :
    ((trimmedLines d₁)[0]? = (trimmedLines d₂)[0]? → q₁.operationName = q₂.operationName) ∧
    ((trimmedLines d₁)[1]? = (trimmedLines d₂)[1]? →
      q₁.rootName = q₂.rootName ∧ q₁.shape = q₂.shape) ∧
    ((trimmedLines d₁).drop 2 = (trimmedLines d₂).drop 2 →
      q₁.fields = q₂.fields ∧ q₁.compounds = q₂.compounds) := by
  refine ⟨?_, ?_, ?_⟩
  · intro hfirst
    apply Query.operationName_eq h₂ h₁
    rw [headingName?, headingName?, List.head?_eq_getElem?, List.head?_eq_getElem?, hfirst]
  · intro hsecond
    apply Query.root_eq h₂ h₁
    rw [rootLineOf, rootLineOf, hsecond]
  · intro hbelow
    obtain ⟨-, -, -, hfields₁, hcompounds₁⟩ := Query.parse_eq_ok_iff.mp h₁
    obtain ⟨-, -, -, hfields₂, hcompounds₂⟩ := Query.parse_eq_ok_iff.mp h₂
    obtain ⟨_, _, _, hd₁⟩ := ofDocument_eq_headed depth (hasKeyword_of_parse h₁)
    obtain ⟨_, _, _, hd₂⟩ := ofDocument_eq_headed depth (hasKeyword_of_parse h₂)
    have hselections : selectionsOf depth ((lines d₁).drop 2) =
        selectionsOf depth ((lines d₂).drop 2) := by
      rw [trimmedLines, trimmedLines, ← List.map_drop, ← List.map_drop] at hbelow
      rw [selectionsOf, selectionsOf, run_eq_of_map_trim_eq depth hbelow]
    rw [hfields₁, hfields₂, hcompounds₁, hcompounds₂, hd₁, hd₂, hselections]
    exact ⟨rfl, rfl⟩

/-- Lines of selections in which a block opens, and a line that reads like an operation. -/
def queryBelowHeading : Text :=
  "edges \x7b\n host_name \x7b\n query x\n \x7d\n"

/-- A collection over these selections. -/
def hostsDocument : Text :=
  "query Hosts \x7b\nhosts \x7b\n" ++ queryBelowHeading

/-- The same selections below a second line that would close a block elsewhere. -/
def closedRootDocument : Text :=
  "query Closed($id: ID)\n \x7d\n\t" ++ queryBelowHeading

/-- The same second line, without selections. -/
def bareDocument : Text :=
  "query Bare\n\x7d"

/-- Two headings over the same selections give the same field and compound, and the second line
`}` gives the same root object with and without them. -/
theorem parse_of_sections_closedRootDocument :
    ∃ q₁ q₂ q₃, Query.parse 1 hostsDocument = .ok q₁ ∧ Query.parse 1 closedRootDocument = .ok q₂ ∧
      Query.parse 1 bareDocument = .ok q₃ ∧
      q₁.operationName = "hosts".toList ∧ q₂.operationName = "closed".toList ∧
      q₁.rootName = "hosts".toList ∧ q₂.rootName = "\x7d".toList ∧
      q₁.fields = q₂.fields ∧ q₁.fields.map Field.flatName = ["edges_host_name_query".toList] ∧
      q₁.compounds = q₂.compounds ∧ q₂.rootName = q₃.rootName ∧ q₂.shape = q₃.shape := by
  have hosts : ∃ q, Query.parse 1 hostsDocument = .ok q ∧ q.operationName = "hosts".toList ∧
      q.rootName = "hosts".toList ∧
      q.fields.map Field.flatName = ["edges_host_name_query".toList] := ⟨_, rfl, rfl, rfl, rfl⟩
  have closed : ∃ q, Query.parse 1 closedRootDocument = .ok q ∧
      q.operationName = "closed".toList ∧ q.rootName = "\x7d".toList := ⟨_, rfl, rfl, rfl⟩
  have bare : ∃ q, Query.parse 1 bareDocument = .ok q := ⟨_, rfl⟩
  obtain ⟨q₁, h₁, hoperation₁, hroot₁, hfields₁⟩ := hosts
  obtain ⟨q₂, h₂, hoperation₂, hroot₂⟩ := closed
  obtain ⟨q₃, h₃⟩ := bare
  obtain ⟨-, -, hselections⟩ := parse_of_sections h₁ h₂
  obtain ⟨-, hroot, -⟩ := parse_of_sections h₂ h₃
  obtain ⟨hfields, hcompounds⟩ := hselections (by rfl)
  obtain ⟨hrootName, hshape⟩ := hroot (by rfl)
  exact ⟨q₁, q₂, q₃, h₁, h₂, h₃, hoperation₁, hoperation₂, hroot₁, hroot₂, hfields, hfields₁,
    hcompounds, hrootName, hshape⟩

end DataSourceGen
