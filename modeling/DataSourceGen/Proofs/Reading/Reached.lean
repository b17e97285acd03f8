import DataSourceGen.Query.Reading

/-!
# The readings that are reached

What a line can do is said once, in `next_cases`: it makes a `Change`, or it is the last line and
makes a `Halt`. Later proofs go by these cases and need not open `Reading.next` again.

`Reached depth before s` says that `s` is the reading after the lines `before`, none of which was
the last. A document is read along such readings: its own reading is the one after all of its lines,
or what a `Halt` leaves of one on the way (`ofDocument_cases`). From each reading on the way the
fields and the compounds only grow (`grows_of_reached`). -/

namespace DataSourceGen

open Text

/-- The lines of a document, as they are judged. -/
def Text.trimmedLines (document : Text) : List Text :=
  (lines document).map trim

namespace Reading

/-! ### One line -/

/-- A closing line opens no block. -/
theorem openedBlock?_closingLine : openedBlock? closingLine = none := by decide

/-- Whether a line is read as one of selections: not the second line, and the first only if it does
not start with the keyword. -/
def ReadsSelections (index : Nat) (line : Text) : Prop :=
  index ≠ 1 ∧ (index = 0 → OperationLine.ofLine line = .other)

/-- From the third line on, all lines are lines of selections. -/
theorem readsSelections_of_two_le {index : Nat} (h : 2 ≤ index) (line : Text) :
    ReadsSelections index line :=
  ⟨by omega, fun h0 => by omega⟩

/-- A line of selections is read as such. -/
theorem next_eq_select {index : Nat} {line : Text} (h : ReadsSelections index line) (depth : Nat)
    (s : Reading) : s.next depth index line = s.select depth line := by
  obtain ⟨hsecond, hfirst⟩ := h
  match index with
  | 0 => simp only [next, hfirst rfl]
  | 1 => exact absurd rfl hsecond
  | _ + 2 => rfl

/-- What a line that is not the last makes of a reading. -/
inductive Change (depth index : Nat) (line : Text) (s : Reading) : Reading → Prop where
  | operation {name : Text} (first : index = 0) (named : OperationLine.ofLine line = .named name) :
      Change depth index line s { s with operationName := some name }
  /-- A first line with the keyword and without a name. -/
  | nameless (first : index = 0) (keyword : OperationLine.ofLine line ≠ .other)
      (unnamed : ∀ name, OperationLine.ofLine line ≠ .named name) : Change depth index line s s
  | root (second : index = 1) :
      Change depth index line s { s with
        rootName := (RootLine.ofLine line).name
        parameter := (RootLine.ofLine line).parameter }
  | opened {block : Text} (sel : ReadsSelections index line)
      (opens : openedBlock? line = some block) :
      Change depth index line s { s with
        compounds := noteCompound s.compounds block
        lead := s.lead ++ block ++ [separator]
        openBlocks := block :: s.openBlocks }
  | closed {block : Text} {outer : List Text} (sel : ReadsSelections index line)
      (closes : line = closingLine) (innermost : s.openBlocks = block :: outer)
      (inside : depth ≤ s.lead.count separator) :
      Change depth index line s { s with
        lead := truncate (byteSize s.lead - (byteSize block + separator.utf8Size)) s.lead
        openBlocks := outer }
  | recorded {name : Text} (sel : ReadsSelections index line) (plain : openedBlock? line = none)
      (stays : line ≠ closingLine) (inside : s.openBlocks ≠ [])
      (selects : selectedWord? line = some name) (named : isName name = true)
      (isNew : s.lead ++ name ∉ s.flatNames.toList) :
      Change depth index line s { s with
        flatNames := s.flatNames.insert (s.lead ++ name)
        compounds := noteCompound s.compounds name
        fields := s.fields ++ [{ flatName := s.lead ++ name }] }
  /-- A line of selections that opens and closes nothing and has no new leaf. -/
  | passed (sel : ReadsSelections index line) (plain : openedBlock? line = none)
      (stays : line ≠ closingLine) : Change depth index line s s

/-- What the last line of a reading leaves of it. -/
inductive Halt (depth index : Nat) (line : Text) (s : Reading) : Reading → Prop where
  /-- A wrapper is closed. -/
  | wrapper (sel : ReadsSelections index line) (closes : line = closingLine)
      (outside : s.lead.count separator < depth) : Halt depth index line s { s with lead := [] }
  /-- There is no block to close. -/
  | bottom (sel : ReadsSelections index line) (closes : line = closingLine)
      (inside : depth ≤ s.lead.count separator) (bare : s.openBlocks = []) :
      Halt depth index line s s

/-- What a step does: it goes on with a changed reading, or it is the last. -/
def Outcome (depth index : Nat) (line : Text) (s : Reading) (step : Step) : Prop :=
  (step.stops = false ∧ Change depth index line s step.reading) ∨
    (step.stops = true ∧ Halt depth index line s step.reading)

/-- The outcomes of a closing line. -/
theorem closeBlock_cases {index : Nat} {line : Text} (sel : ReadsSelections index line)
    (closes : line = closingLine) (depth : Nat) (s : Reading) :
    Outcome depth index line s (s.closeBlock depth) := by
  unfold closeBlock
  by_cases hdepth : s.lead.count separator < depth
  · rw [if_pos hdepth]
    exact .inr ⟨rfl, .wrapper sel closes hdepth⟩
  · rw [if_neg hdepth]
    have inside : depth ≤ s.lead.count separator := by omega
    split
    · next bare => exact .inr ⟨rfl, .bottom sel closes inside bare⟩
    · next block outer hopen => exact .inl ⟨rfl, .closed sel closes hopen inside⟩

/-- The outcomes of a line that opens and closes nothing, inside a block. -/
theorem recordLeaf_cases {index : Nat} {line : Text} (sel : ReadsSelections index line)
    (plain : openedBlock? line = none) (stays : line ≠ closingLine) {s : Reading}
    (inside : s.openBlocks ≠ []) (depth : Nat) :
    Outcome depth index line s (s.recordLeaf line) := by
  unfold recordLeaf
  split
  · exact .inl ⟨rfl, .passed sel plain stays⟩
  · next name hword =>
    dsimp only
    by_cases hname : isName name = true
    · rw [if_neg (by simp [hname])]
      by_cases hnew : s.lead ++ name ∈ s.flatNames.toList
      · rw [if_pos (NameSet.contains_iff.mpr hnew)]
        exact .inl ⟨rfl, .passed sel plain stays⟩
      · rw [if_neg (by simpa using hnew)]
        exact .inl ⟨rfl, .recorded sel plain stays inside hword hname hnew⟩
    · rw [if_pos (by simpa using hname)]
      exact .inl ⟨rfl, .passed sel plain stays⟩

/-- The outcomes of a line of selections. -/
theorem select_cases {index : Nat} {line : Text} (sel : ReadsSelections index line) (depth : Nat)
    (s : Reading) : Outcome depth index line s (s.select depth line) := by
  unfold select
  rcases opens : openedBlock? line with _ | block
  · by_cases closes : line = closingLine
    · simp only [if_pos closes]
      exact closeBlock_cases sel closes depth s
    · simp only [if_neg closes]
      by_cases outside : s.openBlocks = []
      · rw [if_pos (by simp [outside])]
        exact .inl ⟨rfl, .passed sel opens closes⟩
      · rw [if_neg (by simpa using outside)]
        exact recordLeaf_cases sel opens closes outside depth
  · exact .inl ⟨rfl, .opened sel opens⟩

/-- **Inversion**: all that one line can do to a reading. -/
theorem next_cases (depth index : Nat) (s : Reading) (line : Text) :
    Outcome depth index line s (s.next depth index line) := by
  by_cases sel : ReadsSelections index line
  · rw [next_eq_select sel]
    exact select_cases sel depth s
  · left
    match index with
    | 0 =>
      have keyword : OperationLine.ofLine line ≠ .other :=
        fun hother => sel ⟨by omega, fun _ => hother⟩
      rcases hline : OperationLine.ofLine line with _ | _ | word | name
      · exact absurd hline keyword
      · simp only [next, hline]
        exact ⟨rfl, .nameless rfl keyword (by simp [hline])⟩
      · simp only [next, hline]
        exact ⟨rfl, .nameless rfl keyword (by simp [hline])⟩
      · simp only [next, hline]
        exact ⟨rfl, .operation rfl hline⟩
    | 1 => exact ⟨rfl, .root rfl⟩
    | n + 2 => exact absurd (readsSelections_of_two_le (by omega) line) sel

/-- A line that is not the last makes a change. -/
theorem change_of_next {depth index : Nat} {s : Reading} {line : Text}
    (h : (s.next depth index line).stops = false) :
    Change depth index line s (s.next depth index line).reading := by
  rcases next_cases depth index s line with ⟨-, hchange⟩ | ⟨hstops, -⟩
  · exact hchange
  · rw [h] at hstops
    cases hstops

/-- The last line makes a halt. -/
theorem halt_of_next {depth index : Nat} {s : Reading} {line : Text}
    (h : (s.next depth index line).stops = true) :
    Halt depth index line s (s.next depth index line).reading := by
  rcases next_cases depth index s line with ⟨hstops, -⟩ | ⟨-, hhalt⟩
  · rw [h] at hstops
    cases hstops
  · exact hhalt

/-- The last line leaves all of a reading but its lead. -/
theorem Halt.exists_lead {depth index : Nat} {line : Text} {s t : Reading}
    (h : Halt depth index line s t) : ∃ lead, t = { s with lead } := by
  cases h with
  | wrapper => exact ⟨[], rfl⟩
  | bottom => exact ⟨s.lead, rfl⟩

/-! ### What grows -/

/-- A later reading of the same document: what was recorded stays, in its place. -/
structure Grows (s t : Reading) : Prop where
  fields : s.fields <+: t.fields
  compounds : s.compounds.toList <+: t.compounds.toList

/-- A reading is no smaller than itself. -/
theorem Grows.refl (s : Reading) : Grows s s :=
  ⟨List.prefix_refl s.fields, List.prefix_refl s.compounds.toList⟩

/-- Growth in two steps is growth. -/
theorem Grows.trans {s t u : Reading} (hst : Grows s t) (htu : Grows t u) : Grows s u :=
  ⟨hst.fields.trans htu.fields, hst.compounds.trans htu.compounds⟩

/-- The members after a name was noted. -/
theorem mem_noteCompound {compounds : NameSet} {name other : Text} :
    other ∈ (noteCompound compounds name).toList ↔
      other ∈ compounds.toList ∨ other = name ∧ separator ∈ name := by
  unfold noteCompound
  by_cases h : separator ∈ name
  · simp [h]
  · simp [h]

/-- Noting a name keeps the members in their place. -/
theorem prefix_noteCompound (compounds : NameSet) (name : Text) :
    compounds.toList <+: (noteCompound compounds name).toList := by
  unfold noteCompound
  split
  · rw [NameSet.toList_insert]
    split
    · exact List.prefix_refl _
    · exact List.prefix_append _ _
  · exact List.prefix_refl _

/-- A change keeps all that was recorded. -/
theorem Change.grows {depth index : Nat} {line : Text} {s t : Reading}
    (h : Change depth index line s t) : Grows s t := by
  cases h with
  | operation | nameless | root | closed | passed =>
    exact ⟨List.prefix_refl _, List.prefix_refl _⟩
  | opened => exact ⟨List.prefix_refl _, prefix_noteCompound _ _⟩
  | recorded => exact ⟨List.prefix_append _ _, prefix_noteCompound _ _⟩

/-- A line keeps all that was recorded. -/
theorem grows_next (depth index : Nat) (s : Reading) (line : Text) :
    Grows s (s.next depth index line).reading := by
  rcases next_cases depth index s line with ⟨-, hchange⟩ | ⟨-, hhalt⟩
  · exact hchange.grows
  · obtain ⟨lead, hlead⟩ := hhalt.exists_lead
    rw [hlead]
    exact ⟨List.prefix_refl s.fields, List.prefix_refl s.compounds.toList⟩

/-- A run keeps all that was recorded before it. -/
theorem grows_run (depth : Nat) :
    (raw : List Text) → ∀ index s, Grows s (s.run depth index raw).1
  | [], _, s => Grows.refl s
  | line :: rest, index, s => by
      have hstep := grows_next depth index s (trim line)
      simp only [run]
      split
      · exact hstep
      · exact hstep.trans (grows_run depth rest (index + 1) _)

/-! ### The readings on the way -/

/-- The readings after some lines, as long as none of them was the last. -/
inductive Reached (depth : Nat) : List Text → Reading → Prop where
  | start : Reached depth [] {}
  | step {before : List Text} {s : Reading} (line : Text) (reached : Reached depth before s)
      (goesOn : (s.next depth before.length line).stops = false) :
      Reached depth (before ++ [line]) (s.next depth before.length line).reading

/-- The reading after a step that is known and goes on. -/
theorem Reached.of_next_eq {depth : Nat} {before : List Text} {line : Text} {s : Reading}
    {step : Step} (h : Reached depth before s) (hnext : s.next depth before.length line = step)
    (hgoesOn : step.stops = false) : Reached depth (before ++ [line]) step.reading := by
  subst hnext
  exact h.step line hgoesOn

/-- A run over the lines after which a reading is reached goes on from that reading, and reports what
is reported up to there first. -/
theorem run_append_eq {depth : Nat} {before : List Text} {s : Reading}
    (h : Reached depth before s) :
    ∀ raw, raw.map trim = before → ∀ rest,
      run depth 0 {} (raw ++ rest) =
        ((s.run depth before.length rest).1,
          (run depth 0 {} raw).2 ++ (s.run depth before.length rest).2) := by
  induction h with
  | start =>
      intro raw hraw rest
      obtain rfl := List.map_eq_nil_iff.mp hraw
      rfl
  | @step before s line reached goesOn ih =>
      intro raw hraw rest
      obtain ⟨raw', last, rfl, hraw', hlast⟩ := List.map_eq_append_iff.mp hraw
      obtain ⟨l, rfl, rfl⟩ := List.map_eq_singleton_iff.mp hlast
      rw [List.append_assoc, ih raw' hraw', ih raw' hraw', List.singleton_append, List.length_append]
      simp [run, goesOn]

/-- The reading at the end of such a run. -/
theorem run_append_of_reached {depth : Nat} {before : List Text} {s : Reading}
    (h : Reached depth before s) (raw : List Text) (hraw : raw.map trim = before)
    (rest : List Text) :
    (run depth 0 {} (raw ++ rest)).1 = (s.run depth before.length rest).1 := by
  rw [run_append_eq h raw hraw]

/-- A run from a reading reached ends with a reading reached, or at a halt. -/
theorem run_cases {depth : Nat} :
    (raw : List Text) → ∀ {before s}, Reached depth before s →
      Reached depth (before ++ raw.map trim) (s.run depth before.length raw).1 ∨
      ∃ mid line after t, raw.map trim = mid ++ line :: after ∧ Reached depth (before ++ mid) t ∧
        Halt depth (before ++ mid).length line t (s.run depth before.length raw).1
  | [], _, _, h => .inl (by simpa [run] using h)
  | line :: rest, before, s, h => by
      by_cases hstops : (s.next depth before.length (trim line)).stops = true
      · right
        refine ⟨[], trim line, rest.map trim, s, rfl, by simpa using h, ?_⟩
        simp only [run, hstops, if_true, List.append_nil]
        exact halt_of_next hstops
      · have goesOn : (s.next depth before.length (trim line)).stops = false := by
          simpa using hstops
        have hrun : (s.run depth before.length (line :: rest)).1 =
            ((s.next depth before.length (trim line)).reading.run depth
              (before ++ [trim line]).length rest).1 := by
          simp only [run, goesOn, List.length_append]
          rfl
        rw [hrun]
        rcases run_cases rest (h.step (trim line) goesOn) with hall | ⟨mid, l, after, t, hm, ht, hh⟩
        · left
          simpa using hall
        · right
          refine ⟨trim line :: mid, l, after, t, by simp [hm], by simpa using ht, ?_⟩
          simpa using hh

/-- **The reading of a document** is the one after all of its lines, or what is left at the first
line that ends the reading. -/
theorem ofDocument_cases (depth : Nat) (document : Text) :
    Reached depth (trimmedLines document) (ofDocument depth document) ∨
    ∃ before line after s, trimmedLines document = before ++ line :: after ∧
      Reached depth before s ∧ Halt depth before.length line s (ofDocument depth document) := by
  rcases run_cases (lines document) (.start : Reached depth [] {}) with
    hall | ⟨before, line, after, s, hlines, hs, hhalt⟩
  · exact .inl hall
  · exact .inr ⟨before, line, after, s, hlines, hs, hhalt⟩

/-- But for its lead, the reading of a document is one reached on the way. -/
theorem exists_reached_ofDocument (depth : Nat) (document : Text) :
    ∃ before s lead, before <+: trimmedLines document ∧ Reached depth before s ∧
      ofDocument depth document = { s with lead } := by
  rcases ofDocument_cases depth document with hall | ⟨before, line, after, s, hlines, hs, hhalt⟩
  · exact ⟨_, _, _, List.prefix_refl _, hall, rfl⟩
  · obtain ⟨lead, hlead⟩ := hhalt.exists_lead
    exact ⟨before, s, lead, hlines ▸ List.prefix_append before (line :: after), hs, hlead⟩

/-- A document is read on from a reading on the way. -/
theorem ofDocument_of_reached {depth : Nat} {document : Text} {before : List Text} {line : Text}
    {s : Reading} (h : Reached depth before s)
    (hline : before ++ [line] <+: trimmedLines document) :
    ∃ raw rest, trim raw = line ∧
      ofDocument depth document = (s.run depth before.length (raw :: rest)).1 := by
  obtain ⟨after, hlines⟩ := hline
  rw [List.append_assoc, List.singleton_append] at hlines
  obtain ⟨lines', rest, hlines', hbefore, hrest⟩ := List.map_eq_append_iff.mp hlines.symm
  obtain ⟨raw, rest', rfl, htrim, -⟩ := List.map_eq_cons_iff.mp hrest
  refine ⟨raw, rest', htrim, ?_⟩
  rw [ofDocument, hlines', run_append_of_reached h lines' hbefore]

/-- What the line after a reading on the way records is in the reading of the document. -/
theorem grows_of_reached {depth : Nat} {document : Text} {before : List Text} {line : Text}
    {s : Reading} (h : Reached depth before s)
    (hline : before ++ [line] <+: trimmedLines document) :
    Grows (s.next depth before.length line).reading (ofDocument depth document) := by
  obtain ⟨raw, rest, rfl, hdoc⟩ := ofDocument_of_reached h hline
  rw [hdoc]
  simp only [run]
  split
  · exact Grows.refl _
  · exact grows_run depth rest _ _

/-- If the line after a reading on the way is the last, then the rest of the document is not read.
-/
theorem ofDocument_eq_of_stops {depth : Nat} {document : Text} {before : List Text} {line : Text}
    {s : Reading} (h : Reached depth before s)
    (hline : before ++ [line] <+: trimmedLines document)
    (hstops : (s.next depth before.length line).stops = true) :
    ofDocument depth document = (s.next depth before.length line).reading := by
  obtain ⟨raw, rest, rfl, hdoc⟩ := ofDocument_of_reached h hline
  rw [hdoc]
  simp only [run, hstops, if_true]

/-! ### The first line -/

/-- The operation name that a first line gives, if any. -/
def operationName? (line : Text) : Option Text :=
  match OperationLine.ofLine line with
  | .named name => some name
  | _ => none

/-- A line that is a line of selections gives no operation name. -/
theorem operationName?_of_other {line : Text} (h : OperationLine.ofLine line = .other) :
    operationName? line = none := by
  simp only [operationName?, h]

/-- After the first line, a change leaves the operation name. -/
theorem Change.operationName {depth index : Nat} {line : Text} {s t : Reading}
    (h : Change depth index line s t) :
    t.operationName = if index = 0 then (operationName? line).or s.operationName
      else s.operationName := by
  cases h with
  | operation first named => simp [first, operationName?, named]
  | nameless first keyword unnamed =>
    rcases hline : OperationLine.ofLine line with _ | _ | word | name
    · exact absurd hline keyword
    · simp [operationName?, hline]
    · simp [operationName?, hline]
    · exact absurd hline (unnamed name)
  | root second => simp [second]
  | opened sel | closed sel | recorded sel | passed sel =>
    split
    · next first => simp [operationName?_of_other (sel.2 first)]
    · rfl

/-- The operation name of a reading is the one that the first line gives. -/
theorem Reached.operationName {depth : Nat} {before : List Text} {s : Reading}
    (h : Reached depth before s) : s.operationName = before.head?.bind operationName? := by
  induction h with
  | start => rfl
  | @step before s line reached goesOn ih =>
    rw [(change_of_next goesOn).operationName, ih]
    rcases before with _ | ⟨first, before⟩
    · simp
    · simp

/-- The reading of a document has a first line that gives its operation name, if it has one. -/
theorem head?_of_operationName {depth : Nat} {document name : Text}
    (h : (ofDocument depth document).operationName = some name) :
    ∃ first rest, trimmedLines document = first :: rest ∧
      OperationLine.ofLine first = .named name := by
  obtain ⟨before, s, lead, ⟨after, hlines⟩, hs, hdoc⟩ := exists_reached_ofDocument depth document
  have hname : before.head?.bind operationName? = some name := by
    rw [← hs.operationName, ← h, hdoc]
  rcases before with _ | ⟨first, before⟩
  · cases hname
  · refine ⟨first, before ++ after, hlines.symm, ?_⟩
    rw [List.head?_cons, Option.bind_some, operationName?] at hname
    split at hname
    · next hfirst => rw [hfirst, Option.some.inj hname]
    · cases hname

end Reading

/-- The query of an accepted document has what its reading has. -/
theorem Query.of_parse_eq_ok {depth : Nat} {document : Text} {q : Query}
    (h : parse depth document = .ok q) :
    (Reading.ofDocument depth document).operationName = some q.operationName ∧
    (Reading.ofDocument depth document).fields = q.fields ∧
    (Reading.ofDocument depth document).compounds = q.compounds := by
  unfold parse ofReading at h
  split at h
  · cases h
  · next name hname =>
    obtain rfl := Except.ok.inj h
    exact ⟨hname, rfl, rfl⟩

end DataSourceGen
