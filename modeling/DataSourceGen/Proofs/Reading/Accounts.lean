import DataSourceGen.Proofs.DataSource.Binding
import DataSourceGen.Proofs.Log
import DataSourceGen.Proofs.Reading.Identifiers

/-!
# The log of a reading

A line of selections inside a block does one of six things, and one message says which: it opens a
block, closes one or ends the reading, or it records a field, selects one again or names none
(`Accounts`). Other lines have messages about the heading, or are passed over without a word
(`reports_next`).

So a log tells the reading that it is of (`Tells`): the fields that messages record are the fields,
and the blocks that messages open and close nest (`Nested`), with the open blocks left. Each step
keeps this (`Tells.append`), and a run does (`tells_run`).

**Theorem** (`log_accounts`) adds what is said after the reading, of the segments of each field and
of the number of fields, and reads coarser logs off finer ones. All of it is about the messages as
they are worded. -/

namespace DataSourceGen

open Text

/-! ### What messages are about -/

/-- Whether messages open and close blocks in such a way that each one that is closed is the one
opened last of those not yet closed. The blocks left open are listed innermost first. -/
inductive Nested : List Message → List Text → Prop where
  | silence : Nested [] []
  | opening {log : List Message} {blocks : List Text} (block : Text) (before : Nested log blocks) :
      Nested (log ++ [⟨.trace, "Opening block `" ++ block ++ "`."⟩]) (block :: blocks)
  | closing {log : List Message} {block : Text} {blocks : List Text}
      (before : Nested log (block :: blocks)) :
      Nested (log ++ [⟨.trace, "Closing block `" ++ block ++ "`."⟩]) blocks
  | other {log : List Message} {blocks : List Text} {m : Message} (before : Nested log blocks)
      (opensNone : m.begins "Opening block `" = false)
      (closesNone : m.begins "Closing block `" = false) : Nested (log ++ [m]) blocks

/-- Messages about other things can follow. -/
theorem Nested.append :
    (later : List Message) → ∀ {log blocks}, Nested log blocks →
      (∀ m ∈ later, m.begins "Opening block `" = false ∧ m.begins "Closing block `" = false) →
      Nested (log ++ later) blocks
  | [], log, blocks, h, _ => by rwa [List.append_nil]
  | m :: later, log, blocks, h, hother => by
      obtain ⟨⟨hopens, hcloses⟩, hlater⟩ := List.forall_mem_cons.mp hother
      rw [← List.singleton_append, ← List.append_assoc]
      exact Nested.append later (h.other hopens hcloses) hlater

/-- Whether a message says nothing of blocks and fields. -/
structure Message.IsQuiet (m : Message) : Prop where
  opensNone : m.begins "Opening block `" = false
  closesNone : m.begins "Closing block `" = false
  recordsNone : m.begins "Recorded field `" = false
  segmentsNone : m.begins "Segmented `" = false
  rendersNone : m.begins "Rendering `" = false

/-- How the six kinds of messages about a line of selections begin. -/
def lineBeginnings : List Text :=
  ["Opening block `", "Closing block `", "Wrapper levels closed at line ", "Recorded field `",
    "Field `", "Skipping unrecognized line `"]

namespace Reading

/-! ### One line -/

/-- What a step reports. The last one also reports that it is. -/
def stepLog (index : Nat) (step : Step) : List Event :=
  step.events ++ if step.stops then [.wrappersClosed (index + 1)] else []

/-- What a line of selections does to a reading, and the message about it. -/
inductive Accounts (index : Nat) (line : Text) (s : Reading) : Message → Reading → Prop where
  | opening {block : Text} {t : Reading} (opens : openedBlock? line = some block)
      (fields : t.fields = s.fields) (blocks : t.openBlocks = block :: s.openBlocks) :
      Accounts index line s ⟨.trace, "Opening block `" ++ block ++ "`."⟩ t
  | closing {block : Text} {t : Reading} (closes : line = closingLine)
      (fields : t.fields = s.fields) (blocks : s.openBlocks = block :: t.openBlocks) :
      Accounts index line s ⟨.trace, "Closing block `" ++ block ++ "`."⟩ t
  | stopping {t : Reading} (closes : line = closingLine) (fields : t.fields = s.fields)
      (blocks : t.openBlocks = s.openBlocks) :
      Accounts index line s ⟨.debug, "Wrapper levels closed at line " ++ ofNat (index + 1) ++
        "; ignoring the rest of the document."⟩ t
  | recorded {name : Text} {t : Reading} (selects : selectedWord? line = some name)
      (named : isName name = true) (isNew : s.lead ++ name ∉ s.flatNames.toList)
      (fields : t.fields = s.fields ++ [{ flatName := s.lead ++ name }])
      (blocks : t.openBlocks = s.openBlocks) :
      Accounts index line s ⟨.trace, "Recorded field `" ++ (s.lead ++ name) ++ "`."⟩ t
  | repeated {name : Text} (selects : selectedWord? line = some name) (named : isName name = true)
      (isOld : s.lead ++ name ∈ s.flatNames.toList) :
      Accounts index line s ⟨.warn, "Field `" ++ (s.lead ++ name) ++
        "` is selected more than once; keeping the first selection only."⟩ s
  | skipped {name : Text} (selects : selectedWord? line = some name)
      (unnamed : isName name = false) :
      Accounts index line s ⟨.debug, "Skipping unrecognized line `" ++ line ++ "`."⟩ s

/-- What a line does to a reading, and the messages about it. -/
inductive Reports (index : Nat) (line : Text) (s : Reading) : List Message → Reading → Prop where
  /-- The line is read as one of the heading. -/
  | heading {said : List Message} {t : Reading} (above : index < 2)
      (quiet : ∀ m ∈ said, m.IsQuiet) (fields : t.fields = s.fields)
      (blocks : t.openBlocks = s.openBlocks) : Reports index line s said t
  | accounted {m : Message} {t : Reading} (accounts : Accounts index line s m t) :
      Reports index line s [m] t
  /-- The line is outside all blocks, or blank. -/
  | silent (idle : s.openBlocks = [] ∨ selectedWord? line = none) : Reports index line s [] s

variable {depth index : Nat} {line : Text} {s t : Reading} {m : Message}

/-- A message about a line of selections is of one kind only. -/
theorem Accounts.countP_begins (h : Accounts index line s m t) :
    lineBeginnings.countP m.begins = 1 := by
  cases h
  all_goals rfl

/-- A line of selections with one event is accounted for by what is said of that event. -/
theorem Reports.of_said {event : Event} (hsaid : event.said = m)
    (haccounts : Accounts index line s m t) : Reports index line s [event.said] t :=
  hsaid ▸ .accounted haccounts

theorem reports_closeBlock (closes : line = closingLine) (depth : Nat) :
    Reports index line s ((stepLog index (s.closeBlock depth)).map Event.said)
      (s.closeBlock depth).reading := by
  unfold closeBlock
  by_cases outside : s.lead.count separator < depth
  · rw [if_pos outside]
    exact .of_said (Event.said_wrappersClosed _) (.stopping closes rfl rfl)
  · rw [if_neg outside]
    split
    · exact .of_said (Event.said_wrappersClosed _) (.stopping closes rfl rfl)
    · next block outer innermost =>
      exact .of_said (Event.said_closingBlock block) (.closing closes rfl innermost)

theorem reports_recordLeaf (index : Nat) (line : Text) (s : Reading) :
    Reports index line s ((stepLog index (s.recordLeaf line)).map Event.said)
      (s.recordLeaf line).reading := by
  unfold recordLeaf
  split
  · next hword => exact .silent (.inr hword)
  · next name hword =>
    dsimp only
    rcases hname : isName name with _ | _
    · exact .of_said (Event.said_skippedLine line) (.skipped hword hname)
    · by_cases hold : s.lead ++ name ∈ s.flatNames.toList
      · rw [NameSet.contains_iff.mpr hold]
        exact .of_said (Event.said_repeatedField _) (.repeated hword hname hold)
      · have hnew : s.flatNames.contains (s.lead ++ name) = false := by
          rw [← Bool.not_eq_true, NameSet.contains_iff]
          exact hold
        rw [hnew]
        exact .of_said (Event.said_recordedField _) (.recorded hword hname hold rfl rfl)

theorem reports_select (depth index : Nat) (line : Text) (s : Reading) :
    Reports index line s ((stepLog index (s.select depth line)).map Event.said)
      (s.select depth line).reading := by
  unfold select
  rcases opens : openedBlock? line with _ | block
  · by_cases closes : line = closingLine
    · simp only [if_pos closes]
      exact reports_closeBlock closes depth
    · simp only [if_neg closes]
      by_cases outside : s.openBlocks = []
      · rw [if_pos (by simp [outside])]
        exact .silent (.inl outside)
      · rw [if_neg (by simpa using outside)]
        exact reports_recordLeaf index line s
  · exact .of_said (Event.said_openingBlock block) (.opening opens rfl rfl)

theorem quiet_nameOperation {heading : OperationLine} (index : Nat) (s : Reading) :
    ∀ m ∈ (stepLog index (s.nameOperation heading)).map Event.said, m.IsQuiet := by
  cases heading
  case named | malformed => exact List.forall_mem_singleton.mpr ⟨rfl, rfl, rfl, rfl, rfl⟩
  all_goals exact List.forall_mem_nil _

theorem quiet_nameRoot (index : Nat) (line : Text) (s : Reading) :
    ∀ m ∈ (stepLog index (s.nameRoot line)).map Event.said, m.IsQuiet := by
  unfold nameRoot stepLog
  have hroot (name : Text) (parameter : Option Text) :
      (Event.rootObject name parameter).said.IsQuiet := ⟨rfl, rfl, rfl, rfl, rfl⟩
  by_cases unbound : (RootLine.ofLine line).isUnbound = true
  · simp only [if_pos unbound]
    exact List.forall_mem_cons.mpr
      ⟨⟨rfl, rfl, rfl, rfl, rfl⟩, List.forall_mem_singleton.mpr (hroot ..)⟩
  · simp only [if_neg unbound]
    exact List.forall_mem_singleton.mpr (hroot ..)

/-- **What is said of a line** is what it does to the reading. -/
theorem reports_next (depth index : Nat) (line : Text) (s : Reading) :
    Reports index line s ((stepLog index (s.next depth index line)).map Event.said)
      (s.next depth index line).reading := by
  match index with
  | 0 =>
    rcases hline : OperationLine.ofLine line with _ | _ | word | name
    · simp only [next, hline]
      exact reports_select depth 0 line s
    all_goals
      simp only [next, hline]
      exact .heading (by decide) (quiet_nameOperation 0 s) rfl rfl
  | 1 => exact .heading (by decide) (quiet_nameRoot 1 line s) rfl rfl
  | n + 2 => exact reports_select depth (n + 2) line s

/-- Below the heading, a line inside a block is accounted for by one message, unless it is blank. -/
theorem exists_accounts (hlong : 2 ≤ index) (hinside : s.openBlocks ≠ [])
    (hword : selectedWord? line ≠ none) (depth : Nat) :
    ∃ m, (stepLog index (s.next depth index line)).map Event.said = [m] ∧
      Accounts index line s m (s.next depth index line).reading := by
  have hreports := reports_next depth index line s
  generalize (s.next depth index line).reading = t at hreports
  generalize (stepLog index (s.next depth index line)).map Event.said = said at hreports
  cases hreports with
  | heading above => omega
  | @accounted m t accounts => exact ⟨m, rfl, accounts⟩
  | silent idle => exact absurd idle (not_or.mpr ⟨hinside, hword⟩)

/-! ### A whole run -/

/-- Whether a log tells a reading: its fields, and the blocks that are open. -/
structure Tells (log : List Message) (s : Reading) : Prop where
  fields : log.filter (·.begins "Recorded field `") =
    s.fields.map fun f => ⟨.trace, "Recorded field `" ++ f.flatName ++ "`."⟩
  blocks : Nested log s.openBlocks
  /-- What is said of a whole query comes later. -/
  early : ∀ m ∈ log, m.begins "Segmented `" = false ∧ m.begins "Rendering `" = false

variable {log said : List Message}

/-- One more message tells one more field, or one more or one fewer block, or nothing new. -/
theorem Tells.concat (h : Tells log s)
    (hfields : t.fields.map (fun f => ⟨.trace, "Recorded field `" ++ f.flatName ++ "`."⟩) =
      s.fields.map (fun f => ⟨.trace, "Recorded field `" ++ f.flatName ++ "`."⟩) ++
        [m].filter (·.begins "Recorded field `"))
    (hblocks : Nested (log ++ [m]) t.openBlocks)
    (hearly : m.begins "Segmented `" = false ∧ m.begins "Rendering `" = false) :
    Tells (log ++ [m]) t where
  fields := by rw [List.filter_append, h.fields, hfields]
  blocks := hblocks
  early := by
    intro other hother
    rcases List.mem_append.mp hother with hold | hnew
    · exact h.early other hold
    · exact List.mem_singleton.mp hnew ▸ hearly

/-- A message that records no field leaves the fields as they were. -/
theorem Tells.concat_of_recordsNone (h : Tells log s)
    (hrecords : m.begins "Recorded field `" = false) (hfields : t.fields = s.fields)
    (hblocks : Nested (log ++ [m]) t.openBlocks)
    (hearly : m.begins "Segmented `" = false ∧ m.begins "Rendering `" = false) :
    Tells (log ++ [m]) t := by
  refine h.concat ?_ hblocks hearly
  rw [hfields, List.filter_singleton, hrecords]
  exact (List.append_nil _).symm

/-- A log that tells a reading tells each other one with the same fields and blocks. -/
theorem Tells.congr (h : Tells log s) (hfields : t.fields = s.fields)
    (hblocks : t.openBlocks = s.openBlocks) : Tells log t :=
  ⟨hfields ▸ h.fields, hblocks ▸ h.blocks, h.early⟩

/-- Quiet messages tell nothing new. -/
theorem Tells.append_quiet :
    (said : List Message) → ∀ {log}, Tells log s → (∀ m ∈ said, m.IsQuiet) → Tells (log ++ said) s
  | [], log, h, _ => by rwa [List.append_nil]
  | m :: said, log, h, hquiet => by
      obtain ⟨hm, hsaid⟩ := List.forall_mem_cons.mp hquiet
      have hone : Tells (log ++ [m]) s :=
        h.concat_of_recordsNone hm.recordsNone rfl (h.blocks.other hm.opensNone hm.closesNone)
          ⟨hm.segmentsNone, hm.rendersNone⟩
      rw [← List.singleton_append, ← List.append_assoc]
      exact Tells.append_quiet said hone hsaid

/-- With what is said of it, a line of selections keeps what the log tells. -/
theorem Tells.append_accounts (h : Tells log s) (haccounts : Accounts index line s m t) :
    Tells (log ++ [m]) t := by
  -- The wording alone decides what a message tells, so each `rfl` compares two beginnings.
  cases haccounts with
  | opening opens fields blocks =>
    exact h.concat_of_recordsNone rfl fields (blocks ▸ .opening _ h.blocks) ⟨rfl, rfl⟩
  | closing closes fields blocks =>
    exact h.concat_of_recordsNone rfl fields (.closing (blocks ▸ h.blocks)) ⟨rfl, rfl⟩
  | stopping closes fields blocks =>
    exact h.concat_of_recordsNone rfl fields (blocks ▸ h.blocks.other rfl rfl) ⟨rfl, rfl⟩
  | recorded selects named isNew fields blocks =>
    refine h.concat ?_ (blocks ▸ h.blocks.other rfl rfl) ⟨rfl, rfl⟩
    rw [fields, List.map_append]
    rfl
  | repeated | skipped =>
    exact h.concat_of_recordsNone rfl rfl (h.blocks.other rfl rfl) ⟨rfl, rfl⟩

/-- With what is said of it, a line keeps what the log tells. -/
theorem Tells.append (h : Tells log s) (hreports : Reports index line s said t) :
    Tells (log ++ said) t := by
  cases hreports with
  | heading above quiet fields blocks => exact (h.append_quiet said quiet).congr fields blocks
  | accounted accounts => exact h.append_accounts accounts
  | silent => rwa [List.append_nil]

/-- What is reported of some lines is reported of the first, and then of the others unless the first
ends the reading. -/
theorem log_run_cons (depth index : Nat) (s : Reading) (raw : Text) (rest : List Text) :
    (s.run depth index (raw :: rest)).2 = stepLog index (s.next depth index (trim raw)) ++
      if (s.next depth index (trim raw)).stops then []
      else ((s.next depth index (trim raw)).reading.run depth (index + 1) rest).2 := by
  simp only [run, stepLog]
  split
  · simp
  · simp

/-- With what it reports, a run keeps what the log tells. -/
theorem tells_run (depth : Nat) :
    (raw : List Text) → ∀ {index log s}, Tells log s →
      Tells (log ++ (s.run depth index raw).2.map Event.said) (s.run depth index raw).1
  | [], index, log, s, h => by simpa [run] using h
  | line :: rest, index, log, s, h => by
      have hstep := h.append (reports_next depth index (trim line) s)
      rw [log_run_cons, List.map_append, ← List.append_assoc]
      simp only [run]
      split
      · rwa [List.map_nil, List.append_nil]
      · exact tells_run depth rest hstep

/-- The log of a document tells its reading. -/
theorem tells_parseLog (depth : Nat) (document : Text) :
    Tells ((Query.parseLog depth document).map Event.said) (ofDocument depth document) := by
  have hstart : Tells [] {} := ⟨rfl, .silence, List.forall_mem_nil _⟩
  exact tells_run depth (lines document) hstart

/-! ### The lines of a document -/

/-- What is reported of the first lines of a document. -/
def logUpTo (depth : Nat) (document : Text) (lineCount : Nat) : List Event :=
  (run depth 0 {} ((lines document).take lineCount)).2

/-- A line adds what its step reports. -/
theorem logUpTo_succ {document : Text} {before : List Text} (h : Reached depth before s)
    (hline : before ++ [line] <+: trimmedLines document) :
    logUpTo depth document (before.length + 1) =
        logUpTo depth document before.length ++
          stepLog before.length (s.next depth before.length line) ∧
      logUpTo depth document (before.length + 1) <+: Query.parseLog depth document := by
  obtain ⟨after, hlines⟩ := hline
  rw [List.append_assoc, List.singleton_append] at hlines
  obtain ⟨raw, rest, hraw, hbefore, hrest⟩ := List.map_eq_append_iff.mp hlines.symm
  obtain ⟨l, rest, rfl, rfl, -⟩ := List.map_eq_cons_iff.mp hrest
  have hlength : before.length = raw.length := by rw [← hbefore, List.length_map]
  have htake : (lines document).take before.length = raw := by
    rw [hraw, hlength, List.take_left]
  have htakeSucc : (lines document).take (before.length + 1) = raw ++ [l] := by
    rw [hraw, hlength, List.take_length_add_append]
    rfl
  have hone : (s.run depth before.length [l]).2 =
      stepLog before.length (s.next depth before.length (trim l)) := by
    rw [log_run_cons]
    simp [run]
  constructor
  · rw [logUpTo, logUpTo, htake, htakeSucc, run_append_eq h raw hbefore, hone]
  · rw [logUpTo, Query.parseLog, htakeSucc, hraw, run_append_eq h raw hbefore,
      run_append_eq h raw hbefore, hone, log_run_cons, ← List.append_assoc]
    exact List.prefix_append _ _

/-- A trimmed line with a text has a word. -/
theorem selectedWord?_trim_ne_none {raw : Text} (h : trim raw ≠ []) :
    selectedWord? (trim raw) ≠ none := by
  obtain ⟨c, r, hcons⟩ := List.exists_cons_of_ne_nil h
  have hfirst : isBlank c = false := isBlank_head?_trim raw c (by rw [hcons]; rfl)
  rw [hcons, selectedWord?, firstWord?, trimStart_eq_self ⟨c, rfl, hfirst⟩]
  exact Option.some_ne_none _

end Reading

open Reading

/-! ### The log of a document -/

/-- What is reported of an accepted document: what is reported of its lines, the segments of each
field, and how many fields are rendered. -/
theorem generateLog_of_parse {depth : Nat} {document : Text} {q : Query}
    (h : Query.parse depth document = .ok q) :
    generateLog depth document = Query.parseLog depth document ++
      (q.accessorLog ++ [.rendering q.structName q.fields.length]) := by
  have hattributes : q.dataSource.attributes.length = q.fields.length := List.length_map ..
  unfold generateLog Query.emitLog
  rw [h]
  dsimp only
  rw [Query.bind_accessors]
  dsimp only
  rw [hattributes]
  rfl

/-- What is said of the accessor of a field: its segments. -/
def Query.segmentsSaid (q : Query) (f : Field) : Message :=
  ⟨.trace, "Segmented `" ++ f.flatName ++ "` into " ++ quotedList (q.segmentsOf f.flatName) ++ "."⟩

/-- The messages of an accepted document: those about its lines, those about the segments of its
fields, and one about what is rendered. -/
theorem messages_generateLog_of_parse {depth : Nat} {document : Text} {q : Query}
    (h : Query.parse depth document = .ok q) :
    messages .trace (generateLog depth document) =
      (Query.parseLog depth document).map Event.said ++ (q.fields.map q.segmentsSaid ++
        [⟨.debug, "Rendering `" ++ q.structName ++ "` with " ++ ofNat q.fields.length ++
          " fields."⟩]) := by
  have hsegments : q.accessorLog.map Event.said = q.fields.map q.segmentsSaid := by
    rw [Query.accessorLog, List.map_map]
    exact List.map_congr_left fun f _ => Event.said_segmented ..
  rw [messages_trace, generateLog_of_parse h, List.map_append, List.map_append, hsegments,
    List.map_singleton, Event.said_rendering]

/-- Messages of another kind are none of those that begin so. -/
theorem filter_begins_eq_nil {log : List Message} {beginning : Text}
    (h : ∀ m ∈ log, m.begins beginning = false) : log.filter (·.begins beginning) = [] :=
  List.filter_eq_nil_iff.mpr fun m hm => Bool.eq_false_iff.mp (h m hm)

/-- Whether the messages at each level are what is said of a document and its query, line by line
and as a whole. -/
structure IsLogOf (depth : Nat) (document : Text) (q : Query) (log : Level → List Message) :
    Prop where
  /-- A line that is read inside a block has one message, of one kind, unless it is blank. -/
  lines : ∀ before line s, before ++ [line] <+: trimmedLines document → Reached depth before s →
    2 ≤ before.length → s.openBlocks ≠ [] → line ≠ [] →
    ∃ m, Accounts before.length line s m (s.next depth before.length line).reading ∧
      lineBeginnings.countP m.begins = 1 ∧
      messages .trace (logUpTo depth document (before.length + 1)) =
        messages .trace (logUpTo depth document before.length) ++ [m] ∧
      messages .trace (logUpTo depth document (before.length + 1)) <+: log .trace
  fields : (log .trace).filter (·.begins "Recorded field `") =
    q.fields.map fun f => ⟨.trace, "Recorded field `" ++ f.flatName ++ "`."⟩
  segmented : (log .trace).filter (·.begins "Segmented `") =
    q.fields.map fun f => ⟨.trace, "Segmented `" ++ f.flatName ++ "` into " ++
      quotedList (q.segmentsOf f.flatName) ++ "."⟩
  rendered : (log .trace).filter (·.begins "Rendering `") =
    [⟨.debug, "Rendering `" ++ q.structName ++ "` with " ++ ofNat q.fields.length ++ " fields."⟩]
  /-- Blocks are closed innermost first; what is left open was so where reading ended. -/
  closings : Nested (log .trace) (ofDocument depth document).openBlocks
  /-- A coarser log has the messages of a finer one that are grave enough, in the same order. -/
  coarser : ∀ coarse fine, coarse ∈ fine.orGraver → (log coarse).Sublist (log fine) ∧
    log coarse = (log fine).filter fun m => coarse.orGraver.contains m.level

/-- **Accounting**: the log of an accepted document has one message about each line that is read
inside a block, which tells what the line does; its messages record exactly the fields of the query,
name them again with their segments, and count them; and they close blocks innermost first. -/
theorem log_accounts {depth : Nat} {document : Text} {q : Query}
    (h : Query.parse depth document = .ok q) :
    IsLogOf depth document q fun level => messages level (generateLog depth document) := by
  obtain ⟨-, hfields, -⟩ := Query.of_parse_eq_ok h
  have htells := tells_parseLog depth document
  constructor
  case coarser =>
    intro coarse fine hgraver
    have hfilter := messages_eq_filter hgraver (generateLog depth document)
    exact ⟨hfilter ▸ List.filter_sublist, hfilter⟩
  all_goals rw [messages_generateLog_of_parse h]
  case lines =>
    intro before line s hline hs hlong hinside hne
    obtain ⟨raw, -, hraw⟩ := List.mem_map.mp (hline.subset (List.mem_append_right before
      (List.mem_singleton_self line)))
    have hword : selectedWord? line ≠ none := hraw ▸ selectedWord?_trim_ne_none (hraw ▸ hne)
    obtain ⟨m, hstep, haccounts⟩ := exists_accounts hlong hinside hword depth
    obtain ⟨hsucc, hgrows⟩ := logUpTo_succ hs hline
    refine ⟨m, haccounts, haccounts.countP_begins, ?_, ?_⟩
    · rw [messages_trace, messages_trace, hsucc, List.map_append, hstep]
    · rw [messages_trace]
      exact (hgrows.map Event.said).trans (List.prefix_append _ _)
  case fields =>
    have hsegments : (q.fields.map q.segmentsSaid).filter (·.begins "Recorded field `") = [] :=
      filter_begins_eq_nil (List.forall_mem_map.mpr fun f _ => rfl)
    rw [List.filter_append, List.filter_append, htells.fields, hfields, hsegments]
    exact List.append_nil _
  case segmented =>
    have hsegments : (q.fields.map q.segmentsSaid).filter (·.begins "Segmented `") =
        q.fields.map q.segmentsSaid :=
      List.filter_eq_self.mpr (List.forall_mem_map.mpr fun f _ => rfl)
    rw [List.filter_append, List.filter_append, hsegments,
      filter_begins_eq_nil fun m hm => (htells.early m hm).1]
    exact List.append_nil _
  case rendered =>
    have hsegments : (q.fields.map q.segmentsSaid).filter (·.begins "Rendering `") = [] :=
      filter_begins_eq_nil (List.forall_mem_map.mpr fun f _ => rfl)
    rw [List.filter_append, List.filter_append, hsegments,
      filter_begins_eq_nil fun m hm => (htells.early m hm).2]
    rfl
  case closings =>
    refine htells.blocks.append _ (List.forall_mem_append.mpr ⟨?_, ?_⟩)
    · exact List.forall_mem_map.mpr fun f _ => ⟨rfl, rfl⟩
    · exact List.forall_mem_singleton.mpr ⟨rfl, rfl⟩

/-- Two blocks, a field that is selected twice, a line that names nothing, and a closing brace too
many. -/
def accountsDocument : Text :=
  "query Q \x7b\nR \x7b\nedges \x7b\nnode \x7b\nid\nid\n\n1\n\x7d\n\x7d\n\x7d\n"

/-- All six kinds of messages inside blocks occur, and nothing is said of what follows the stop. -/
theorem log_accounts_accountsDocument :
    ∃ q, Query.parse 2 accountsDocument = .ok q ∧
      messages .trace (generateLog 2 accountsDocument) =
        [⟨.debug, "Found operation `q`."⟩,
          ⟨.debug, "Root object `R` (required parameter: None)."⟩,
          ⟨.trace, "Opening block `edges`."⟩,
          ⟨.trace, "Opening block `node`."⟩,
          ⟨.trace, "Recorded field `edges_node_id`."⟩,
          ⟨.warn,
            "Field `edges_node_id` is selected more than once; keeping the first selection only."⟩,
          ⟨.debug, "Skipping unrecognized line `1`."⟩,
          ⟨.trace, "Closing block `node`."⟩,
          ⟨.debug, "Wrapper levels closed at line 10; ignoring the rest of the document."⟩,
          ⟨.trace, "Segmented `edges_node_id` into [\"edges\", \"node\", \"id\"]."⟩,
          ⟨.debug, "Rendering `qDataSource` with 1 fields."⟩] ∧
      messages .debug (generateLog 2 accountsDocument) =
        [⟨.debug, "Found operation `q`."⟩,
          ⟨.debug, "Root object `R` (required parameter: None)."⟩,
          ⟨.warn,
            "Field `edges_node_id` is selected more than once; keeping the first selection only."⟩,
          ⟨.debug, "Skipping unrecognized line `1`."⟩,
          ⟨.debug, "Wrapper levels closed at line 10; ignoring the rest of the document."⟩,
          ⟨.debug, "Rendering `qDataSource` with 1 fields."⟩] ∧
      IsLogOf 2 accountsDocument q
        fun level => messages level (generateLog 2 accountsDocument) := by
  have reading : ofDocument 2 accountsDocument =
      { operationName := some "q".toList
        rootName := "R"
        openBlocks := ["edges".toList]
        lead := ""
        fields := [{ flatName := "edges_node_id" }]
        flatNames := .ofList ["edges_node_id".toList]
        compounds := .empty } := rfl
  have accepted : Query.parse 2 accountsDocument = .ok
      { operationName := "q"
        rootName := "R"
        shape := .collection
        fields := [{ flatName := "edges_node_id" }]
        compounds := .empty } := by rw [Query.parse, reading]; rfl
  have events : generateLog 2 accountsDocument =
      [.foundOperation "q", .rootObject "R" none, .openingBlock "edges", .openingBlock "node",
        .recordedField "edges_node_id", .repeatedField "edges_node_id", .skippedLine "1",
        .closingBlock "node", .wrappersClosed 10,
        .segmented "edges_node_id" ["edges".toList, "node".toList, "id".toList],
        .rendering "qDataSource" 1] := by
    rw [generateLog_of_parse accepted]
    rfl
  refine ⟨_, accepted, ?_, ?_, log_accounts accepted⟩
  · rw [events]
    rfl
  · rw [events]
    rfl

end DataSourceGen
