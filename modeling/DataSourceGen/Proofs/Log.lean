import DataSourceGen.Log

/-!
# The messages of a log

A reader of the log sees no events but messages, each a level and a text. What the events of a
reading say is spelled here from the first character to the last (`said_openingBlock` and so on).

**Theorem** (`messages_eq_filter`): a log at one level is a log at any finer one, less the messages
that are not grave enough.
-/

namespace DataSourceGen

/-- The levels at least as grave as a level. -/
def Level.orGraver : Level → List Level
  | .error => [.error]
  | .warn => [.error, .warn]
  | .info => [.error, .warn, .info]
  | .debug => [.error, .warn, .info, .debug]
  | .trace => [.error, .warn, .info, .debug, .trace]

/-- A log at a level shows exactly what is at least as grave. -/
theorem Level.shownAt_eq_contains (limit level : Level) :
    limit.shownAt level = limit.orGraver.contains level := by
  cases limit
  all_goals
    cases level
    all_goals rfl

/-- What is at least as grave comes no later among the levels. -/
theorem Level.rank_le_of_mem_orGraver {coarse fine : Level} (h : coarse ∈ fine.orGraver) :
    coarse.rank ≤ fine.rank := by
  rw [← List.contains_iff_mem, ← shownAt_eq_contains] at h
  exact of_decide_eq_true h

/-- A message of a log. -/
structure Message where
  level : Level
  text : Text
  deriving DecidableEq

/-- Whether a message begins with a text. -/
def Message.begins (m : Message) (beginning : Text) : Bool :=
  beginning.isPrefixOf m.text

namespace Event

/-- The message about an event. -/
def said (e : Event) : Message where
  level := e.level
  text := e.message

/-! ### What is said while a document is read -/

/-- The backquotes around a name, drawn into the texts beside it. -/
theorem append_named_append (before t after : Text) :
    before ++ named t ++ after = before ++ ['`'] ++ t ++ '`' :: after := by
  simp only [named, List.append_assoc]
  rfl

theorem said_openingBlock (block : Text) :
    (openingBlock block).said = ⟨.trace, "Opening block `" ++ block ++ "`."⟩ :=
  congrArg (Message.mk .trace) (append_named_append ..)

theorem said_closingBlock (block : Text) :
    (closingBlock block).said = ⟨.trace, "Closing block `" ++ block ++ "`."⟩ :=
  congrArg (Message.mk .trace) (append_named_append ..)

theorem said_wrappersClosed (lineNumber : Nat) : (wrappersClosed lineNumber).said =
    ⟨.debug, "Wrapper levels closed at line " ++ Text.ofNat lineNumber ++
      "; ignoring the rest of the document."⟩ :=
  rfl

theorem said_recordedField (flatName : Text) :
    (recordedField flatName).said = ⟨.trace, "Recorded field `" ++ flatName ++ "`."⟩ :=
  congrArg (Message.mk .trace) (append_named_append ..)

theorem said_repeatedField (flatName : Text) : (repeatedField flatName).said =
    ⟨.warn, "Field `" ++ flatName ++
      "` is selected more than once; keeping the first selection only."⟩ :=
  congrArg (Message.mk .warn) (append_named_append ..)

theorem said_skippedLine (line : Text) :
    (skippedLine line).said = ⟨.debug, "Skipping unrecognized line `" ++ line ++ "`."⟩ :=
  congrArg (Message.mk .debug) (append_named_append ..)

theorem said_segmented (flatName : Text) (segments : List Text) :
    (segmented flatName segments).said =
      ⟨.trace, "Segmented `" ++ flatName ++ "` into " ++ Text.quotedList segments ++ "."⟩ :=
  congrArg (fun t => Message.mk .trace (t ++ Text.quotedList segments ++ "."))
    (append_named_append "Segmented " flatName " into ")

theorem said_rendering (structName : Text) (fieldCount : Nat) :
    (rendering structName fieldCount).said =
      ⟨.debug, "Rendering `" ++ structName ++ "` with " ++ Text.ofNat fieldCount ++ " fields."⟩ :=
  congrArg (fun t => Message.mk .debug (t ++ Text.ofNat fieldCount ++ " fields."))
    (append_named_append "Rendering " structName " with ")

end Event

/-! ### Levels of a log -/

/-- The messages of a log that are shown at a level. -/
def messages (level : Level) (log : List Event) : List Message :=
  (atLevel level log).map Event.said

/-- At the finest level, a log shows all events. -/
theorem messages_trace (log : List Event) : messages .trace log = log.map Event.said := by
  refine congrArg (List.map Event.said) (List.filter_eq_self.mpr fun e _ => ?_)
  rcases e.level with _ | _ | _ | _ | _
  all_goals rfl

/-- **A coarser log** has the messages of a finer one that are grave enough, in the same order. -/
theorem messages_eq_filter {coarse fine : Level} (h : coarse ∈ fine.orGraver) (log : List Event) :
    messages coarse log =
      (messages fine log).filter fun m => coarse.orGraver.contains m.level := by
  have hshown : (fun e : Event => coarse.shownAt e.level) =
      (fun m : Message => coarse.orGraver.contains m.level) ∘ Event.said :=
    funext fun e => coarse.shownAt_eq_contains e.level
  unfold messages
  rw [List.filter_map, ← hshown, ← atLevel_atLevel (Level.rank_le_of_mem_orGraver h)]
  rfl

end DataSourceGen
