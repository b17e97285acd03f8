import DataSourceGen.Text.Quoted

/-!
# The log

What reading, generating and running report on the way, as events. An event has a level and a
wording; a log is the list of its events in order, and a coarser log is a sublist of a finer one.
-/

namespace DataSourceGen

/-- How grave an event is. -/
inductive Level where
  | error
  | warn
  | info
  | debug
  | trace
  deriving DecidableEq, Repr

namespace Level

/-- The position of a level, the gravest first. -/
def rank : Level → Nat
  | .error => 0
  | .warn => 1
  | .info => 2
  | .debug => 3
  | .trace => 4

/-- The name of a level in the log. -/
def name : Level → Text
  | .error => "ERROR"
  | .warn => "WARN"
  | .info => "INFO"
  | .debug => "DEBUG"
  | .trace => "TRACE"

/-- Whether a log at level `limit` shows events of a level. -/
def shownAt (limit level : Level) : Bool :=
  level.rank ≤ limit.rank

end Level

/-- Something worth reporting. -/
inductive Event where
  /-- The first line names an operation. -/
  | foundOperation (name : Text)
  /-- The first line has a word that names no operation. -/
  | notAnOperation (word : Text)
  /-- The second line names the root object. -/
  | rootObject (name : Text) (parameter : Option Text)
  /-- The second line has an argument that is bound to no variable. -/
  | unboundArgument (line : Text)
  | openingBlock (block : Text)
  | closingBlock (block : Text)
  /-- Reading ends before the end of the document. -/
  | wrappersClosed (lineNumber : Nat)
  | skippedLine (line : Text)
  | repeatedField (flatName : Text)
  | recordedField (flatName : Text)
  | segmented (flatName : Text) (segments : List Text)
  | rendering (structName : Text) (fieldCount : Nat)
  | scanning (pathCount : Nat)
  | skippedEntry (path : Text)
  | foundFile (path : Text)
  | walkFailed (path : Text)
  /-- A single file is taken although its extension is none of `extensions`. -/
  | acceptedAnyway (path : Text) (extensions : List Text)
  | foundDocuments (count : Nat)
  | generated (fileName path : Text)
  | written (path : Text)
  | skippedDocument (path reason : Text)
  | initialLevel (level : Level)
  | unknownLevel (name : Text)
  deriving DecidableEq

namespace Event

/-- The level of an event. -/
def level : Event → Level
  | .foundOperation _ | .notAnOperation _ | .rootObject .. | .wrappersClosed _ | .skippedLine _
  | .rendering .. | .scanning _ | .foundDocuments _ | .generated .. => .debug
  | .unboundArgument _ | .repeatedField _ | .acceptedAnyway .. | .unknownLevel _ => .warn
  | .openingBlock _ | .closingBlock _ | .recordedField _ | .segmented .. | .skippedEntry _
  | .foundFile _ | .walkFailed _ | .initialLevel _ => .trace
  | .written _ => .info
  | .skippedDocument .. => .error

/-- A text between backquotes. -/
def named (t : Text) : Text :=
  "`" ++ t ++ "`"

/-- The wording of an event. -/
def message : Event → Text
  | .foundOperation name => "Found operation " ++ named name ++ "."
  | .notAnOperation word => named word ++ " is not an operation name."
  | .rootObject name parameter =>
    "Root object " ++ named name ++ " (required parameter: " ++ Text.quotedOption parameter ++ ")."
  | .unboundArgument line =>
    "Root object line " ++ named line ++
      " has an argument but no `$variable`; treating the query as a collection lookup."
  | .openingBlock block => "Opening block " ++ named block ++ "."
  | .closingBlock block => "Closing block " ++ named block ++ "."
  | .wrappersClosed lineNumber =>
    "Wrapper levels closed at line " ++ Text.ofNat lineNumber ++
      "; ignoring the rest of the document."
  | .skippedLine line => "Skipping unrecognized line " ++ named line ++ "."
  | .repeatedField flatName =>
    "Field " ++ named flatName ++
      " is selected more than once; keeping the first selection only."
  | .recordedField flatName => "Recorded field " ++ named flatName ++ "."
  | .segmented flatName segments =>
    "Segmented " ++ named flatName ++ " into " ++ Text.quotedList segments ++ "."
  | .rendering structName fieldCount =>
    "Rendering " ++ named structName ++ " with " ++ Text.ofNat fieldCount ++ " fields."
  | .scanning pathCount => "Scanning " ++ Text.ofNat pathCount ++ " input paths..."
  | .skippedEntry path => "Skipping non-file: " ++ Text.quoted path ++ "."
  | .foundFile path => "Found file at " ++ Text.quoted path ++ "."
  | .walkFailed path =>
    "Encountered an error while iterating recursive filesystem entities at/under " ++
      Text.quoted path ++ "."
  | .acceptedAnyway path extensions =>
    "Proceeding with " ++ Text.quoted path ++
      " even though it doesn't match any of the --graphql-file-exts (" ++
      Text.joinWith ", " (extensions.map fun e => named ('.' :: e)) ++ ")."
  | .foundDocuments count => "Found " ++ Text.ofNat count ++ " query documents."
  | .generated fileName path =>
    "Generated " ++ named fileName ++ " from " ++ Text.quoted path ++ "."
  | .written path => "Content written to " ++ Text.quoted path ++ "."
  | .skippedDocument path reason => "Skipping " ++ Text.quoted path ++ ": " ++ reason
  | .initialLevel level => "Initial logging level set to " ++ named level.name ++ "."
  | .unknownLevel name =>
    "Invalid `LOG_LEVEL` environment variable value: " ++ named name

end Event

/-- The events of a log that are at `limit` or graver. -/
def atLevel (limit : Level) (log : List Event) : List Event :=
  log.filter fun e => limit.shownAt e.level

/-- A coarser log is part of a finer one. -/
theorem atLevel_atLevel {coarse fine : Level} (h : coarse.rank ≤ fine.rank) (log : List Event) :
    atLevel coarse (atLevel fine log) = atLevel coarse log := by
  simp only [atLevel, List.filter_filter, Level.shownAt]
  congr 1
  funext e
  rw [Bool.eq_iff_iff]
  simp only [Bool.and_eq_true, decide_eq_true_eq]
  omega

end DataSourceGen
