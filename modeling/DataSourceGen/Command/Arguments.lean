import DataSourceGen.Command.Generate
import DataSourceGen.Command.Inspect

/-!
# Arguments

The command line: switches before and after the name of a subcommand, and the words that a
subcommand takes. The value of a switch follows it as the next argument, or in the same one after
an equals sign; short switches may stand together behind one dash, the last of them with its value.
After a double dash all arguments are words.

The value of a switch and the words of a subcommand are judged as soon as another known switch or
another kind of word follows them, and at the end; a switch that is not known is an error at once.
-/

namespace DataSourceGen

/-- Why the arguments are rejected. -/
inductive UsageError where
  | unknownArgument
  | missingRequiredArgument
  | invalidSubcommand
  | valueValidation
  /-- A switch that counts once is given twice. -/
  | argumentConflict
  /-- A switch without a value is given one. -/
  | tooManyValues
  /-- A value is missing or empty. -/
  | invalidValue
  deriving DecidableEq, Repr

/-- The subcommands. -/
inductive Subcommand where
  | generate
  | inspect
  deriving DecidableEq, Repr

/-- What there is help on. -/
inductive Topic where
  /-- The program as a whole. -/
  | program
  | subcommand (s : Subcommand)
  /-- The subcommand that shows help. -/
  | help
  deriving DecidableEq, Repr

/-- Why no command is run. -/
inductive Stop where
  | usage (reason : UsageError)
  | help (topic : Topic)
  | version
  deriving DecidableEq, Repr

/-- The switches of all commands. -/
inductive Switch where
  | extensions
  | outputDirectory
  | toStdout
  | verbose
  | wrapperDepth
  | help
  | version
  deriving DecidableEq, Repr

namespace Switch

/-- The name of a switch after two dashes. -/
def long : Switch → Text
  | .extensions => "graphql-file-exts"
  | .outputDirectory => "output-dir"
  | .toStdout => "stdout"
  | .verbose => "verbose"
  | .wrapperDepth => "wrapper-depth"
  | .help => "help"
  | .version => "version"

/-- The character of a switch after one dash, if it has one. -/
def short? : Switch → Option Char
  | .outputDirectory => some 'o'
  | .verbose => some 'v'
  | .help => some 'h'
  | .version => some 'V'
  | .extensions | .toStdout | .wrapperDepth => none

/-- Whether a switch has a value. -/
def takesValue : Switch → Bool
  | .extensions | .outputDirectory | .wrapperDepth => true
  | .toStdout | .verbose | .help | .version => false

end Switch

/-- The switches that may stand where a topic is read. -/
def Topic.switches : Topic → List Switch
  | .program => [.verbose, .help, .version]
  | .subcommand .generate =>
    [.extensions, .outputDirectory, .toStdout, .verbose, .wrapperDepth, .help]
  | .subcommand .inspect => [.wrapperDepth, .verbose, .help]
  | .help => []

/-! ## Values -/

/-- The largest wrapper depth that can be given, which fills 64 bits. -/
def maxWrapperDepth : Nat := 0xffffffffffffffff

/-- The number that decimal digits stand for; a plus sign may precede them. -/
def number? (value : Text) : Option Nat :=
  let digits := match value with
    | '+' :: r => r
    | r => r
  if digits.isEmpty || !digits.all Char.isDigit then none
  else
    let n := digits.foldl (fun n c => 10 * n + (c.toNat - '0'.toNat)) 0
    if n ≤ maxWrapperDepth then some n else none

/-- What the arguments have given so far. -/
structure Given where
  extensions : Option (List Text) := none
  outputDirectory : Option Text := none
  toStdout : Bool := false
  verbose : Bool := false
  wrapperDepth : Option Nat := none
  words : List Text := []

namespace Given

/-- Gives a switch a value. -/
def setValue (g : Given) (value : Text) : Switch → Except UsageError Given
  | .extensions =>
    .ok { g with extensions := some (g.extensions.getD [] ++ Text.splitAt ',' value) }
  | .outputDirectory =>
    if g.outputDirectory.isSome then .error .argumentConflict
    else if value.isEmpty then .error .invalidValue
    else .ok { g with outputDirectory := some value }
  | .wrapperDepth =>
    if g.wrapperDepth.isSome then .error .argumentConflict
    else match number? value with
      | some n => .ok { g with wrapperDepth := some n }
      | none => .error .valueValidation
  | .toStdout | .verbose | .help | .version => .ok g

/-- Sets a switch that has no value, unless it asks for something else than a command. -/
def setFlag (g : Given) (topic : Topic) : Switch → Except Stop Given
  | .toStdout =>
    if g.toStdout then .error (.usage .argumentConflict) else .ok { g with toStdout := true }
  | .verbose =>
    if g.verbose then .error (.usage .argumentConflict) else .ok { g with verbose := true }
  | .help => .error (.help topic)
  | .version => .error .version
  | .extensions | .outputDirectory | .wrapperDepth => .ok g

/-- Adds words, which may not be empty. -/
def addWords (g : Given) (words : List Text) : Except UsageError Given :=
  if words.any (·.isEmpty) then .error .invalidValue
  else .ok { g with words := g.words ++ words }

end Given

/-! ## Reading arguments -/

/-- What is read and not yet judged. -/
inductive Pending where
  | nothing
  /-- A switch and its value, if that was read. -/
  | value (s : Switch) (value : Option Text)
  | words (words : List Text)

/-- The state between two arguments. -/
structure Scan where
  given : Given := {}
  pending : Pending := .nothing

namespace Scan

/-- Judges what is pending. -/
def settle (s : Scan) : Except Stop Given :=
  match s.pending with
  | .nothing => .ok s.given
  | .value _ none => .error (.usage .invalidValue)
  | .value sw (some value) => (s.given.setValue value sw).mapError .usage
  | .words words => (s.given.addWords words).mapError .usage

/-- Reads a switch; `attached` is what an equals sign joins to it. -/
def switch (topic : Topic) (s : Scan) (sw : Switch) (attached : Option Text) :
    Except Stop Scan :=
  match sw.takesValue, attached with
  | false, some _ => .error (.usage .tooManyValues)
  | false, none => do
    let given ← (← s.settle).setFlag topic sw
    return { given }
  | true, none => do
    return { given := ← s.settle, pending := .value sw none }
  | true, some value => do
    let given ← ((← s.settle).setValue value sw).mapError .usage
    return { given }

/-- Reads a switch by its long name. -/
def longSwitch (topic : Topic) (s : Scan) (text : Text) : Except Stop Scan :=
  let (name, attached) := match Text.cutAt '=' text with
    | some (name, value) => (name, some value)
    | none => (text, none)
  match topic.switches.find? (·.long == name) with
  | some sw => s.switch topic sw attached
  | none => .error (.usage .unknownArgument)

/-- Reads switches by their characters; the rest after a switch with a value is that value. -/
def shortSwitches (topic : Topic) (s : Scan) : Text → Except Stop Scan
  | [] => .ok s
  | c :: r =>
    match topic.switches.find? (·.short? == some c) with
    | none => .error (.usage .unknownArgument)
    | some sw =>
      if sw.takesValue then
        match r with
        | [] => s.switch topic sw none
        | '=' :: value => s.switch topic sw (some value)
        | value => s.switch topic sw (some value)
      else
        match s.switch topic sw none with
        | .ok after => after.shortSwitches topic r
        | .error stop => .error stop

/-- Reads an argument as a switch, if it is one. -/
def switch? (topic : Topic) (s : Scan) : Text → Option (Except Stop Scan)
  | '-' :: '-' :: r => some (s.longSwitch topic r)
  | '-' :: c :: r => some (s.shortSwitches topic (c :: r))
  | _ => none

/-- Whether words were read. -/
def hasWords (s : Scan) : Bool :=
  !s.given.words.isEmpty || match s.pending with
    | .words _ => true
    | .nothing | .value .. => false

/-- Reads a word: `generate` takes any number of them and `inspect` one. -/
def word (command : Subcommand) (s : Scan) (w : Text) : Except Stop Scan :=
  match command, s.pending with
  | .generate, .words ws => .ok { s with pending := .words (ws ++ [w]) }
  | .inspect, _ =>
    if s.hasWords then .error (.usage .unknownArgument)
    else do return { given := ← s.settle, pending := .words [w] }
  | .generate, _ => do return { given := ← s.settle, pending := .words [w] }

/-- Reads the arguments of a subcommand. -/
def arguments (command : Subcommand) (s : Scan) : List Text → Except Stop Given
  | [] => s.settle
  | a :: r =>
    if a = ['-', '-'] then do (← r.foldlM (word command) s).settle
    else match s.switch? (.subcommand command) a, s.pending with
      | some (.ok after), _ => after.arguments command r
      | some (.error stop), _ => .error stop
      | none, .value sw none =>
        { s with pending := .value sw (some a) }.arguments command r
      | none, _ =>
        match s.word command a with
        | .ok after => after.arguments command r
        | .error stop => .error stop

end Scan

/-! ## The command line -/

/-- What the arguments ask for. -/
inductive Request where
  | nothing
  | generate (options : GenerateOptions)
  | inspect (options : InspectOptions)

/-- A request, and whether it should be verbose. -/
structure CommandLine where
  verbose : Bool
  request : Request

/-- The subcommand of a name. -/
def Subcommand.named? (name : Text) : Option Subcommand :=
  if name = "generate" then some .generate
  else if name = "inspect" then some .inspect
  else none

/-- The topic that the words after `help` name. -/
def Topic.named? : List Text → Option Topic
  | [] => some .program
  | [name] => if name = "help" then some .help else (Subcommand.named? name).map .subcommand
  | _ => none

/-- What is asked of `generate`. -/
def Given.generateOptions (g : Given) : GenerateOptions :=
  let defaults : GenerateOptions := {}
  { extensions := g.extensions.getD defaults.extensions
    outputDirectory := g.outputDirectory.getD defaults.outputDirectory
    toStdout := g.toStdout
    wrapperDepth := g.wrapperDepth.getD defaults.wrapperDepth
    paths := if g.words.isEmpty then defaults.paths else g.words }

/-- What is asked of a subcommand. -/
def Given.request (g : Given) : Subcommand → Except UsageError Request
  | .generate => .ok (.generate g.generateOptions)
  | .inspect =>
    match g.words with
    | path :: _ =>
      .ok (.inspect { wrapperDepth := g.wrapperDepth.getD defaultWrapperDepth, path })
    | [] => .error .missingRequiredArgument

namespace CommandLine

/-- Reads the arguments before a subcommand, and those of the subcommand. -/
def read (s : Scan) : List Text → Except Stop CommandLine
  | [] => do return { verbose := (← s.settle).verbose, request := .nothing }
  | a :: r =>
    if a = ['-', '-'] then
      match r with
      | [] => do return { verbose := (← s.settle).verbose, request := .nothing }
      | w :: _ =>
        .error (.usage
          (if w = "help" || (Subcommand.named? w).isSome then .unknownArgument
            else .invalidSubcommand))
    else if a = "help" then
      match Topic.named? r with
      | some topic => .error (.help topic)
      | none => .error (.usage .invalidSubcommand)
    else match Subcommand.named? a with
      | some command => do
        let g ← ({} : Scan).arguments command r
        let request ← (g.request command).mapError .usage
        return { verbose := (← s.settle).verbose || g.verbose, request }
      | none =>
        match s.switch? .program a with
        | some (.ok after) => read after r
        | some (.error stop) => .error stop
        | none => .error (.usage .invalidSubcommand)

/-- The command line that the arguments state. -/
def ofArguments (arguments : List Text) : Except Stop CommandLine :=
  read {} arguments

end CommandLine

end DataSourceGen
