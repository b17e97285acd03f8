import DataSourceGen.Command.Help
import DataSourceGen.Text.Blank
import DataSourceGen.Text.Lines

/-!
# The program

A run of the program: the arguments are read, the command is run on a file tree, and what was
reported is shown down to the level that a switch or the environment chooses. Arguments that ask
for help or make no sense end the run before anything is reported.
-/

namespace DataSourceGen

namespace Request

/-- Runs the request; a request for nothing shows the help on the program. -/
def run (tree : FileTree) : Request → Completed
  | .generate options => options.run tree
  | .inspect options => options.run tree
  | .nothing => { outcome := .success (Topic.helpText .program), tree, events := [] }

/-- The text of a success on standard output: results of commands end their last line. -/
def printed (output : Text) : Request → Text
  | .nothing => output
  | .generate _ | .inspect _ => output ++ ['\n']

end Request

/-! ## The level of the log -/

/-- The level of the log unless something else is asked for. -/
def defaultLevel : Level := .info

/-- The level that the environment names, if it names one. -/
def Level.named? (name : Text) : Option Level :=
  if name = "DEBUG" || name = "debug" then some .debug
  else if name = "INFO" || name = "info" then some .info
  else if name = "TRACE" || name = "trace" then some .trace
  else if name = "VERBOSE" || name = "verbose" then some .debug
  else none

/-- The level of the log, and what choosing it reports. -/
def chooseLevel (verbose : Bool) (setting : Option Text) : Level × List Event :=
  let chosen : Level × List Event :=
    if verbose then (.debug, [])
    else match setting.map Text.trim with
      | none => (defaultLevel, [])
      | some name =>
        match Level.named? name with
        | some level => (level, [])
        | none => (defaultLevel, [.unknownLevel name])
  (chosen.1, .initialLevel chosen.1 :: chosen.2)

/-- Shows a control character that a terminal would act on by its code. -/
def shownInLog (c : Char) : Text :=
  if c == '\x1b' then "\\x1b"
  else if c == '\x07' then "\\x07"
  else if c == '\x08' then "\\x08"
  else if c == '\x0c' then "\\x0c"
  else if c == '\x7f' then "\\x7f"
  else if 0x80 ≤ c.toNat && c.toNat ≤ 0x9f then
    "\\u\x7b" ++ Nat.toDigits 16 c.toNat ++ "\x7d"
  else [c]

/-- The record of an event in the log: its level and its wording. -/
def Event.record (e : Event) : Text :=
  e.level.name ++ " " ++ e.message.flatMap shownInLog

/-! ## Runs -/

/-- A finished run of the program. -/
structure Run where
  exitCode : Nat
  /-- Standard output. -/
  output : Text
  /-- The lines of the message on standard error. -/
  errors : List Text
  /-- The records of the log. -/
  log : List Text
  /-- The file tree after the run. -/
  tree : FileTree

/-- The run of a command line. -/
def CommandLine.run (line : CommandLine) (setting : Option Text) (tree : FileTree) : Run :=
  let (level, opening) := chooseLevel line.verbose setting
  let completed := line.request.run tree
  let log := (atLevel level (opening ++ completed.events)).map Event.record
  match completed.outcome with
  | .success output =>
    { exitCode := completed.outcome.exitCode
      output := line.request.printed output
      errors := []
      log
      tree := completed.tree }
  | .failure error =>
    { exitCode := completed.outcome.exitCode
      output := []
      errors := Text.lines error
      log
      tree := completed.tree }

/-- The exit code for arguments that are rejected. -/
def usageExitCode : Nat := 2

/-- The run of the program on its arguments; `setting` is the level that the environment names. -/
def runProgram (arguments : List Text) (setting : Option Text) (tree : FileTree) : Run :=
  match CommandLine.ofArguments arguments with
  | .ok line => line.run setting tree
  | .error (.usage _) => { exitCode := usageExitCode, output := [], errors := [], log := [], tree }
  | .error (.help topic) =>
    { exitCode := 0, output := topic.helpText, errors := [], log := [], tree }
  | .error .version => { exitCode := 0, output := versionText, errors := [], log := [], tree }

end DataSourceGen
