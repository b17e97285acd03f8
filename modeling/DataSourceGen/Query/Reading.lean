import DataSourceGen.Log
import DataSourceGen.Query.Heading
import DataSourceGen.Text.Lines

/-!
# Reading a document

A document is read line by line, each line trimmed and judged on its own. The first line names the
operation and the second the root object; after that a line that ends in a blank and an opening
brace opens a block, a closing brace closes the innermost one, and any other line inside a block
selects a leaf. Lines that fit nothing are passed over: only a missing operation name is an error.

The outermost blocks are wrappers. When a block is closed while the running flat name has fewer
separators than the wrappers contribute, the wrappers themselves are being closed and reading
ends. Separators are counted and not blocks: a wrapper with an underscore in its name counts more
than once.

`Reading` is what is known after some lines, `Reading.next` what one more line adds, and
`Query.parse` the reading of a whole document.
-/

namespace DataSourceGen

open Text

/-- How many separators the wrapper blocks contribute unless told otherwise. -/
def defaultWrapperDepth : Nat := 2

/-- What is known after reading some lines of a document. -/
structure Reading where
  operationName : Option Text := none
  rootName : Text := []
  parameter : Option Text := none
  /-- The texts of the blocks that are open, innermost first. -/
  openBlocks : List Text := []
  /-- The beginning of the flat names of leaves here: each open block, followed by a separator. -/
  lead : Text := []
  /-- The leaves so far, in document order. -/
  fields : List Field := []
  /-- The flat names of the leaves so far. -/
  flatNames : NameSet := .empty
  /-- The names with an underscore so far. -/
  compounds : NameSet := .empty
  deriving DecidableEq

/-- What one line does: the reading after it, what it reports, and whether it is the last. -/
structure Step where
  reading : Reading
  events : List Event := []
  stops : Bool := false

/-- The text of the block that a line opens, if the line ends in a blank and an opening brace. -/
def openedBlock? (line : Text) : Option Text :=
  " \x7b".toList.isSuffixOf? line

/-- The line that closes a block. -/
def closingLine : Text := "\x7d"

/-- What stands where a line would name a leaf: its first word, before any parenthesis. -/
def selectedWord? (line : Text) : Option Text :=
  (firstWord? line).map callee

namespace Reading

/-- A set of names with one that may hold an underscore. -/
def noteCompound (compounds : NameSet) (name : Text) : NameSet :=
  if name.contains separator then compounds.insert name else compounds

/-- Enters a block. -/
def openBlock (s : Reading) (block : Text) : Step where
  reading := { s with
    compounds := noteCompound s.compounds block
    lead := s.lead ++ block ++ [separator]
    openBlocks := block :: s.openBlocks }
  events := [.openingBlock block]

/-- Leaves the innermost block, or ends the reading at the wrappers. -/
def closeBlock (depth : Nat) (s : Reading) : Step :=
  if s.lead.count separator < depth then { reading := { s with lead := [] }, stops := true }
  else match s.openBlocks with
    | [] => { reading := s, stops := true }
    | block :: outer =>
      { reading := { s with
          lead := truncate (byteSize s.lead - (byteSize block + separator.utf8Size)) s.lead
          openBlocks := outer }
        events := [.closingBlock block] }

/-- Selects the leaf that a line names, unless it was selected before. -/
def recordLeaf (s : Reading) (line : Text) : Step :=
  match selectedWord? line with
  | none => { reading := s }
  | some name =>
    if !isName name then { reading := s, events := [.skippedLine line] }
    else
      let flatName := s.lead ++ name
      if s.flatNames.contains flatName then { reading := s, events := [.repeatedField flatName] }
      else
        { reading := { s with
            flatNames := s.flatNames.insert flatName
            compounds := noteCompound s.compounds name
            fields := s.fields ++ [{ flatName }] }
          events := [.recordedField flatName] }

/-- Takes the operation name from the first line, if it has one. -/
def nameOperation (s : Reading) : OperationLine → Step
  | .named name =>
    { reading := { s with operationName := some name }, events := [.foundOperation name] }
  | .malformed word => { reading := s, events := [.notAnOperation word] }
  | .nameless | .other => { reading := s }

/-- Takes the root object from the second line. -/
def nameRoot (s : Reading) (line : Text) : Step :=
  let root := RootLine.ofLine line
  { reading := { s with rootName := root.name, parameter := root.parameter }
    events := (if root.isUnbound then [.unboundArgument line] else []) ++
      [.rootObject root.name root.parameter] }

/-- Reads a line of selections. -/
def select (depth : Nat) (s : Reading) (line : Text) : Step :=
  match openedBlock? line with
  | some block => s.openBlock block
  | none =>
    if line = closingLine then s.closeBlock depth
    else if s.openBlocks.isEmpty then { reading := s }
    else s.recordLeaf line

/-- Reads one trimmed line; `index` counts the lines before it. -/
def next (depth index : Nat) (s : Reading) (line : Text) : Step :=
  match index with
  | 0 =>
    match OperationLine.ofLine line with
    | .other => s.select depth line
    | heading => s.nameOperation heading
  | 1 => s.nameRoot line
  | _ + 2 => s.select depth line

/-- Reads lines, of which `index` came before, until one of them is the last. -/
def run (depth index : Nat) (s : Reading) : List Text → Reading × List Event
  | [] => (s, [])
  | line :: rest =>
    let step := s.next depth index (trim line)
    if step.stops then (step.reading, step.events ++ [.wrappersClosed (index + 1)])
    else
      let after := step.reading.run depth (index + 1) rest
      (after.1, step.events ++ after.2)

/-- The reading of a document. -/
def ofDocument (depth : Nat) (document : Text) : Reading :=
  (run depth 0 {} (lines document)).1

end Reading

/-- Why a document has no query. -/
inductive ParseError where
  | missingQueryName
  deriving DecidableEq, Repr

/-- The wording of the reason. -/
def ParseError.message : ParseError → Text
  | .missingQueryName => "failed to parse GraphQL query: missing query name"

namespace Query

/-- The query that a reading amounts to. -/
def ofReading (s : Reading) : Except ParseError Query :=
  match s.operationName with
  | none => .error .missingQueryName
  | some operationName => .ok {
      operationName
      rootName := s.rootName
      shape := .ofParameter? s.parameter
      fields := s.fields
      compounds := s.compounds }

/-- The query that a document states. -/
def parse (depth : Nat) (document : Text) : Except ParseError Query :=
  ofReading (.ofDocument depth document)

/-- What is reported while a document is read. -/
def parseLog (depth : Nat) (document : Text) : List Event :=
  (Reading.run depth 0 {} (lines document)).2

end Query

end DataSourceGen
