import DataSourceGen.Command.Arguments

/-!
# Help

What the program says about itself when it is asked for help or for its version.
-/

namespace DataSourceGen

namespace Topic

/-- The help on the program. -/
def programHelp : List Text := [
  "Generates Terraform data sources from GraphQL query documents.",
  "",
  "Usage: tfgen [OPTIONS] [COMMAND]",
  "",
  "Commands:",
  "  generate  Generate one Terraform data source per query document",
  "  inspect   Print the parsed fields and accessor paths of one query document",
  "  help      Print this message or the help of the given subcommand(s)",
  "",
  "Options:",
  "  -v, --verbose  Enable verbose output.",
  "  -h, --help     Print help",
  "  -V, --version  Print version"]

/-- The help on `generate`. -/
def generateHelp : List Text := [
  "Generate one Terraform data source per query document",
  "",
  "Usage: tfgen generate [OPTIONS] [FILE_OR_DIR_PATHS]...",
  "",
  "Arguments:",
  "  [FILE_OR_DIR_PATHS]...  Paths to one or more query documents or directories " ++
    "containing query documents. [default: gql]",
  "",
  "Options:",
  "      --graphql-file-exts <GRAPHQL_FILE_EXTS>",
  "          Set of file extensions to filter to when searching for query documents " ++
    "within a directory. [default: graphql gql]",
  "  -o, --output-dir <OUTPUT_DIR>",
  "          Directory that generated `<query>_data_source.go` files are written to. " ++
    "Created if it doesn't exist. [default: internal/provider]",
  "      --stdout",
  "          Print the generated sources instead of writing them to --output-dir.",
  "  -v, --verbose",
  "          Enable verbose output.",
  "      --wrapper-depth <WRAPPER_DEPTH>",
  "          Number of separators that the outermost wrapper blocks (e.g. `edges` and " ++
    "`node`) contribute to each flattened field name. [default: 2]",
  "  -h, --help",
  "          Print help"]

/-- The help on `inspect`. -/
def inspectHelp : List Text := [
  "Print the parsed fields and accessor paths of one query document",
  "",
  "Usage: tfgen inspect [OPTIONS] <FILE_PATH>",
  "",
  "Arguments:",
  "  <FILE_PATH>  Path to the query document to inspect.",
  "",
  "Options:",
  "      --wrapper-depth <WRAPPER_DEPTH>  Number of separators that the outermost " ++
    "wrapper blocks (e.g. `edges` and `node`) contribute to each flattened field name. " ++
    "[default: 2]",
  "  -v, --verbose                        Enable verbose output.",
  "  -h, --help                           Print help"]

/-- The help on `help`. -/
def helpHelp : List Text := [
  "Print this message or the help of the given subcommand(s)",
  "",
  "Usage: tfgen help [COMMAND]...",
  "",
  "Arguments:",
  "  [COMMAND]...  Print help for the subcommand(s)"]

/-- The lines of the help on a topic. -/
def helpLines : Topic → List Text
  | .program => programHelp
  | .subcommand .generate => generateHelp
  | .subcommand .inspect => inspectHelp
  | .help => helpHelp

/-- The help on a topic. -/
def helpText (topic : Topic) : Text :=
  topic.helpLines.flatMap (· ++ ['\n'])

end Topic

/-- The name and the version of the program, on a line. -/
def versionText : Text := "tfgen 0.0.1\n"

end DataSourceGen
