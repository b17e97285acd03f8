import DataSourceGen.DataSource.Basic

/-!
# The Go source of a data source

The source is a list of lines. Its fixed parts frame three blocks that follow the attributes: the
members of the struct that holds a result, the keys of the schema, and the assignments that fill
a result from an answer. In a lookup of one entity the struct of the data source is itself the
result, and the required parameter comes first in each block; a collection has a model struct of
its own and fills one result for each edge of the answer.
-/

namespace DataSourceGen

open Text

/-! ## Lines -/

/-- A body one level deeper; blank lines stay blank. -/
def indent (body : List Text) : List Text :=
  body.map fun line => if line.isEmpty then line else '\t' :: line

/-- A body between the lines that open and close it, one level deeper than they are. -/
def enclose (opening : Text) (body : List Text) (closing : Text) : List Text :=
  opening :: indent body ++ [closing]

/-- A body in braces after a head. -/
def braced (head : Text) (body : List Text) : List Text :=
  enclose (head ++ " \x7b") body "\x7d"

/-- A line without text. -/
def blankLine : List Text := [[]]

/-- A text between double quotes, as it is. -/
def literal (t : Text) : Text :=
  "\"" ++ t ++ "\""

/-! ## Members of a struct -/

/-- A member of a Go struct. -/
structure Member where
  name : Text
  type : Text
  /-- The attribute that the member carries. -/
  tag? : Option Text

/-- The declaration of a member. -/
def Member.line (m : Member) : Text :=
  match m.tag? with
  | none => m.name ++ " " ++ m.type
  | some tag => m.name ++ " " ++ m.type ++ " `tfsdk:" ++ literal tag ++ "`"

/-- The member that carries an attribute. -/
def Attribute.member (a : Attribute) : Member :=
  ⟨capitalizeFirst a.name, a.scalar.valueType, some a.name⟩

/-- The assignment that fills an attribute from an answer. -/
def Attribute.assignment (a : Attribute) : Text :=
  capitalizeFirst a.name ++ ": " ++ a.scalar.valueConstructor ++ "(response." ++ a.expression ++
    "),"

/-- An attribute of a schema: its key, its kind and the flag that is set. -/
def schemaAttribute (key kind flag : Text) : List Text :=
  enclose (literal key ++ ": " ++ kind ++ "\x7b") [flag ++ ": true,"] "\x7d,"

/-- The attribute of a schema for a field, whose value comes from the answer. -/
def Attribute.schemaLines (a : Attribute) : List Text :=
  schemaAttribute a.name a.scalar.schemaAttribute "Computed"

namespace DataSource

/-- The name of the struct for one result of a collection. -/
def modelName (d : DataSource) : Text :=
  d.queryName ++ "Model"

/-- The members of the struct of the data source. -/
def members (d : DataSource) : List Member :=
  ⟨"client", "*graphql.Client", none⟩ ::
    match d.parameter? with
    | some p =>
      ⟨capitalizeFirst p, "types.String", some p⟩ :: d.attributes.map Attribute.member
    | none => [⟨d.queryName, "[]" ++ d.modelName, some d.queryName⟩]

/-- The members of the model struct. -/
def modelMembers (d : DataSource) : List Member :=
  d.attributes.map Attribute.member

/-! ## Sections -/

/-- Everything before the first declaration. -/
def preamble (d : DataSource) : List Text :=
  ["// Code generated by tfgen from the `" ++ d.queryName ++ "` query. DO NOT EDIT.",
    "",
    "package provider",
    ""] ++
  enclose "import (" [
    "\"context\"",
    "\"fmt\"",
    "",
    "infrahub_sdk \"github.com/opsmill/infrahub-sdk-go\"",
    "",
    "\"github.com/Khan/genqlient/graphql\"",
    "\"github.com/hashicorp/terraform-plugin-framework/datasource\"",
    "\"github.com/hashicorp/terraform-plugin-framework/datasource/schema\"",
    "\"github.com/hashicorp/terraform-plugin-framework/types\"",
    "\"github.com/hashicorp/terraform-plugin-log/tflog\""] ")"

/-- The check that the type is a data source. -/
def interfaceCheck (d : DataSource) : List Text :=
  "// Ensure the implementation satisfies the expected interfaces." ::
  enclose "var (" [
    "_ datasource.DataSource              = &" ++ d.structName ++ "\x7b\x7d",
    "_ datasource.DataSourceWithConfigure = &" ++ d.structName ++ "\x7b\x7d"] ")"

/-- The name of the function that makes a data source. -/
def constructorName (d : DataSource) : Text :=
  "New" ++ capitalizeFirst d.queryName ++ "DataSource"

/-- The function that makes a data source. -/
def constructor (d : DataSource) : List Text :=
  ("// " ++ d.constructorName ++
    " is a helper function to simplify the provider implementation.") ::
  braced ("func " ++ d.constructorName ++ "() datasource.DataSource") [
    "return &" ++ d.structName ++ "\x7b\x7d"]

/-- The declaration of a struct type. -/
def structType (name : Text) (members : List Member) : List Text :=
  braced ("type " ++ name ++ " struct") (members.map Member.line)

/-- The struct types: that of the data source, and for a collection that of one result. -/
def types (d : DataSource) : List Text :=
  structType d.structName d.members ++
    match d.parameter? with
    | some _ => []
    | none => "" :: structType d.modelName d.modelMembers

/-- A method of the data source, from its name and the text of its parameters. -/
def method (d : DataSource) (signature : Text) (body : List Text) : List Text :=
  braced ("func (d *" ++ d.structName ++ ") " ++ signature) body

/-- The method that names the data source. -/
def metadata (d : DataSource) : List Text :=
  d.method ("Metadata(_ context.Context, req datasource.MetadataRequest, " ++
      "resp *datasource.MetadataResponse)") [
    "resp.TypeName = req.ProviderTypeName + " ++ literal ("_" ++ d.queryName)]

/-- The attributes of the schema, inside their map. -/
def schemaAttributes (d : DataSource) : List Text :=
  match d.parameter? with
  | some p =>
    schemaAttribute p "schema.StringAttribute" "Required" ++
      d.attributes.flatMap Attribute.schemaLines
  | none =>
    enclose (literal d.queryName ++ ": schema.ListNestedAttribute\x7b")
      ("Computed: true," ::
        enclose "NestedObject: schema.NestedAttributeObject\x7b"
          (enclose "Attributes: map[string]schema.Attribute\x7b"
            (d.attributes.flatMap Attribute.schemaLines) "\x7d,") "\x7d,") "\x7d,"

/-- The method that declares the attributes. -/
def schema (d : DataSource) : List Text :=
  d.method ("Schema(ctx context.Context, req datasource.SchemaRequest, " ++
      "resp *datasource.SchemaResponse)")
    (enclose "resp.Schema = schema.Schema\x7b"
      (enclose "Attributes: map[string]schema.Attribute\x7b" d.schemaAttributes "\x7d,") "\x7d")

/-- The statements that report an error and leave the method. -/
def failWith (summary detail : Text) : List Text :=
  enclose "resp.Diagnostics.AddError(" [summary ++ ",", detail ++ ","] ")" ++ [("return" : Text)]

/-- The statement that leaves a method after an earlier error. -/
def leaveOnError : List Text :=
  "resp.Diagnostics.Append(diags...)" ::
    braced "if resp.Diagnostics.HasError()" ["return"]

/-- The statements that send the query; `arguments` follow the client. -/
def request (d : DataSource) (arguments : Text) : List Text :=
  ("response, err := infrahub_sdk." ++ capitalizeFirst d.queryName ++ "(ctx, *d.client" ++
    arguments ++ ")") ::
  braced "if err != nil"
    (failWith (literal ("Unable to read " ++ d.queryName ++ " from Infrahub")) "err.Error()")

/-- The assignments that fill the attributes of a result. -/
def assignments (d : DataSource) : List Text :=
  d.attributes.map Attribute.assignment

/-- The statements that fill the result of a lookup of one entity. -/
def readSingle (d : DataSource) (parameter : Text) : List Text :=
  let member := capitalizeFirst parameter
  d.request (", config." ++ member ++ ".ValueString()") ++
  blankLine ++
  braced ("if len(response." ++ d.objectName ++ ".Edges) != 1")
    (failWith
      (literal ("Didn't receive a single " ++ d.queryName ++
        ", query didn't return exactly 1 " ++ d.queryName))
      (literal ("Expected exactly 1 " ++ d.queryName ++
        " in response, got a different count."))) ++
  blankLine ++
  enclose ("state := " ++ d.structName ++ "\x7b")
    ((member ++ ": config." ++ member ++ ",") :: d.assignments) "\x7d"

/-- The head of the loop over the edges; its index is declared iff there is an attribute. -/
def loopHead (d : DataSource) : Text :=
  "for " ++ (if d.attributes.isEmpty then [] else "i := ".toList) ++ "range response." ++
    d.objectName ++ ".Edges"

/-- The statements that fill the results of a collection. -/
def readCollection (d : DataSource) : List Text :=
  d.request [] ++
  blankLine ++
  ("var state " ++ d.structName) ::
  braced d.loopHead
    (enclose ("current := " ++ d.modelName ++ "\x7b") d.assignments "\x7d" ++
      ["state." ++ d.queryName ++ " = append(state." ++ d.queryName ++ ", current)"])

/-- The method that reads the data. -/
def read (d : DataSource) : List Text :=
  d.method ("Read(ctx context.Context, req datasource.ReadRequest, " ++
      "resp *datasource.ReadResponse)")
    (("tflog.Info(ctx, " ++ literal ("Reading " ++ d.queryName ++ " data...") ++ ")") ::
    ("var config " ++ d.structName) ::
    blankLine ++
    ("// Read configuration into config" : Text) ::
    ("diags := req.Config.Get(ctx, &config)" : Text) ::
    leaveOnError ++
    blankLine ++
    (match d.parameter? with
      | some p => d.readSingle p
      | none => d.readCollection) ++
    blankLine ++
    ("// Set state" : Text) :: ("diags = resp.State.Set(ctx, &state)" : Text) ::
    leaveOnError)

/-- The method that hands the client of the provider to the data source. -/
def configure (d : DataSource) : List Text :=
  "// Configure adds the provider configured client to the data source." ::
  d.method ("Configure(_ context.Context, req datasource.ConfigureRequest, " ++
      "resp *datasource.ConfigureResponse)")
    (("// ProviderData is nil until Terraform has called the ConfigureProvider RPC." : Text) ::
    braced "if req.ProviderData == nil" ["return"] ++
    blankLine ++
    ("client, ok := req.ProviderData.(graphql.Client)" : Text) ::
    braced "if !ok"
      (failWith "\"Unexpected Data Source Configure Type\""
        ("fmt.Sprintf(\"Expected graphql.Client, got: %T. " ++
          "Please report this issue to the provider developers.\", req.ProviderData)")) ++
    blankLine ++
    [("d.client = &client" : Text)])

/-! ## The whole source -/

/-- The lines of the source. -/
def lines (d : DataSource) : List Text :=
  List.intercalate blankLine
    [d.preamble, d.interfaceCheck, d.constructor, d.types, d.metadata, d.schema, d.read,
      d.configure]

/-- The source of a data source. -/
def source (d : DataSource) : Text :=
  d.lines.flatMap (· ++ ['\n'])

end DataSource

/-- The source for a query whose fields are bound through accessor paths. -/
def emit (q : Query) (paths : List AccessorPath) : Except EmitError Text :=
  (DataSource.bind q paths).map DataSource.source

end DataSourceGen
