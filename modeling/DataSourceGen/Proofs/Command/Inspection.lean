import DataSourceGen.Command.Inspect
import DataSourceGen.Proofs.Command.Printing
import DataSourceGen.Proofs.DataSource.Assignments
import DataSourceGen.Proofs.Json.RoundTrip
import DataSourceGen.Proofs.Reading.Insertions

/-!
# What is inspected is what is generated

For a single file the two commands read one document (`readDocument_canonical_eq_ok_iff`), and each
succeeds exactly if there is a query in it (`InspectOptions.run_eq_success_iff`,
`GenerateOptions.run_eq_success_iff`). The report is read back as the value that was printed
(`Json.decode?_pretty`), and this value describes the data source of the query (`Query.describes`).

**Theorem** (`InspectOptions.run_agrees`): the two commands succeed together, and then the report
describes the data source whose source is printed.
-/

namespace DataSourceGen

open FileTree Text

/-! ### Parts of a report -/

namespace Json

/-- The texts of an array that was made of them. -/
theorem texts?_array (ts : List Text) : texts? (.array (ts.map .string)) = some ts := by
  have htext : text? ∘ Json.string = fun t => pure t := rfl
  rw [texts?, List.mapM_map, htext, List.mapM_pure, List.map_id']
  rfl

/-- A column of an array whose objects were made one by one. -/
theorem column?_array {α : Type} {row : α → Json} {key : Text} {entry : α → Text}
    (h : ∀ a, ((row a).member? key).bind text? = some (entry a)) (as : List α) :
    column? key (.array (as.map row)) = some (as.map entry) := by
  have hrow : (fun item => (item.member? key).bind text?) ∘ row = fun a => pure (entry a) :=
    funext h
  rw [column?, List.mapM_map, hrow, List.mapM_pure]
  rfl

/-- Whether a report describes a data source: its type and its shape, and under three keys its
fields in order, the third time with their expressions. -/
structure Describes (j : Json) (d : DataSource) : Prop where
  structName : (j.at? ["struct_name"]).bind text? = some d.structName
  kind : (j.at? ["query", "shape", "kind"]).bind text? =
    some (if d.parameter?.isSome then "single_entity" else "collection")
  parameter : (j.at? ["query", "shape", "required_param"]).bind text? = d.parameter?
  fields : (j.at? ["fields"]).bind (column? "flat_name") = some (d.attributes.map Attribute.name)
  selections : (j.at? ["query", "fields"]).bind (column? "flat_name") =
    some (d.attributes.map Attribute.name)
  accessors : (j.at? ["accessor_paths"]).bind (column? "flat_name") =
    some (d.attributes.map Attribute.name)
  expressions : (j.at? ["accessor_paths"]).bind (column? "query") =
    some (d.attributes.map Attribute.expression)

end Json

namespace Query

/-- A report on a shape tells its kind and its parameter. -/
theorem report_shape (shape : LookupShape) :
    (shape.report.at? ["kind"]).bind Json.text? =
        some (if shape.parameter?.isSome then "single_entity" else "collection") ∧
      (shape.report.at? ["required_param"]).bind Json.text? = shape.parameter? := by
  cases shape with
  | single parameter => exact ⟨rfl, rfl⟩
  | collection => exact ⟨rfl, rfl⟩

/-- **The report on a query** describes its data source. -/
theorem describes {depth : Nat} {document : Text} {q : Query} (h : parse depth document = .ok q) :
    q.report.Describes q.dataSource := by
  obtain ⟨hkind, hparameter⟩ := report_shape q.shape
  have hsame : q.dataSource.parameter? = q.shape.parameter? := parameter?_dataSource h
  have hnames : q.dataSource.attributes.map Attribute.name = q.fields.map Field.flatName :=
    List.map_map
  have hexpressions : q.dataSource.attributes.map Attribute.expression =
      q.accessors.map AccessorPath.expression := by
    rw [accessors, List.map_map]
    exact List.map_map
  have haccessors : q.accessors.map AccessorPath.flatName = q.fields.map Field.flatName :=
    List.map_map
  refine ⟨rfl, ?_, ?_, ?_, ?_, ?_, ?_⟩
  · rw [hsame]
    exact hkind
  · rw [hsame]
    exact hparameter
  · rw [hnames]
    exact Json.column?_array (fun _ => rfl) q.fields
  · rw [hnames]
    exact Json.column?_array (fun _ => rfl) q.fields
  · rw [hnames, ← haccessors]
    exact Json.column?_array (fun _ => rfl) q.accessors
  · rw [hexpressions]
    exact Json.column?_array (fun _ => rfl) q.accessors

/-- A report lists the names that the lines of the document insert, without their repetitions. -/
theorem exceptions_report {depth : Nat} {document : Text} {q : Query}
    (h : parse depth document = .ok q) :
    (q.report.at? ["query", "exceptions"]).bind Json.texts? =
      some (Reading.insertionsOf depth document).eraseDups := by
  obtain ⟨-, -, hcompounds⟩ := of_parse_eq_ok h
  rw [← Reading.toList_compounds_ofDocument, hcompounds]
  exact Json.texts?_array q.compounds.toList

end Query

/-! ### The two commands on a single file -/

theorem Outcome.exitCode_eq_zero_iff {outcome : Outcome} :
    outcome.exitCode = 0 ↔ ∃ output, outcome = .success output := by
  cases outcome with
  | success output => exact ⟨fun _ => ⟨output, rfl⟩, fun _ => rfl⟩
  | failure error =>
    constructor
    · intro h
      cases h
    · rintro ⟨output, h⟩
      cases h

/-- Inspection prints the report on the query in the document. -/
theorem InspectOptions.run_eq_success_iff {o : InspectOptions} {tree : FileTree} {report : Text} :
    (o.run tree).outcome = .success report ↔
      ∃ document q, tree.readDocument o.path = .ok document ∧
        Query.parse o.wrapperDepth document = .ok q ∧ report = q.report.pretty := by
  unfold run
  rcases tree.readDocument o.path with reason | document
  · simp
  · rcases hparse : Query.parse o.wrapperDepth document with reason | q
    · simp [hparse]
    · simp [hparse, eq_comm]

namespace Batch

variable {o : GenerateOptions} {tree : FileTree} {path : Text}

/-- A single document whose sources are printed is printed if it has a draft. -/
theorem run_single_of_draft_ok (hprints : o.toStdout = true) {g : Generated}
    (hdraft : tree.draft o.wrapperDepth path = .ok g) :
    (run o tree [path]).failures = [] ∧ (run o tree [path]).outputs = [g.source] := by
  have hrun := prints_run hprints tree [path]
  have haccepted : tree.verdict o.wrapperDepth [] path = .ok g :=
    verdict_eq_ok_iff.mpr ⟨hdraft, fun p hp => absurd hp List.not_mem_nil⟩
  exact ⟨hrun.failures.trans (refusals_concat_of_ok haccepted),
    hrun.outputs.trans (congrArg (List.map _) (outputs_concat_of_ok haccepted))⟩

/-- Without a draft it fails. -/
theorem run_single_of_draft_error (hprints : o.toStdout = true) {reason : DocumentError}
    (hdraft : tree.draft o.wrapperDepth path = .error reason) :
    (run o tree [path]).failures = [(path, reason)] := by
  have hrefused : tree.verdict o.wrapperDepth [] path = .error reason :=
    verdict_eq_error_iff.mpr (.inl hdraft)
  exact (prints_run hprints tree [path]).failures.trans (refusals_concat_of_error hrefused)

end Batch

namespace GenerateOptions

variable {tree : FileTree} {path : Text}

/-- The options to print the source of a single file. -/
def onFile (o : GenerateOptions) (path : Text) : GenerateOptions :=
  { o with paths := [path] }.printing

/-- Printing the source of a single file comes to what its canonical path gives by itself. -/
theorem run_onFile_eq_success_iff_draft (h : tree.IsWellFormed) (hfile : tree.isFile path = true)
    {o : GenerateOptions} {source : Text} :
    ((o.onFile path).run tree).outcome = .success source ↔
      ∃ g, tree.draft o.wrapperDepth (tree.canonical path) = .ok g ∧ source = g.source := by
  have hpaths : (QueryFiles.find tree [path] o.extensions).paths = [tree.canonical path] :=
    QueryFiles.find_of_isFile h hfile o.extensions
  have herrors := QueryFiles.errors_find_of_isFile hfile o.extensions
  obtain ⟨-, hrun⟩ :=
    @run_of_prepare (o.onFile path) tree tree (QueryFiles.find tree [path] o.extensions) rfl rfl
  rw [hpaths] at hrun
  rw [hrun]
  rcases hdraft : tree.draft o.wrapperDepth (tree.canonical path) with reason | g
  · have hfailures := @Batch.run_single_of_draft_error (o.onFile path) _ _ rfl _ hdraft
    rw [summary_eq_failure (by simp [hfailures])]
    simp
  · obtain ⟨hfailures, houtputs⟩ := @Batch.run_single_of_draft_ok (o.onFile path) _ _ rfl _ hdraft
    have hsummary : (o.onFile path).summary (QueryFiles.find tree [path] o.extensions)
        (Batch.run (o.onFile path) tree [tree.canonical path]) = .success g.source :=
      (summary_printing herrors hfailures).trans (by rw [houtputs]; rfl)
    rw [hsummary]
    constructor
    · intro hsuccess
      exact ⟨g, rfl, (Outcome.success.inj hsuccess).symm⟩
    · rintro ⟨g', hg, rfl⟩
      rw [Except.ok.inj hg]

/-- **Printing the source of a single file** succeeds exactly if there is a query in its document,
with the source for this query. -/
theorem run_onFile_eq_success_iff (h : tree.IsWellFormed) (hfile : tree.isFile path = true)
    {o : GenerateOptions} {source : Text} :
    ((o.onFile path).run tree).outcome = .success source ↔
      ∃ document q, tree.readDocument path = .ok document ∧
        Query.parse o.wrapperDepth document = .ok q ∧ source = q.dataSource.source := by
  obtain ⟨l, e, hstat, -⟩ := exists_stat_of_isFile hfile
  rw [run_onFile_eq_success_iff_draft h hfile]
  constructor
  · rintro ⟨g, hdraft, rfl⟩
    obtain ⟨document, hread, hgenerate⟩ := draft_eq_ok_iff.mp hdraft
    obtain ⟨q, hparse, rfl⟩ := generate_eq_ok_iff.mp hgenerate
    exact ⟨document, q, (h.readDocument_canonical_eq_ok_iff hstat).mp hread, hparse, rfl⟩
  · rintro ⟨document, q, hread, hparse, rfl⟩
    have hcanonical := (h.readDocument_canonical_eq_ok_iff hstat).mpr hread
    exact ⟨_, draft_eq_ok_iff.mpr ⟨document, hcanonical, generate_of_parse hparse⟩, rfl⟩

end GenerateOptions

/-- **The two commands agree** on every file, whatever the wrapper depth: inspecting it succeeds
exactly if printing its source does. Then the report is read back, and it describes the one data
source that has this source, in which each field is assigned the answer followed by its expression.
The report lists the compounds in the order in which the lines of the document insert them, each
once. -/
theorem InspectOptions.run_agrees {tree : FileTree} (h : tree.IsWellFormed) {path : Text}
    (hfile : tree.isFile path = true) (o : GenerateOptions) :
    let inspected := (InspectOptions.run ⟨o.wrapperDepth, path⟩ tree).outcome
    let generated := ((o.onFile path).run tree).outcome
    (inspected.exitCode = 0 ↔ generated.exitCode = 0) ∧
    ∀ report source, inspected = .success report → generated = .success source →
      ∃ document j d, tree.readDocument path = .ok document ∧ Json.decode? report = some j ∧
        (∀ e : DataSource, e.IsOnOneLine ∧ e.source = source ↔ e = d) ∧ j.Describes d ∧
        (∃ head tail, pieces source = (head ++ d.read ++ tail).map (· ++ ['\n'])) ∧
        StandsIn
          (indentBy (d.shape.frame.assignmentLevel + 1)
            (d.attributes.map fun a =>
              capitalizeFirst a.name ++ ": " ++ a.scalar.valueConstructor ++ "(response." ++
                a.expression ++ "),"))
          d.read d.shape.aroundAssignments.1 d.shape.aroundAssignments.2 ∧
        ∃ exceptions, (j.at? ["query", "exceptions"]).bind Json.texts? = some exceptions ∧
          exceptions = (Reading.insertionsOf o.wrapperDepth document).eraseDups ∧
          exceptions.Nodup := by
  intro inspected generated
  have hinspected {report : Text} : inspected = .success report ↔ _ :=
    @InspectOptions.run_eq_success_iff ⟨o.wrapperDepth, path⟩ tree report
  have hgenerated {source : Text} : generated = .success source ↔ _ :=
    @GenerateOptions.run_onFile_eq_success_iff tree path h hfile o source
  refine ⟨?_, ?_⟩
  · rw [Outcome.exitCode_eq_zero_iff, Outcome.exitCode_eq_zero_iff]
    constructor
    · rintro ⟨report, hreport⟩
      obtain ⟨document, q, hread, hparse, -⟩ := hinspected.mp hreport
      exact ⟨_, hgenerated.mpr ⟨document, q, hread, hparse, rfl⟩⟩
    · rintro ⟨source, hsource⟩
      obtain ⟨document, q, hread, hparse, -⟩ := hgenerated.mp hsource
      exact ⟨_, hinspected.mpr ⟨document, q, hread, hparse, rfl⟩⟩
  · intro report source hreport hsource
    obtain ⟨document, q, hread, hparse, rfl⟩ := hinspected.mp hreport
    obtain ⟨document', q', hread', hparse', rfl⟩ := hgenerated.mp hsource
    obtain rfl := Except.ok.inj (hread.symm.trans hread')
    obtain rfl := Except.ok.inj (hparse.symm.trans hparse')
    have honline := Query.isOnOneLine_dataSource hparse
    have hunique (e : DataSource) :
        e.IsOnOneLine ∧ e.source = q.dataSource.source ↔ e = q.dataSource := by
      constructor
      · rintro ⟨he, hsame⟩
        exact DataSource.source_injective he honline hsame
      · rintro rfl
        exact ⟨honline, rfl⟩
    have hcompounds := Reading.toList_compounds_ofDocument o.wrapperDepth document
    refine ⟨document, q.report, q.dataSource, hread, Json.decode?_pretty q.report, hunique,
      Query.describes hparse, honline.exists_pieces_eq q.dataSource.read (by simp),
      q.dataSource.assignments_standsIn_read, _, Query.exceptions_report hparse, rfl, ?_⟩
    rw [← hcompounds]
    exact NameSet.nodup _

/-- A query with two blocks of one text that has a quote, a control character and a letter beyond
ASCII, and another block between them. -/
def oddDocument : Text :=
  "query Q \x7b\nR \x7b\na\"\x01_é \x7b\nid\n\x7d\nb \x7b\nx_y\n\x7d\na\"\x01_é \x7b\nn\n"

/-- A file with this document. -/
def oddTree : FileTree where
  current := ["w"]
  entries := [(["w"], .directory), (["w", "a"], .file (Text.encode oddDocument))]

/-- The report on the document has its texts as they are, and the expression that the source has. -/
theorem InspectOptions.run_agrees_oddTree :
    oddTree.IsWellFormed ∧ oddTree.isFile "a" = true ∧
    ∃ report source j d,
      (InspectOptions.run ⟨1, "a"⟩ oddTree).outcome = .success report ∧
      ((GenerateOptions.onFile { wrapperDepth := 1 } "a").run oddTree).outcome = .success source ∧
      Json.decode? report = some j ∧ d.source = source ∧ j.Describes d ∧
      d.attributes.map Attribute.expression =
        ["R.A\"\x01_é.Id".toList, "R.B.X_y", "R.A\"\x01_é.N"] ∧
      (j.at? ["query", "exceptions"]).bind Json.texts? = some ["a\"\x01_é".toList, "x_y"] := by
  have hwell : oddTree.IsWellFormed := isWellFormed_iff.mp (by decide)
  have hfile : oddTree.isFile "a" = true := rfl
  have hread : oddTree.readDocument "a" = .ok oddDocument := readDocument_of_encoded rfl
  have reading : Reading.ofDocument 1 oddDocument =
      { operationName := some "q".toList
        rootName := "R"
        openBlocks := ["a\"\x01_é".toList]
        lead := "a\"\x01_é_"
        fields := [{ flatName := "a\"\x01_é_id" }, { flatName := "b_x_y" },
          { flatName := "a\"\x01_é_n" }]
        flatNames := .ofList ["a\"\x01_é_id".toList, "b_x_y", "a\"\x01_é_n"]
        compounds := .ofList ["a\"\x01_é".toList, "x_y"] } := rfl
  have hparse : Query.parse 1 oddDocument = .ok {
      operationName := "q"
      rootName := "R"
      shape := .collection
      fields := [{ flatName := "a\"\x01_é_id" }, { flatName := "b_x_y" },
        { flatName := "a\"\x01_é_n" }]
      compounds := .ofList ["a\"\x01_é".toList, "x_y"] } := by
    rw [Query.parse, reading]
    rfl
  obtain ⟨-, hagrees⟩ := InspectOptions.run_agrees hwell hfile { wrapperDepth := 1 }
  have hreport := (@InspectOptions.run_eq_success_iff ⟨1, "a"⟩ oddTree _).mpr
    ⟨oddDocument, _, hread, hparse, rfl⟩
  have hsource := (@GenerateOptions.run_onFile_eq_success_iff oddTree "a" hwell hfile
    { wrapperDepth := 1 } _).mpr ⟨oddDocument, _, hread, hparse, rfl⟩
  obtain ⟨document, j, d, hdocument, hj, hd, hdescribes, -, -, exceptions, hexceptions, hinsertions,
    -⟩ := hagrees _ _ hreport hsource
  obtain rfl := Except.ok.inj (hread.symm.trans hdocument)
  refine ⟨hwell, hfile, _, _, j, d, hreport, hsource, hj, ((hd d).mpr rfl).2, hdescribes, ?_, ?_⟩
  · rw [← (hd _).mp ⟨Query.isOnOneLine_dataSource hparse, rfl⟩]
    rfl
  · rw [hexceptions, hinsertions]
    rfl

end DataSourceGen
