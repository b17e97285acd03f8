import DataSourceGen.Command.Program
import DataSourceGen.Proofs.Command.Batch
import DataSourceGen.Proofs.QueryFiles

/-!
# Printing instead of writing

With the sources printed, a batch changes nothing: each document is judged in the tree that the
command is given (`prints_run`). With the sources written it is judged in the tree in which the
output directory was made, and a document that was found is the same there
(`QueryFiles.readDocument_of_mem_find`). So the two commands judge alike.

**Theorem** (`run_printing`) compares what they come to. -/

namespace DataSourceGen

open FileTree

namespace Batch

variable {o : GenerateOptions} {path : Text}

/-! ### Documents that are printed -/

/-- What doing a document can come to, when sources are printed. -/
inductive Printed (o : GenerateOptions) (path : Text) (b : Batch) : Batch → Prop where
  | undrafted {reason : DocumentError} {events : List Event}
      (undrafted : b.tree.draft o.wrapperDepth path = .error reason) :
      Printed o path b { b with failures := b.failures ++ [(path, reason)], events }
  | repeated {g : Generated} {first : Text} {events : List Event}
      (drafted : b.tree.draft o.wrapperDepth path = .ok g)
      (taken : b.taken.lookup g.fileName = some first) :
      Printed o path b
        { b with failures := b.failures ++ [(path, .alreadyGenerated g.fileName first)], events }
  | printed {g : Generated} {events : List Event}
      (drafted : b.tree.draft o.wrapperDepth path = .ok g)
      (untaken : b.taken.lookup g.fileName = none) :
      Printed o path b
        { b with
          taken := b.taken ++ [(g.fileName, path)]
          outputs := b.outputs ++ [g.source]
          events }

/-- Doing a document, when sources are printed. -/
theorem printed_add (hprints : o.toStdout = true) (b : Batch) : Printed o path b (b.add o path) := by
  rcases hdraft : b.tree.draft o.wrapperDepth path with reason | g
  · obtain ⟨events, hadd⟩ := exists_add_of_draft_error hdraft
    rw [hadd]
    exact .undrafted hdraft
  · obtain ⟨events, hadd⟩ := exists_add_of_draft_ok hdraft
    rw [hadd]
    unfold accept
    dsimp only
    rcases htaken : b.taken.lookup g.fileName with _ | first
    · dsimp only [deliver]
      rw [hprints]
      exact .printed hdraft htaken
    · exact .repeated hdraft htaken

variable {t : FileTree} {paths : List Text}

/-- What a batch has done after some documents, when sources are printed: the tree is as it was, the
outputs are the sources, and the refusals are the failures. -/
structure Prints (o : GenerateOptions) (t : FileTree) (paths : List Text) (b : Batch) : Prop where
  tree : b.tree = t
  taken : b.taken = (t.outputs o.wrapperDepth paths).map fun x => (x.2.fileName, x.1)
  failures : b.failures = t.refusals o.wrapperDepth paths
  outputs : b.outputs = (t.outputs o.wrapperDepth paths).map fun x => x.2.source

theorem prints_start (o : GenerateOptions) (t : FileTree) : Prints o t [] { tree := t } :=
  ⟨rfl, rfl, rfl, rfl⟩

/-- A refused document prints nothing. -/
theorem Prints.refuse {b : Batch} (h : Prints o t paths b) {reason : DocumentError}
    {events : List Event} (hrefused : t.verdict o.wrapperDepth paths path = .error reason) :
    Prints o t (paths ++ [path])
      { b with failures := b.failures ++ [(path, reason)], events } := by
  have houtputs := outputs_concat_of_error hrefused
  refine ⟨h.tree, ?_, ?_, ?_⟩
  · rw [houtputs]
    exact h.taken
  · rw [refusals_concat_of_error hrefused, ← h.failures]
  · rw [houtputs]
    exact h.outputs

/-- **One more document**: it gets its verdict, and the batch does as the verdict says. -/
theorem Prints.add {b : Batch} (h : Prints o t paths b) (hprints : o.toStdout = true) :
    Prints o t (paths ++ [path]) (b.add o path) := by
  have hadded := @printed_add o path hprints b
  have htaken (fileName : Text) :
      b.taken.lookup fileName = paths.find? (t.gives o.wrapperDepth fileName) := by
    rw [h.taken, lookup_outputs]
  generalize b.add o path = after at hadded ⊢
  cases hadded with
  | undrafted undrafted =>
    rw [h.tree] at undrafted
    exact h.refuse (verdict_eq_error_iff.mpr (.inl undrafted))
  | @repeated g first events drafted taken =>
    rw [h.tree] at drafted
    rw [htaken] at taken
    exact h.refuse (verdict_eq_error_iff.mpr (.inr ⟨g, first, drafted, taken, rfl⟩))
  | @printed g events drafted untaken =>
    rw [h.tree] at drafted
    rw [htaken] at untaken
    have hverdict : t.verdict o.wrapperDepth paths path = .ok g := by
      unfold verdict
      rw [drafted]
      dsimp only
      rw [untaken]
    have houtputs := outputs_concat_of_ok hverdict
    refine ⟨h.tree, ?_, ?_, ?_⟩
    · rw [houtputs, List.map_append, ← h.taken]
      rfl
    · rw [refusals_concat_of_ok hverdict]
      exact h.failures
    · rw [houtputs, List.map_append, ← h.outputs]
      rfl

/-- **All documents**: the batch prints what the verdicts say. -/
theorem prints_run (hprints : o.toStdout = true) (t : FileTree) (paths : List Text) :
    Prints o t paths (run o t paths) := by
  induction paths using List.reverseRecOn with
  | nil => exact prints_start o t
  | append_singleton paths path ih =>
    have hrun : run o t (paths ++ [path]) = (run o t paths).add o path := List.foldl_append
    rw [hrun]
    exact ih.add hprints

end Batch

/-! ### The two commands -/

namespace GenerateOptions

/-- The options with the sources printed instead of written. -/
def printing (o : GenerateOptions) : GenerateOptions :=
  { o with toStdout := true }

/-- If nothing failed, the sources are printed, with a line end between neighbours. -/
theorem summary_printing {o : GenerateOptions} {found : QueryFiles} {b : Batch}
    (herrors : found.errors = []) (hfailures : b.failures = []) :
    o.printing.summary found b = .success (Text.joinWith "\n" b.outputs) := by
  unfold summary
  rw [herrors, hfailures]
  rfl

/-- The command does the batch in the tree that its preparation leaves. -/
theorem run_of_prepare {o : GenerateOptions} {tree start : FileTree} {found : QueryFiles}
    (hfound : QueryFiles.find tree o.paths o.extensions = found)
    (hstart : o.prepare tree found = { tree := start }) :
    (o.run tree).tree = (Batch.run o start found.paths).tree ∧
      (o.run tree).outcome = o.summary found (Batch.run o start found.paths) := by
  unfold run
  rw [hfound]
  dsimp only
  rw [hstart]
  exact ⟨rfl, rfl⟩

/-- The documents that are found have the same drafts after the preparation. -/
theorem draft_eq_of_mem_find {o : GenerateOptions} {tree start : FileTree} {found : QueryFiles}
    (hwell : tree.IsWellFormed) (hfound : QueryFiles.find tree o.paths o.extensions = found)
    (hstart : o.prepare tree found = { tree := start }) :
    ∀ path ∈ found.paths, start.draft o.wrapperDepth path = tree.draft o.wrapperDepth path := by
  intro path hpath
  have hgains : Gains tree start := by
    have hprepared := gains_prepare o tree found
    rwa [hstart] at hprepared
  rw [← hfound] at hpath
  unfold draft
  rw [QueryFiles.readDocument_of_mem_find hwell hgains hpath]

end GenerateOptions

/-- A run of the program leaves the tree that its command leaves. -/
theorem CommandLine.tree_run (line : CommandLine) (setting : Option Text) (tree : FileTree) :
    (line.run setting tree).tree = (line.request.run tree).tree := by
  unfold CommandLine.run
  dsimp only
  split
  · rfl
  · rfl

namespace GenerateOptions

/-- **Printing and writing agree**: a command that prints changes nothing, also when the program
runs it. Let the output directory be made for the command that writes, let no write fail, and let
the outputs be apart. Then the two commands have one exit code and the same failures, which are told
in the same words; and if there is none, the printed text is that of the files that were written,
one for each document in the order in which they were found, with a line end between neighbours. -/
theorem run_printing (o : GenerateOptions) (tree : FileTree) :
    (o.printing.run tree).tree = tree ∧
    (∀ arguments setting line, CommandLine.ofArguments arguments = .ok line →
      line.request = .generate o.printing → (runProgram arguments setting tree).tree = tree) ∧
    ∀ start found, tree.IsWellFormed → o.toStdout = false →
      QueryFiles.find tree o.paths o.extensions = found →
      o.prepare tree found = { tree := start } →
      (∀ failure ∈ (Batch.run o start found.paths).failures, failure.2.isWrite = false) →
      OutputsApart o start found.paths →
      (o.printing.run tree).outcome.exitCode = (o.run tree).outcome.exitCode ∧
      (Batch.run o.printing tree found.paths).failures =
        (Batch.run o start found.paths).failures ∧
      ((o.run tree).outcome.exitCode ≠ 0 → (o.printing.run tree).outcome = (o.run tree).outcome) ∧
      ((o.run tree).outcome.exitCode = 0 → ∃ files : List (Text × Generated),
        files.map (·.1) = found.paths ∧
        (∀ x ∈ files, ∃ l, start.location? .file (Batch.outputPath o x.2) = some l ∧
          FileTree.entry? (o.run tree).tree l =
            overwritten (Text.encode x.2.source) (start.entry? l)) ∧
        (o.printing.run tree).outcome =
          .success (Text.joinWith "\n" (files.map fun x => x.2.source))) := by
  have hprints (found : QueryFiles) := Batch.prints_run (o := o.printing) rfl tree found.paths
  obtain ⟨htree, -⟩ := @run_of_prepare o.printing tree tree _ rfl rfl
  have hunchanged : (o.printing.run tree).tree = tree := htree.trans (hprints _).tree
  refine ⟨hunchanged, ?_, ?_⟩
  · intro arguments setting line hline hrequest
    rw [runProgram, hline]
    dsimp only
    rw [CommandLine.tree_run, hrequest]
    exact hunchanged
  · rintro start found hwell hwrites hfound hstart hdone happart
    have hdraft := draft_eq_of_mem_find hwell hfound hstart
    have hdoes := Batch.does_run hwrites start found.paths happart hdone
    obtain ⟨hwritten, hwrote⟩ := run_of_prepare hfound hstart
    obtain ⟨-, hprinted⟩ := @run_of_prepare o.printing tree tree found hfound rfl
    have hfailures : (Batch.run o.printing tree found.paths).failures =
        (Batch.run o start found.paths).failures := by
      rw [(hprints found).failures, hdoes.failures]
      exact (refusals_congr hdraft).symm
    have houtputs : (Batch.run o.printing tree found.paths).outputs =
        (start.outputs o.wrapperDepth found.paths).map fun x => x.2.source := by
      rw [(hprints found).outputs, outputs_congr hdraft]
      rfl
    rw [hprinted, hwrote, hwritten]
    rcases summary_cases hwrites found (Batch.run o start found.paths) with
      ⟨herrors, hnone, hcode⟩ | ⟨hsome, hfailure⟩
    · have hsuccess := summary_printing (o := o) herrors (hfailures.trans hnone)
      refine ⟨?_, hfailures, fun hne => absurd hcode hne, fun _ => ?_⟩
      · rw [hsuccess, hcode]
        rfl
      · rw [hdoes.failures] at hnone
        exact ⟨_, map_fst_outputs hnone, hdoes.written, by rw [hsuccess, houtputs]⟩
    · have hsame : o.printing.summary found (Batch.run o.printing tree found.paths) =
          o.summary found (Batch.run o start found.paths) := by
        rw [hfailure, ← hfailures]
        exact summary_eq_failure (by rwa [hfailures])
      refine ⟨by rw [hsame], hfailures, fun _ => hsame, fun hzero => ?_⟩
      rw [hfailure] at hzero
      exact absurd hzero Nat.one_ne_zero

/-- A document for an operation. -/
def plainDocument (name : Text) : Text :=
  "query " ++ name ++ " \x7b\nR \x7b\n"

/-- A directory with documents for two operations. -/
def plainTree : FileTree where
  current := ["w"]
  entries := [(["w"], .directory),
    (["w", "a.gql"], .file (Text.encode (plainDocument "Q"))),
    (["w", "b.gql"], .file (Text.encode (plainDocument "T")))]

/-- The options to do the documents in the current directory. -/
def plainOptions : GenerateOptions where
  outputDirectory := "o"
  paths := [['.']]

/-- The directory with another one for the outputs. -/
def plainStart : FileTree :=
  plainTree.put ["w", "o"] .directory

/-- The documents in the directory. -/
def plainPaths : List Text :=
  ["/w/a.gql", "/w/b.gql"]

theorem isWellFormed_plainTree : plainTree.IsWellFormed :=
  FileTree.isWellFormed_iff.mp (by decide)

/-- The outputs belong in two files. -/
theorem fileName_of_mem_outputs_plainStart {x : Text × Generated}
    (hx : x ∈ plainStart.outputs 2 plainPaths) :
    x.2.fileName = "q_data_source.go".toList ∨ x.2.fileName = "t_data_source.go".toList := by
  obtain ⟨earlier, later, hpaths, hdraft, -⟩ := mem_outputs_iff.mp hx
  have hpath : x.1 ∈ plainPaths := by
    rw [hpaths]
    exact List.mem_append_right _ List.mem_cons_self
  simp only [plainPaths, List.mem_cons, List.not_mem_nil, or_false] at hpath
  rcases hpath with hpath | hpath
  · rw [hpath, @draft_of_encoded _ _ _ (plainDocument "Q") _ _ rfl rfl] at hdraft
    rw [← Except.ok.inj hdraft]
    exact .inl rfl
  · rw [hpath, @draft_of_encoded _ _ _ (plainDocument "T") _ _ rfl rfl] at hdraft
    rw [← Except.ok.inj hdraft]
    exact .inr rfl

theorem outputsApart_plainStart : OutputsApart plainOptions plainStart plainPaths := by
  refine ⟨fun x hx path hpath => ?_, fun x hx y hy hsame => ?_⟩
  · simp only [plainPaths, List.mem_cons, List.not_mem_nil, or_false] at hpath
    unfold Batch.outputPath
    rcases fileName_of_mem_outputs_plainStart hx with hname | hname
    all_goals
      rw [hname]
      rcases hpath with rfl | rfl
      all_goals decide
  · have hname := fileName_of_mem_outputs_plainStart hx
    have hname' := fileName_of_mem_outputs_plainStart hy
    unfold Batch.outputPath at hsame
    rcases hname with hname | hname
    · rcases hname' with hname' | hname'
      · rw [hname, hname']
      · rw [hname, hname'] at hsame
        exact absurd hsame (by decide)
    · rcases hname' with hname' | hname'
      · rw [hname, hname'] at hsame
        exact absurd hsame (by decide)
      · rw [hname, hname']

theorem failures_plainStart : (Batch.run plainOptions plainStart plainPaths).failures = [] := by
  have hfirst := @Batch.exists_add_of_draft_ok plainOptions "/w/a.gql" { tree := plainStart } _
    (@draft_of_encoded _ _ _ (plainDocument "Q") _ _ rfl rfl)
  obtain ⟨events, hfirst⟩ := hfirst
  obtain ⟨events', hsecond⟩ := @Batch.exists_add_of_draft_ok plainOptions "/w/b.gql"
    (Batch.add plainOptions { tree := plainStart } "/w/a.gql") _
    (by rw [hfirst]; exact @draft_of_encoded _ _ _ (plainDocument "T") _ _ rfl rfl)
  have hrun : Batch.run plainOptions plainStart plainPaths =
      (Batch.add plainOptions { tree := plainStart } "/w/a.gql").add plainOptions "/w/b.gql" := rfl
  rw [hrun, hsecond, hfirst]
  rfl

/-- The two commands in the directory: both succeed, and what the one prints the other writes. -/
theorem run_printing_plainTree :
    let written := plainOptions.run plainTree
    let printed := plainOptions.printing.run plainTree
    printed.tree = plainTree ∧
    (runProgram ["generate", "--stdout", "-o", "o", "."] none plainTree).tree = plainTree ∧
    printed.outcome.exitCode = written.outcome.exitCode ∧
    written.outcome.exitCode = 0 ∧
    ∃ files : List (Text × Generated),
      files.map (·.1) = plainPaths ∧
      (∀ x ∈ files, ∃ l, plainStart.location? .file (Batch.outputPath plainOptions x.2) = some l ∧
        written.tree.entry? l = overwritten (Text.encode x.2.source) (plainStart.entry? l)) ∧
      printed.outcome = .success (Text.joinWith "\n" (files.map fun x => x.2.source)) := by
  obtain ⟨found, hfound⟩ :
      ∃ found, QueryFiles.find plainTree plainOptions.paths plainOptions.extensions = found :=
    ⟨_, rfl⟩
  have hpaths : found.paths = plainPaths := by
    rw [← hfound]
    rfl
  have herrors : found.errors = [] := by
    rw [← hfound]
    rfl
  have hprepare : plainOptions.prepare plainTree found = { tree := plainStart } := by
    rw [← hfound]
    rfl
  have hnone : (Batch.run plainOptions plainStart found.paths).failures = [] := by
    rw [hpaths]
    exact failures_plainStart
  have hzero : (plainOptions.run plainTree).outcome.exitCode = 0 := by
    obtain ⟨-, houtcome⟩ := run_of_prepare hfound hprepare
    rw [houtcome]
    have hwrites : plainOptions.toStdout = false := rfl
    rcases summary_cases hwrites found (Batch.run plainOptions plainStart found.paths) with
      ⟨-, -, hcode⟩ | ⟨hsome, -⟩
    · exact hcode
    · exact absurd ⟨herrors, hnone⟩ hsome
  obtain ⟨htree, hprogram, hagree⟩ := run_printing plainOptions plainTree
  obtain ⟨hcode, -, -, hfiles⟩ := hagree plainStart found isWellFormed_plainTree rfl hfound hprepare
    (by simp [hnone]) (by rw [hpaths]; exact outputsApart_plainStart)
  rw [hpaths] at hfiles
  exact ⟨htree, hprogram _ none _ rfl rfl, hcode, hzero, hfiles hzero⟩

end GenerateOptions

end DataSourceGen
