import DataSourceGen.Proofs.Command.Verdicts
import DataSourceGen.Proofs.FileTree.Directories

/-!
# Doing the documents of a batch

A batch reads its documents from a tree that it changes on the way. If no output belongs where a
document is or where another output belongs (`OutputsApart`), then what it has written does not
matter to what it reads: each document has the verdict that it has in the tree at the start. `Does`
says what a batch has done after some documents; every further document keeps it (`Does.add`), so
that it holds after all of them (`does_run`).

**Theorem** (`run_of_outputsApart`) says what the command comes to. -/

namespace DataSourceGen

open FileTree

/-- Whether a document failed because its output could not be written. -/
def DocumentError.isWrite : DocumentError → Bool
  | .write _ _ => true
  | .read _ | .generate _ | .alreadyGenerated _ _ => false

/-- Whether the outputs for some documents belong neither where a document is nor where an output of
another name belongs. -/
structure OutputsApart (o : GenerateOptions) (t : FileTree) (paths : List Text) : Prop where
  fromDocuments : ∀ x ∈ t.outputs o.wrapperDepth paths, ∀ path ∈ paths,
    t.location? .file (Batch.outputPath o x.2) ≠ t.location? .target path
  fromOutputs : ∀ x ∈ t.outputs o.wrapperDepth paths, ∀ y ∈ t.outputs o.wrapperDepth paths,
    t.location? .file (Batch.outputPath o x.2) = t.location? .file (Batch.outputPath o y.2) →
    x.2.fileName = y.2.fileName

namespace Batch

variable {o : GenerateOptions} {path : Text}

/-! ### One document -/

/-- A document without a draft is given up. -/
theorem exists_add_of_draft_error {b : Batch} {reason : DocumentError}
    (hdraft : b.tree.draft o.wrapperDepth path = .error reason) :
    ∃ events, b.add o path = { b with failures := b.failures ++ [(path, reason)], events } := by
  unfold draft at hdraft
  unfold add
  rcases hdocument : b.tree.readDocument path with unread | document
  · rw [hdocument] at hdraft
    obtain rfl := Except.error.inj hdraft
    exact ⟨_, rfl⟩
  · rw [hdocument] at hdraft
    dsimp only at hdraft ⊢
    rcases hgenerate : generate o.wrapperDepth document with ungenerated | g
    · rw [hgenerate] at hdraft
      obtain rfl := Except.error.inj hdraft
      exact ⟨_, rfl⟩
    · rw [hgenerate] at hdraft
      cases hdraft

/-- A document with a draft is accepted, unless the file name is taken. -/
theorem exists_add_of_draft_ok {b : Batch} {g : Generated}
    (hdraft : b.tree.draft o.wrapperDepth path = .ok g) :
    ∃ events, b.add o path = accept o { b with events } path g := by
  unfold draft at hdraft
  unfold add
  rcases hdocument : b.tree.readDocument path with unread | document
  · rw [hdocument] at hdraft
    cases hdraft
  · rw [hdocument] at hdraft
    dsimp only at hdraft ⊢
    rcases hgenerate : generate o.wrapperDepth document with ungenerated | g'
    · rw [hgenerate] at hdraft
      cases hdraft
    · rw [hgenerate] at hdraft
      obtain rfl := Except.ok.inj hdraft
      exact ⟨_, rfl⟩

/-- What doing a document can come to. -/
inductive Added (o : GenerateOptions) (path : Text) (b : Batch) : Batch → Prop where
  | undrafted {reason : DocumentError} {events : List Event}
      (undrafted : b.tree.draft o.wrapperDepth path = .error reason) :
      Added o path b { b with failures := b.failures ++ [(path, reason)], events }
  | repeated {g : Generated} {first : Text} {events : List Event}
      (drafted : b.tree.draft o.wrapperDepth path = .ok g)
      (taken : b.taken.lookup g.fileName = some first) :
      Added o path b
        { b with failures := b.failures ++ [(path, .alreadyGenerated g.fileName first)], events }
  | unwritten {g : Generated} {reason : OsError} {events : List Event}
      (drafted : b.tree.draft o.wrapperDepth path = .ok g)
      (untaken : b.taken.lookup g.fileName = none)
      (fails : b.tree.writeFile (outputPath o g) (Text.encode g.source) = .error reason) :
      Added o path b
        { b with
          taken := b.taken ++ [(g.fileName, path)]
          failures := b.failures ++ [(path, .write (outputPath o g) reason)]
          events }
  | written {g : Generated} {tree : FileTree} {events : List Event}
      (drafted : b.tree.draft o.wrapperDepth path = .ok g)
      (untaken : b.taken.lookup g.fileName = none)
      (writes : b.tree.writeFile (outputPath o g) (Text.encode g.source) = .ok tree) :
      Added o path b
        { b with
          tree
          taken := b.taken ++ [(g.fileName, path)]
          outputs := b.outputs ++ [Text.quoted (outputPath o g)]
          events }

/-- Doing a document, when outputs are written. -/
theorem added_add (hwrites : o.toStdout = false) (b : Batch) : Added o path b (b.add o path) := by
  rcases hdraft : b.tree.draft o.wrapperDepth path with reason | g
  · obtain ⟨events, hadd⟩ := exists_add_of_draft_error hdraft
    rw [hadd]
    exact .undrafted hdraft
  · obtain ⟨events, hadd⟩ := exists_add_of_draft_ok hdraft
    rw [hadd]
    unfold accept
    dsimp only
    rcases htaken : b.taken.lookup g.fileName with _ | first
    · dsimp only [deliver]
      rw [hwrites]
      rcases hwrite : b.tree.writeFile (outputPath o g) (Text.encode g.source) with reason | tree
      · exact .unwritten hdraft htaken hwrite
      · exact .written hdraft htaken hwrite
    · exact .repeated hdraft htaken

/-- Failures stay. -/
theorem Added.failures_grow {b b' : Batch} (h : Added o path b b') :
    b.failures <+: b'.failures := by
  cases h with
  | undrafted | repeated | unwritten => exact List.prefix_append _ _
  | written => exact List.prefix_refl _

/-! ### What a batch has done -/

variable {t : FileTree} {paths : List Text}

/-- What a batch has done after some documents, if what it writes does not matter to what it reads:
the outputs are in their places, nothing else is changed, and the refusals are its failures. -/
structure Does (o : GenerateOptions) (t : FileTree) (paths : List Text) (b : Batch) : Prop where
  landmarks : SameLandmarks t b.tree
  taken : b.taken = (t.outputs o.wrapperDepth paths).map fun x => (x.2.fileName, x.1)
  failures : b.failures = t.refusals o.wrapperDepth paths
  written : ∀ x ∈ t.outputs o.wrapperDepth paths, ∃ l,
    t.location? .file (outputPath o x.2) = some l ∧
      b.tree.entry? l = overwritten (Text.encode x.2.source) (t.entry? l)
  kept : ∀ l,
    (∀ x ∈ t.outputs o.wrapperDepth paths, t.location? .file (outputPath o x.2) ≠ some l) →
    b.tree.entry? l = t.entry? l

/-- Nothing is done at the start. -/
theorem does_start (o : GenerateOptions) (t : FileTree) : Does o t [] { tree := t } :=
  ⟨.refl t, rfl, rfl, fun _ hx => absurd hx List.not_mem_nil, fun _ _ => rfl⟩

/-- A document away from the outputs is as at the start. -/
theorem Does.draft_eq {b : Batch} (h : Does o t paths b)
    (happart : ∀ x ∈ t.outputs o.wrapperDepth paths,
      t.location? .file (outputPath o x.2) ≠ t.location? .target path) :
    b.tree.draft o.wrapperDepth path = t.draft o.wrapperDepth path := by
  have hdocument : b.tree.readDocument path = t.readDocument path := by
    rw [readDocument_eq, readDocument_eq, h.landmarks.location?_eq]
    rcases hl : t.location? .target path with _ | l
    · rfl
    · rw [Option.bind_some, Option.bind_some, h.kept l fun x hx => hl ▸ happart x hx]
  unfold draft
  rw [hdocument]

/-- The file name of a source is taken iff an earlier document gives it. -/
theorem Does.lookup_taken {b : Batch} (h : Does o t paths b) (fileName : Text) :
    b.taken.lookup fileName = paths.find? (t.gives o.wrapperDepth fileName) := by
  rw [h.taken, lookup_outputs]

/-- A refused document changes nothing. -/
theorem Does.refuse {b : Batch} (h : Does o t paths b) {reason : DocumentError}
    {events : List Event} (hrefused : t.verdict o.wrapperDepth paths path = .error reason) :
    Does o t (paths ++ [path])
      { b with failures := b.failures ++ [(path, reason)], events } := by
  have houtputs := outputs_concat_of_error hrefused
  refine ⟨h.landmarks, ?_, ?_, ?_, ?_⟩
  · rw [houtputs]
    exact h.taken
  · rw [refusals_concat_of_error hrefused, ← h.failures]
  · rw [houtputs]
    exact h.written
  · rw [houtputs]
    exact h.kept

/-- A document with an output puts it in its place. -/
theorem Does.deliver {b : Batch} (h : Does o t paths b) {g : Generated} {tree : FileTree}
    {outputs : List Text} {events : List Event}
    (hverdict : t.verdict o.wrapperDepth paths path = .ok g)
    (hwrite : b.tree.writeFile (outputPath o g) (Text.encode g.source) = .ok tree)
    (happart : ∀ x ∈ t.outputs o.wrapperDepth paths,
      t.location? .file (outputPath o x.2) ≠ t.location? .file (outputPath o g)) :
    Does o t (paths ++ [path])
      { b with tree, taken := b.taken ++ [(g.fileName, path)], outputs, events } := by
  obtain ⟨l, hplace, -, -, hentry⟩ := exists_location_of_writeFile hwrite
  rw [h.landmarks.location?_eq] at hplace
  have hbefore : b.tree.entry? l = t.entry? l := h.kept l fun x hx => hplace ▸ happart x hx
  refine ⟨h.landmarks.trans (.of_writeFile hwrite), ?_, ?_, ?_, ?_⟩
  · rw [outputs_concat_of_ok hverdict, List.map_append, ← h.taken]
    rfl
  · rw [refusals_concat_of_ok hverdict]
    exact h.failures
  · rw [outputs_concat_of_ok hverdict]
    intro x hx
    rcases List.mem_append.mp hx with hold | hnew
    -- Earlier outputs are elsewhere, so that this one leaves them.
    · obtain ⟨m, hm, hwritten⟩ := h.written x hold
      have hne : m ≠ l := fun heq => happart x hold (by rw [hm, hplace, heq])
      exact ⟨m, hm, by rw [hentry, if_neg hne, hwritten]⟩
    · obtain rfl := List.mem_singleton.mp hnew
      exact ⟨l, hplace, by rw [hentry, if_pos rfl, hbefore]⟩
  · rw [outputs_concat_of_ok hverdict]
    intro m hm
    have hne : m ≠ l := by
      rintro rfl
      exact hm (path, g) (List.mem_append_right _ List.mem_cons_self) hplace
    rw [hentry, if_neg hne]
    exact h.kept m fun x hx => hm x (List.mem_append_left _ hx)

/-- **One more document**: it gets its verdict, and the batch does as the verdict says. -/
theorem Does.add {b : Batch} (h : Does o t paths b) (hwrites : o.toStdout = false)
    (happart : OutputsApart o t (paths ++ [path]))
    (hdone : ∀ failure ∈ (b.add o path).failures, failure.2.isWrite = false) :
    Does o t (paths ++ [path]) (b.add o path) := by
  have hdraft := h.draft_eq fun x hx =>
    happart.fromDocuments x (mem_outputs_append hx [path]) path
      (List.mem_append_right _ List.mem_cons_self)
  have hadded := @added_add o path hwrites b
  generalize b.add o path = after at hadded hdone ⊢
  cases hadded with
  | undrafted undrafted =>
    exact h.refuse (verdict_eq_error_iff.mpr (.inl (hdraft ▸ undrafted)))
  | @repeated g first events drafted taken =>
    rw [h.lookup_taken] at taken
    exact h.refuse (verdict_eq_error_iff.mpr (.inr ⟨g, first, hdraft ▸ drafted, taken, rfl⟩))
  | unwritten =>
    -- The failure to write would be the last one of the batch.
    have hlast := hdone _ (List.mem_append_right _ List.mem_cons_self)
    cases hlast
  | @written g tree events drafted untaken writes =>
    rw [h.lookup_taken] at untaken
    have hfirst : ∀ p ∈ paths, ∀ g', t.draft o.wrapperDepth p = .ok g' →
        g'.fileName ≠ g.fileName := by
      intro p hp g' hg' heq
      exact List.find?_eq_none.mp untaken p hp (gives_iff.mpr ⟨g', hg', heq⟩)
    have hverdict : t.verdict o.wrapperDepth paths path = .ok g :=
      verdict_eq_ok_iff.mpr ⟨hdraft ▸ drafted, hfirst⟩
    -- An earlier output in the same place would be for the same file name, which is not taken.
    refine h.deliver hverdict writes fun x hx heq => ?_
    have hnew : (path, g) ∈ t.outputs o.wrapperDepth (paths ++ [path]) := by
      rw [outputs_concat_of_ok hverdict]
      exact List.mem_append_right _ List.mem_cons_self
    obtain ⟨earlier, later, rfl, hx', -⟩ := mem_outputs_iff.mp hx
    exact hfirst x.1 (by simp) x.2 hx'
      (happart.fromOutputs x (mem_outputs_append hx [path]) _ hnew heq)

/-- **All documents**: the batch does what the verdicts say. -/
theorem does_run (hwrites : o.toStdout = false) (t : FileTree) :
    (paths : List Text) → OutputsApart o t paths →
      (∀ failure ∈ (run o t paths).failures, failure.2.isWrite = false) →
      Does o t paths (run o t paths) := by
  intro paths
  induction paths using List.reverseRecOn with
  | nil => exact fun _ _ => does_start o t
  | append_singleton paths path ih =>
    intro happart hdone
    have hrun : run o t (paths ++ [path]) = (run o t paths).add o path := List.foldl_append
    have hsub {x : Text × Generated} (hx : x ∈ t.outputs o.wrapperDepth paths) :
        x ∈ t.outputs o.wrapperDepth (paths ++ [path]) := mem_outputs_append hx [path]
    have happart' : OutputsApart o t paths :=
      ⟨fun x hx p hp => happart.fromDocuments x (hsub hx) p (List.mem_append_left _ hp),
        fun x hx y hy => happart.fromOutputs x (hsub hx) y (hsub hy)⟩
    rw [hrun] at hdone ⊢
    have hdone' : ∀ failure ∈ (run o t paths).failures, failure.2.isWrite = false :=
      fun failure hf => hdone failure ((added_add hwrites _).failures_grow.subset hf)
    exact (ih happart' hdone').add hwrites happart hdone

end Batch

/-! ### The command -/

namespace GenerateOptions

/-- The text for a user whose documents were not all done. -/
def failureSummary (errors : List WalkError) (refusals : List (Text × DocumentError))
    (documents : Nat) : Text :=
  failureSign ++ Text.ofNat (errors.length + refusals.length) ++ " of " ++
    Text.ofNat (errors.length + documents) ++ " query documents could not be generated:\n" ++
    bulleted (errors.map WalkError.message ++ refusals.map failureText)

/-- What failed is told in the same words whether sources are written or printed. -/
theorem summary_eq_failure {o : GenerateOptions} {found : QueryFiles} {b : Batch}
    (h : ¬(found.errors = [] ∧ b.failures = [])) :
    o.summary found b = .failure (failureSummary found.errors b.failures found.paths.length) := by
  have hsome :
      (found.errors.map WalkError.message ++ b.failures.map failureText).isEmpty = false := by
    rw [List.isEmpty_eq_false_iff, ne_eq, List.append_eq_nil_iff, List.map_eq_nil_iff,
      List.map_eq_nil_iff]
    exact h
  unfold summary failureSummary
  dsimp only
  rw [hsome, List.length_append, List.length_map, List.length_map, Nat.add_comm found.paths.length]
  rfl

/-- Something failed exactly if the command fails, and then it says how much of how many. -/
theorem summary_cases {o : GenerateOptions} (hwrites : o.toStdout = false) (found : QueryFiles)
    (b : Batch) :
    found.errors = [] ∧ b.failures = [] ∧ (o.summary found b).exitCode = 0 ∨
      ¬(found.errors = [] ∧ b.failures = []) ∧
        o.summary found b =
          .failure (failureSummary found.errors b.failures found.paths.length) := by
  by_cases hnone : found.errors = [] ∧ b.failures = []
  · refine .inl ⟨hnone.1, hnone.2, ?_⟩
    unfold summary
    rw [hnone.1, hnone.2, hwrites]
    rfl
  · exact .inr ⟨hnone, summary_eq_failure hnone⟩

/-- Giving the outputs a directory makes directories only. -/
theorem gains_prepare (o : GenerateOptions) (tree : FileTree) (found : QueryFiles) :
    Gains tree (o.prepare tree found).tree := by
  unfold prepare
  split
  · exact .refl tree
  · exact gains_ensureDirectories tree o.outputDirectory

/-- **The batch**: let the output directory be made, leaving the tree `start`, let no write fail,
and let the outputs be apart. Then `start` has what the tree had, and at most directories besides.

The outputs are, for each file name, the source of the first document that gives it; all other
documents are refused, each once. After the run each output is in its place and nothing else is
changed. The exit code is 0 iff the walk met no error and no document is refused; otherwise the
user is told how many walk errors and refusals there are, of how many walk errors and documents. -/
theorem run_of_outputsApart {o : GenerateOptions} {tree start : FileTree} {found : QueryFiles}
    (hwrites : o.toStdout = false) (hfound : QueryFiles.find tree o.paths o.extensions = found)
    (hstart : o.prepare tree found = { tree := start })
    (hdone : ∀ failure ∈ (Batch.run o start found.paths).failures, failure.2.isWrite = false)
    (happart : OutputsApart o start found.paths) :
    (∀ l, start.entry? l = tree.entry? l ∨
      tree.entry? l = none ∧ start.entry? l = some .directory) ∧
    (∀ path entry, tree.stat path = .ok entry →
      start.readDocument path = tree.readDocument path) ∧
    (∀ path g, (path, g) ∈ start.outputs o.wrapperDepth found.paths ↔
      ∃ earlier later, found.paths = earlier ++ path :: later ∧
        start.draft o.wrapperDepth path = .ok g ∧
        ∀ p ∈ earlier, ∀ g', start.draft o.wrapperDepth p = .ok g' → g'.fileName ≠ g.fileName) ∧
    (∀ path reason, (path, reason) ∈ start.refusals o.wrapperDepth found.paths ↔
      ∃ earlier later, found.paths = earlier ++ path :: later ∧
        (start.draft o.wrapperDepth path = .error reason ∨
          ∃ g first, start.draft o.wrapperDepth path = .ok g ∧
            earlier.find? (start.gives o.wrapperDepth g.fileName) = some first ∧
            reason = .alreadyGenerated g.fileName first)) ∧
    (start.outputs o.wrapperDepth found.paths).length +
      (start.refusals o.wrapperDepth found.paths).length = found.paths.length ∧
    (∀ path g, (path, g) ∈ start.outputs o.wrapperDepth found.paths → ∃ l,
      start.location? .file (Batch.outputPath o g) = some l ∧
        FileTree.entry? (o.run tree).tree l = overwritten (Text.encode g.source) (start.entry? l)) ∧
    (∀ l, (∀ path g, (path, g) ∈ start.outputs o.wrapperDepth found.paths →
        start.location? .file (Batch.outputPath o g) ≠ some l) →
      FileTree.entry? (o.run tree).tree l = start.entry? l) ∧
    ((o.run tree).outcome.exitCode = 0 ↔
      found.errors = [] ∧ start.refusals o.wrapperDepth found.paths = []) ∧
    ((o.run tree).outcome.exitCode ≠ 0 → (o.run tree).outcome =
      .failure (failureSummary found.errors (start.refusals o.wrapperDepth found.paths)
        found.paths.length)) := by
  have hgains : Gains tree start := by
    have hprepared := gains_prepare o tree found
    rwa [hstart] at hprepared
  have hdoes := Batch.does_run hwrites start found.paths happart hdone
  have hrun : (o.run tree).tree = (Batch.run o start found.paths).tree ∧
      (o.run tree).outcome = o.summary found (Batch.run o start found.paths) := by
    unfold run
    rw [hfound]
    dsimp only
    rw [hstart]
    exact ⟨rfl, rfl⟩
  obtain ⟨htree, houtcome⟩ := hrun
  have hsummary := summary_cases hwrites found (Batch.run o start found.paths)
  rw [hdoes.failures] at hsummary
  refine ⟨hgains.entry, fun path entry h => hgains.readDocument_eq h, fun path g => mem_outputs_iff,
    fun path reason => mem_refusals_iff, length_outputs_add_length_refusals _ _ _, ?_, ?_, ?_, ?_⟩
  · intro path g hg
    rw [htree]
    exact hdoes.written (path, g) hg
  · intro l hl
    rw [htree]
    exact hdoes.kept l fun x hx => hl x.1 x.2 hx
  · rw [houtcome]
    rcases hsummary with ⟨herrors, hrefusals, hcode⟩ | ⟨hsome, hfailure⟩
    · exact ⟨fun _ => ⟨herrors, hrefusals⟩, fun _ => hcode⟩
    · rw [hfailure]
      exact ⟨fun hcode => absurd hcode Nat.one_ne_zero, fun hnone => absurd hnone hsome⟩
  · rw [houtcome]
    intro hcode
    rcases hsummary with ⟨-, -, hzero⟩ | ⟨-, hfailure⟩
    · exact absurd hzero hcode
    · exact hfailure

/-- A directory with five documents: two for one operation, one that is no text, one that is empty,
and one for another operation. -/
def mixedTree : FileTree where
  current := ["w"]
  entries := [(["w"], .directory),
    (["w", "a.gql"], .file (Text.encode "query Q \x7b\nR \x7b\n")),
    (["w", "b.gql"], .file [0xff]),
    (["w", "c.gql"], .file (Text.encode "query Q \x7b\nS \x7b\n")),
    (["w", "d.gql"], .file []),
    (["w", "e.gql"], .file (Text.encode "query T \x7b\nR \x7b\n"))]

/-- The options to do the documents in the current directory. -/
def mixedOptions : GenerateOptions where
  outputDirectory := "o"
  paths := [['.']]

/-- The first and the last document give an output; the other three are refused, and the user is
told so. -/
theorem run_of_outputsApart_mixedTree :
    let start := mixedTree.put ["w", "o"] .directory
    let found := QueryFiles.find mixedTree mixedOptions.paths mixedOptions.extensions
    let after := mixedOptions.run mixedTree
    (start.outputs 2 found.paths).map (·.1) = ["/w/a.gql".toList, "/w/e.gql".toList] ∧
    (start.refusals 2 found.paths).map (·.1) =
      ["/w/b.gql".toList, "/w/c.gql".toList, "/w/d.gql".toList] ∧
    (∀ l, (∀ path g, (path, g) ∈ start.outputs 2 found.paths →
        start.location? .file (Batch.outputPath mixedOptions g) ≠ some l) →
      after.tree.entry? l = start.entry? l) ∧
    after.outcome = .failure ("❌ 3 of 5 query documents could not be generated:\n" ++
      "  * \"/w/b.gql\": \"/w/b.gql\" is not valid UTF-8: " ++
      "invalid utf-8 sequence of 1 bytes from index 0\n" ++
      "  * \"/w/c.gql\": `q_data_source.go` was already generated from \"/w/a.gql\"\n" ++
      "  * \"/w/d.gql\": failed to parse GraphQL query: missing query name") := by
  intro start found after
  have hpaths :
      found.paths = ["/w/a.gql".toList, "/w/b.gql", "/w/c.gql", "/w/d.gql", "/w/e.gql"] := by
    decide +kernel
  have herrors : found.errors = [] := by decide +kernel
  have hdone : ∀ failure ∈ (Batch.run mixedOptions start found.paths).failures,
      failure.2.isWrite = false := by
    rw [hpaths]
    decide +kernel
  have happart : OutputsApart mixedOptions start found.paths := by
    rw [hpaths]
    exact ⟨by decide +kernel, by decide +kernel⟩
  have hrefusals : (start.refusals 2 found.paths).map (·.1) =
      ["/w/b.gql".toList, "/w/c.gql".toList, "/w/d.gql".toList] := by
    rw [hpaths]
    decide +kernel
  obtain ⟨-, -, -, -, -, -, hkept, hzero, hfailure⟩ :=
    @run_of_outputsApart mixedOptions mixedTree start found rfl rfl (by decide +kernel) hdone
      happart
  have hcode : after.outcome.exitCode ≠ 0 := by
    intro hcode
    obtain ⟨-, hnil⟩ := hzero.mp hcode
    rw [show start.refusals 2 found.paths = [] from hnil] at hrefusals
    cases hrefusals
  refine ⟨by rw [hpaths]; decide +kernel, hrefusals, hkept, ?_⟩
  have houtcome := hfailure hcode
  rw [herrors, hpaths] at houtcome
  exact houtcome.trans (congrArg Outcome.failure (by decide +kernel))

end GenerateOptions

end DataSourceGen
