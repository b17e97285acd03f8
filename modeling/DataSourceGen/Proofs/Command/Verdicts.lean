import Mathlib.Data.List.Induction
import DataSourceGen.Command.Generate
import DataSourceGen.Proofs.FileTree.Landmarks

/-!
# What becomes of each document

Taken by itself, a document has a draft: the source generated from it, or the reason why there is
none. In a list of documents the first draft for a file name is an output, and every other document
is refused (`mem_outputs_iff`, `mem_refusals_iff`); so each document is the one or the other
(`length_outputs_add_length_refusals`). -/

namespace DataSourceGen

namespace FileTree

variable {t : FileTree} {depth : Nat}

/-- The source that the document at a path gives by itself. -/
def draft (t : FileTree) (depth : Nat) (path : Text) : Except DocumentError Generated :=
  match t.readDocument path with
  | .error reason => .error (.read reason)
  | .ok document =>
    match generate depth document with
    | .error reason => .error (.generate reason)
    | .ok g => .ok g

/-- Whether the document at a path gives a source for a file name. -/
def gives (t : FileTree) (depth : Nat) (fileName path : Text) : Bool :=
  match t.draft depth path with
  | .ok g => g.fileName == fileName
  | .error _ => false

/-- What becomes of the document at a path after some others: the first source for a file name
counts. -/
def verdict (t : FileTree) (depth : Nat) (earlier : List Text) (path : Text) :
    Except DocumentError Generated :=
  match t.draft depth path with
  | .error reason => .error reason
  | .ok g =>
    match earlier.find? (t.gives depth g.fileName) with
    | some first => .error (.alreadyGenerated g.fileName first)
    | none => .ok g

/-- What becomes of the documents at some paths after some others. -/
def verdictsAfter (t : FileTree) (depth : Nat) (earlier : List Text) :
    List Text → List (Text × Except DocumentError Generated)
  | [] => []
  | path :: rest =>
    (path, t.verdict depth earlier path) :: t.verdictsAfter depth (earlier ++ [path]) rest

/-- The documents that give an output, with their sources. -/
def outputs (t : FileTree) (depth : Nat) (paths : List Text) : List (Text × Generated) :=
  (t.verdictsAfter depth [] paths).filterMap fun v =>
    match v.2 with
    | .ok g => some (v.1, g)
    | .error _ => none

/-- The documents that give no output, with the reasons. -/
def refusals (t : FileTree) (depth : Nat) (paths : List Text) : List (Text × DocumentError) :=
  (t.verdictsAfter depth [] paths).filterMap fun v =>
    match v.2 with
    | .ok _ => none
    | .error reason => some (v.1, reason)

/-- A path gives a source by itself iff it has a document from which the source is generated. -/
theorem draft_eq_ok_iff {path : Text} {g : Generated} :
    t.draft depth path = .ok g ↔
      ∃ document, t.readDocument path = .ok document ∧ generate depth document = .ok g := by
  unfold draft
  rcases t.readDocument path with reason | document
  · simp
  · rcases hgenerate : generate depth document with reason | g'
    · simp [hgenerate]
    · simp [hgenerate]

/-- What a file with the bytes of a document gives by itself. -/
theorem draft_of_encoded {path document : Text} {l : Location} {g : Generated}
    (hstat : t.stat path = .ok (l, .file (Text.encode document)))
    (hgenerate : generate depth document = .ok g) : t.draft depth path = .ok g :=
  draft_eq_ok_iff.mpr ⟨document, readDocument_of_encoded hstat, hgenerate⟩

/-! ### One document after the others -/

theorem gives_iff {fileName path : Text} :
    t.gives depth fileName path = true ↔
      ∃ g, t.draft depth path = .ok g ∧ g.fileName = fileName := by
  unfold gives
  rcases t.draft depth path with reason | g
  · simp
  · simp

/-- A document gives an output iff its draft is the first for the file name. -/
theorem verdict_eq_ok_iff {earlier : List Text} {path : Text} {g : Generated} :
    t.verdict depth earlier path = .ok g ↔
      t.draft depth path = .ok g ∧
        ∀ p ∈ earlier, ∀ g', t.draft depth p = .ok g' → g'.fileName ≠ g.fileName := by
  have hfind (g : Generated) : earlier.find? (t.gives depth g.fileName) = none ↔
      ∀ p ∈ earlier, ∀ g', t.draft depth p = .ok g' → g'.fileName ≠ g.fileName := by
    simp only [List.find?_eq_none, gives_iff, not_exists, not_and, ne_eq]
  unfold verdict
  rcases t.draft depth path with reason | g'
  · simp
  · dsimp only
    split
    · next first hfirst =>
      constructor
      · intro h
        cases h
      · rintro ⟨hg, hnone⟩
        obtain rfl := Except.ok.inj hg
        rw [(hfind g').mpr hnone] at hfirst
        cases hfirst
    · next hnone =>
      constructor
      · intro h
        obtain rfl := Except.ok.inj h
        exact ⟨rfl, (hfind g').mp hnone⟩
      · rintro ⟨hg, -⟩
        exact hg

/-- A document is refused iff it has no draft, or an earlier one has a draft for the file name. -/
theorem verdict_eq_error_iff {earlier : List Text} {path : Text} {reason : DocumentError} :
    t.verdict depth earlier path = .error reason ↔
      t.draft depth path = .error reason ∨
        ∃ g first, t.draft depth path = .ok g ∧
          earlier.find? (t.gives depth g.fileName) = some first ∧
          reason = .alreadyGenerated g.fileName first := by
  unfold verdict
  rcases t.draft depth path with reason' | g
  · simp
  · dsimp only
    split
    · next first hfirst =>
      constructor
      · intro h
        exact .inr ⟨g, first, rfl, hfirst, (Except.error.inj h).symm⟩
      · rintro (h | ⟨g', first', hg, hfirst', rfl⟩)
        · cases h
        · obtain rfl := Except.ok.inj hg
          rw [hfirst] at hfirst'
          rw [Option.some.inj hfirst']
    · next hnone =>
      constructor
      · intro h
        cases h
      · rintro (h | ⟨g', first', hg, hfirst', rfl⟩)
        · cases h
        · obtain rfl := Except.ok.inj hg
          rw [hnone] at hfirst'
          cases hfirst'

/-- The last document is judged after all others. -/
theorem verdictsAfter_concat (path : Text) :
    (paths : List Text) → ∀ earlier, t.verdictsAfter depth earlier (paths ++ [path]) =
      t.verdictsAfter depth earlier paths ++ [(path, t.verdict depth (earlier ++ paths) path)]
  | [], earlier => by simp [verdictsAfter]
  | first :: rest, earlier => by
      simp only [List.cons_append, verdictsAfter, verdictsAfter_concat path rest, List.append_assoc,
        List.nil_append]

theorem mem_verdictsAfter {path : Text} {v : Except DocumentError Generated} :
    (paths : List Text) → ∀ before, (path, v) ∈ t.verdictsAfter depth before paths ↔
      ∃ earlier later, paths = earlier ++ path :: later ∧
        t.verdict depth (before ++ earlier) path = v
  | [], before => by simp [verdictsAfter]
  | first :: rest, before => by
      rw [verdictsAfter, List.mem_cons, mem_verdictsAfter rest]
      constructor
      · rintro (hfirst | ⟨earlier, later, rfl, rfl⟩)
        · obtain ⟨rfl, rfl⟩ := Prod.mk.inj hfirst
          exact ⟨[], rest, rfl, by rw [List.append_nil]⟩
        · exact ⟨first :: earlier, later, rfl, by rw [List.append_assoc]; rfl⟩
      · rintro ⟨_ | ⟨e, earlier⟩, later, hpaths, rfl⟩
        · obtain ⟨rfl, rfl⟩ := List.cons.inj hpaths
          exact .inl (by rw [List.append_nil])
        · obtain ⟨rfl, rfl⟩ := List.cons.inj hpaths
          exact .inr ⟨earlier, later, rfl, by rw [List.append_assoc]; rfl⟩

/-! ### Outputs and refusals -/

theorem outputs_concat_of_ok {paths : List Text} {path : Text} {g : Generated}
    (h : t.verdict depth paths path = .ok g) :
    t.outputs depth (paths ++ [path]) = t.outputs depth paths ++ [(path, g)] := by
  rw [outputs, verdictsAfter_concat, List.filterMap_append, ← outputs, List.nil_append, h]
  rfl

theorem outputs_concat_of_error {paths : List Text} {path : Text} {reason : DocumentError}
    (h : t.verdict depth paths path = .error reason) :
    t.outputs depth (paths ++ [path]) = t.outputs depth paths := by
  rw [outputs, verdictsAfter_concat, List.filterMap_append, ← outputs, List.nil_append, h]
  exact List.append_nil _

theorem refusals_concat_of_ok {paths : List Text} {path : Text} {g : Generated}
    (h : t.verdict depth paths path = .ok g) :
    t.refusals depth (paths ++ [path]) = t.refusals depth paths := by
  rw [refusals, verdictsAfter_concat, List.filterMap_append, ← refusals, List.nil_append, h]
  exact List.append_nil _

theorem refusals_concat_of_error {paths : List Text} {path : Text} {reason : DocumentError}
    (h : t.verdict depth paths path = .error reason) :
    t.refusals depth (paths ++ [path]) = t.refusals depth paths ++ [(path, reason)] := by
  rw [refusals, verdictsAfter_concat, List.filterMap_append, ← refusals, List.nil_append, h]
  rfl

/-- **Outputs** are the documents whose draft is the first for its file name. -/
theorem mem_outputs_iff {paths : List Text} {path : Text} {g : Generated} :
    (path, g) ∈ t.outputs depth paths ↔
      ∃ earlier later, paths = earlier ++ path :: later ∧ t.draft depth path = .ok g ∧
        ∀ p ∈ earlier, ∀ g', t.draft depth p = .ok g' → g'.fileName ≠ g.fileName := by
  have hmem : (path, g) ∈ t.outputs depth paths ↔
      (path, Except.ok g) ∈ t.verdictsAfter depth [] paths := by
    rw [outputs, List.mem_filterMap]
    constructor
    · rintro ⟨⟨path', reason | g'⟩, hv, heq⟩
      · cases heq
      · obtain ⟨rfl, rfl⟩ := Prod.mk.inj (Option.some.inj heq)
        exact hv
    · exact fun hv => ⟨_, hv, rfl⟩
  rw [hmem, mem_verdictsAfter]
  simp only [List.nil_append, verdict_eq_ok_iff]

/-- An output stays one, whatever documents follow. -/
theorem mem_outputs_append {paths : List Text} {x : Text × Generated}
    (h : x ∈ t.outputs depth paths) (later : List Text) : x ∈ t.outputs depth (paths ++ later) := by
  obtain ⟨earlier, rest, rfl, hfirst⟩ := mem_outputs_iff.mp h
  exact mem_outputs_iff.mpr ⟨earlier, rest ++ later, by simp, hfirst⟩

/-- **Refusals** are the documents that have no draft, or whose draft is not the first for its file
name. -/
theorem mem_refusals_iff {paths : List Text} {path : Text} {reason : DocumentError} :
    (path, reason) ∈ t.refusals depth paths ↔
      ∃ earlier later, paths = earlier ++ path :: later ∧
        (t.draft depth path = .error reason ∨
          ∃ g first, t.draft depth path = .ok g ∧
            earlier.find? (t.gives depth g.fileName) = some first ∧
            reason = .alreadyGenerated g.fileName first) := by
  have hmem : (path, reason) ∈ t.refusals depth paths ↔
      (path, Except.error reason) ∈ t.verdictsAfter depth [] paths := by
    rw [refusals, List.mem_filterMap]
    constructor
    · rintro ⟨⟨path', reason' | g⟩, hv, heq⟩
      · obtain ⟨rfl, rfl⟩ := Prod.mk.inj (Option.some.inj heq)
        exact hv
      · cases heq
    · exact fun hv => ⟨_, hv, rfl⟩
  rw [hmem, mem_verdictsAfter]
  simp only [List.nil_append, verdict_eq_error_iff]

/-- Each document gives an output or is refused. -/
theorem length_outputs_add_length_refusals (t : FileTree) (depth : Nat) (paths : List Text) :
    (t.outputs depth paths).length + (t.refusals depth paths).length = paths.length := by
  induction paths using List.reverseRecOn with
  | nil => rfl
  | append_singleton paths path ih =>
    rw [List.length_append, List.length_singleton]
    rcases h : t.verdict depth paths path with reason | g
    · rw [outputs_concat_of_error h, refusals_concat_of_error h, List.length_append,
        List.length_singleton, ← Nat.add_assoc, ih]
    · rw [outputs_concat_of_ok h, refusals_concat_of_ok h, List.length_append,
        List.length_singleton, Nat.add_right_comm, ih]

/-- If no document is refused, each gives an output, in its turn. -/
theorem map_fst_outputs {paths : List Text} (h : t.refusals depth paths = []) :
    (t.outputs depth paths).map (·.1) = paths := by
  induction paths using List.reverseRecOn with
  | nil => rfl
  | append_singleton paths path ih =>
    rcases hverdict : t.verdict depth paths path with reason | g
    · rw [refusals_concat_of_error hverdict] at h
      exact absurd h (List.append_ne_nil_of_right_ne_nil _ (List.cons_ne_nil _ _))
    · rw [refusals_concat_of_ok hverdict] at h
      rw [outputs_concat_of_ok hverdict, List.map_append, ih h]
      rfl

/-- Among the outputs, a file name is that of the first document that gives it. -/
theorem lookup_outputs (t : FileTree) (depth : Nat) (fileName : Text) (paths : List Text) :
    ((t.outputs depth paths).map fun x => (x.2.fileName, x.1)).lookup fileName =
      paths.find? (t.gives depth fileName) := by
  induction paths using List.reverseRecOn with
  | nil => rfl
  | append_singleton paths path ih =>
    rw [List.find?_append]
    rcases h : t.verdict depth paths path with reason | g
    · rw [outputs_concat_of_error h, ih]
      rcases hgives : t.gives depth fileName path with _ | _
      · rw [List.find?_cons_of_neg (by simp [hgives]), List.find?_nil, Option.or_none]
      · obtain ⟨g, hdraft, rfl⟩ := gives_iff.mp hgives
        rcases verdict_eq_error_iff.mp h with hnone | ⟨g', first, hdraft', hfirst, -⟩
        · rw [hdraft] at hnone
          cases hnone
        · obtain rfl := Except.ok.inj (hdraft.symm.trans hdraft')
          rw [hfirst, Option.some_or]
    · have hgives : t.gives depth fileName path = (fileName == g.fileName) := by
        unfold gives
        rw [(verdict_eq_ok_iff.mp h).1]
        exact Bool.beq_comm
      rw [outputs_concat_of_ok h, List.map_append, List.lookup_append, ih, List.map_singleton,
        List.lookup_cons, List.lookup_nil, ← hgives]
      rfl

/-! ### Two trees -/

/-- What becomes of documents is a matter of their drafts. -/
theorem verdictsAfter_congr {t' : FileTree} :
    (paths : List Text) → ∀ earlier,
      (∀ p ∈ earlier ++ paths, t'.draft depth p = t.draft depth p) →
      t'.verdictsAfter depth earlier paths = t.verdictsAfter depth earlier paths
  | [], _, _ => rfl
  | path :: rest, earlier, h => by
      have hpath := h path (List.mem_append_right _ List.mem_cons_self)
      have hfind (fileName : Text) :
          earlier.find? (t'.gives depth fileName) = earlier.find? (t.gives depth fileName) := by
        rw [← List.head?_filter, ← List.head?_filter]
        refine congrArg List.head? (List.filter_congr fun p hp => ?_)
        unfold gives
        rw [h p (List.mem_append_left _ hp)]
      have hverdict : t'.verdict depth earlier path = t.verdict depth earlier path := by
        unfold verdict
        rw [hpath]
        simp only [hfind]
      rw [verdictsAfter, verdictsAfter, hverdict, verdictsAfter_congr rest (earlier ++ [path])]
      simpa using h

theorem outputs_congr {t' : FileTree} {paths : List Text}
    (h : ∀ p ∈ paths, t'.draft depth p = t.draft depth p) :
    t'.outputs depth paths = t.outputs depth paths := by
  rw [outputs, outputs, verdictsAfter_congr paths [] h]

theorem refusals_congr {t' : FileTree} {paths : List Text}
    (h : ∀ p ∈ paths, t'.draft depth p = t.draft depth p) :
    t'.refusals depth paths = t.refusals depth paths := by
  rw [refusals, refusals, verdictsAfter_congr paths [] h]

end FileTree

end DataSourceGen
