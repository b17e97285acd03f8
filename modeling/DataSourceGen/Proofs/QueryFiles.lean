import DataSourceGen.Proofs.FileTree.Descent
import DataSourceGen.Proofs.NameSet
import DataSourceGen.QueryFiles

/-!
# The documents that are found

Among the regular files that the walks of some paths meet, the documents are those whose name is a
stem, a dot and one of the extensions (`IsDocument`).

**Theorem** (`find_eq`): the documents are found in the order of the walks and named by their
canonical paths. Only a single path that is itself a file is found whatever its name. Each file that
is met is either found or counted as passed over, and the order in which the entries of the tree
were made does not matter.

A path of a document leads to a location (`exists_locate_of_mem_find`), so that its document stays
the same when directories are made (`readDocument_of_mem_find`). -/

namespace DataSourceGen

open FileTree

/-! ### Names of documents -/

namespace Path

/-- Whether a name is a stem, a dot and an extension without dots. -/
def HasExtension (name extension : Text) : Prop :=
  ∃ stem, stem ≠ [] ∧ name = stem ++ '.' :: extension ∧ '.' ∉ extension

/-- **The extension** of a name is what it has behind a stem and a dot, unless the name leads up. -/
theorem extensionOf?_eq_some_iff {name extension : Text} (hup : name ≠ ['.', '.']) :
    extensionOf? name = some extension ↔ HasExtension name extension := by
  have hname : (name == "..".toList) = false := beq_eq_false_iff_ne.mpr hup
  constructor
  · intro h
    unfold extensionOf? at h
    rcases hcut : Text.cutAt '.' name.reverse with _ | ⟨ext, _ | ⟨c, stem⟩⟩
    · rw [hcut] at h
      cases h
    · rw [hcut] at h
      cases h
    · rw [hcut] at h
      dsimp only at h
      rw [hname] at h
      obtain rfl := Option.some.inj h
      obtain ⟨hreverse, hdot⟩ := Text.cutAt_eq_some_iff.mp hcut
      refine ⟨(c :: stem).reverse, by simp, ?_, by simpa using hdot⟩
      rw [← name.reverse_reverse, hreverse]
      simp
  · rintro ⟨stem, hstem, rfl, hdot⟩
    have hcut : Text.cutAt '.' (stem ++ '.' :: extension).reverse =
        some (extension.reverse, stem.reverse) :=
      Text.cutAt_eq_some_iff.mpr ⟨by simp, by simpa using hdot⟩
    rcases hreverse : stem.reverse with _ | ⟨c, rest⟩
    · exact absurd (List.reverse_eq_nil_iff.mp hreverse) hstem
    · unfold extensionOf?
      rw [hcut, hreverse]
      dsimp only
      rw [hname, List.reverse_reverse]
      rfl

instance (name extension : Text) : Decidable (HasExtension name extension) :=
  decidable_of_iff
    (∃ stem ∈ name.inits, stem ≠ [] ∧ name = stem ++ '.' :: extension ∧ '.' ∉ extension)
    ⟨fun ⟨stem, _, h⟩ => ⟨stem, h⟩,
      fun ⟨stem, h⟩ => ⟨stem, (List.mem_inits _ _).mpr ⟨_, h.2.1.symm⟩, h⟩⟩

end Path

/-- The path of a visit. -/
def Visit.path : Visit → Text
  | .entry path _ | .error (.failed path _) | .error (.loops path _) => path

/-- Whether a visit is of a regular file. -/
def Visit.isFile : Visit → Bool
  | .entry _ e => e.isFile
  | .error _ => false

namespace QueryFiles

variable {t t' : FileTree}

/-- Whether a visit is of a document: of a regular file with one of the extensions, which may be
given with dots in front. -/
def IsDocument (extensions : List Text) : Visit → Prop
  | .entry path e => e.isFile = true ∧
      ∃ extension ∈ extensions, Path.HasExtension (Path.lastName path) (Text.dropStart '.' extension)
  | .error _ => False

instance (extensions : List Text) : DecidablePred (IsDocument extensions)
  | .entry path e => inferInstanceAs (Decidable (e.isFile = true ∧
      ∃ extension ∈ extensions,
        Path.HasExtension (Path.lastName path) (Text.dropStart '.' extension)))
  | .error _ => inferInstanceAs (Decidable False)

theorem contains_extensionSet_iff {extensions : List Text} {x : Text} :
    (extensionSet extensions).contains x = true ↔
      ∃ extension ∈ extensions, Text.dropStart '.' extension = x := by
  rw [extensionSet, NameSet.contains_iff, NameSet.mem_ofList, List.mem_map]

/-! ### Adding visits -/

section

variable {extensions : List Text} {v : Visit}

/-- A document is added under its canonical path. -/
theorem visit_of_isDocument (h : IsDocument extensions v)
    (hup : Path.lastName v.path ≠ ['.', '.']) (found : QueryFiles) :
    visit t (extensionSet extensions) found v =
      { found with paths := found.paths ++ [t.canonical v.path] } := by
  cases v with
  | error reason => exact h.elim
  | entry path e =>
    obtain ⟨hfile, extension, hmem, hname⟩ := h
    have hextension : Path.extension? path = some (Text.dropStart '.' extension) :=
      (Path.extensionOf?_eq_some_iff hup).mpr hname
    have hasked := contains_extensionSet_iff.mpr ⟨extension, hmem, rfl⟩
    simp only [visit, hfile, hextension, hasked, Bool.not_true, Bool.false_eq_true, if_false,
      if_true]
    rfl

/-- Another file is counted. -/
theorem visit_of_isFile (hfile : v.isFile = true) (h : ¬IsDocument extensions v)
    (hup : Path.lastName v.path ≠ ['.', '.']) (found : QueryFiles) :
    visit t (extensionSet extensions) found v = { found with skipped := found.skipped + 1 } := by
  cases v with
  | error reason => cases hfile
  | entry path e =>
    have hfile' : e.isFile = true := hfile
    simp only [visit, hfile', Bool.not_true, Bool.false_eq_true, if_false]
    rcases hextension : Path.extension? path with _ | x
    · rfl
    · have hnot : ¬(extensionSet extensions).contains x = true := by
        intro hasked
        obtain ⟨extension, hmem, rfl⟩ := contains_extensionSet_iff.mp hasked
        exact h ⟨hfile, extension, hmem, (Path.extensionOf?_eq_some_iff hup).mp hextension⟩
      dsimp only
      rw [if_neg hnot]

/-- What is no file adds to the errors at most. -/
theorem visit_of_not_isFile (hfile : ¬v.isFile = true) (found : QueryFiles) :
    (visit t (extensionSet extensions) found v).paths = found.paths ∧
      (visit t (extensionSet extensions) found v).skipped = found.skipped := by
  cases v with
  | error reason => exact ⟨rfl, rfl⟩
  | entry path e =>
    have hfile' : e.isFile = false := Bool.eq_false_iff.mpr hfile
    simp only [visit, hfile', Bool.not_false, if_true, and_self]

theorem isFile_of_isDocument (h : IsDocument extensions v) : v.isFile = true := by
  cases v with
  | error reason => exact h.elim
  | entry path e => exact h.1

/-- A visit adds the canonical path of a document. -/
theorem paths_visit (hup : v.isFile = true → Path.lastName v.path ≠ ['.', '.'])
    (found : QueryFiles) :
    (visit t (extensionSet extensions) found v).paths =
      found.paths ++ if IsDocument extensions v then [t.canonical v.path] else [] := by
  by_cases hfile : v.isFile = true
  · by_cases hdocument : IsDocument extensions v
    · rw [visit_of_isDocument hdocument (hup hfile), if_pos hdocument]
    · rw [visit_of_isFile hfile hdocument (hup hfile), if_neg hdocument, List.append_nil]
  · have hdocument : ¬IsDocument extensions v := fun h => hfile (isFile_of_isDocument h)
    rw [(visit_of_not_isFile hfile found).1, if_neg hdocument, List.append_nil]

/-- A visit of a file adds a path or counts it. -/
theorem count_visit (hup : v.isFile = true → Path.lastName v.path ≠ ['.', '.'])
    (found : QueryFiles) :
    (visit t (extensionSet extensions) found v).paths.length +
        (visit t (extensionSet extensions) found v).skipped =
      found.paths.length + found.skipped + if v.isFile then 1 else 0 := by
  by_cases hfile : v.isFile = true
  · rw [if_pos hfile]
    by_cases hdocument : IsDocument extensions v
    · rw [visit_of_isDocument hdocument (hup hfile), List.length_append, List.length_singleton,
        Nat.add_right_comm]
    · rw [visit_of_isFile hfile hdocument (hup hfile)]
      rfl
  · obtain ⟨hpaths, hskipped⟩ := @visit_of_not_isFile t extensions v hfile found
    rw [hpaths, hskipped, if_neg hfile, Nat.add_zero]

end

/-- **The documents of some visits** are found in order. -/
theorem paths_foldl_visit (extensions : List Text) :
    (visits : List Visit) →
      (∀ v ∈ visits, v.isFile = true → Path.lastName v.path ≠ ['.', '.']) →
      ∀ found : QueryFiles, (visits.foldl (visit t (extensionSet extensions)) found).paths =
        found.paths ++
          (visits.filter (IsDocument extensions ·)).map fun v => t.canonical v.path
  | [], _, found => (List.append_nil _).symm
  | v :: visits, hup, found => by
      obtain ⟨hupv, hup⟩ := List.forall_mem_cons.mp hup
      rw [List.foldl_cons, paths_foldl_visit extensions visits hup, paths_visit hupv,
        List.filter_cons]
      by_cases hdocument : IsDocument extensions v
      · simp [hdocument]
      · simp [hdocument]

/-- **The files of some visits** are found or counted. -/
theorem count_foldl_visit (extensions : List Text) :
    (visits : List Visit) →
      (∀ v ∈ visits, v.isFile = true → Path.lastName v.path ≠ ['.', '.']) →
      ∀ found : QueryFiles,
        (visits.foldl (visit t (extensionSet extensions)) found).paths.length +
            (visits.foldl (visit t (extensionSet extensions)) found).skipped =
          found.paths.length + found.skipped + (visits.filter Visit.isFile).length
  | [], _, _ => rfl
  | v :: visits, hup, found => by
      obtain ⟨hupv, hup⟩ := List.forall_mem_cons.mp hup
      rw [List.foldl_cons, count_foldl_visit extensions visits hup, count_visit hupv,
        List.filter_cons]
      by_cases hfile : v.isFile = true
      · rw [if_pos hfile, if_pos hfile, List.length_cons]
        omega
      · rw [if_neg hfile, if_neg hfile, Nat.add_zero]

/-! ### The walks of some paths -/

/-- No file that a walk meets has a path that leads up. -/
theorem lastName_of_mem_walk (h : t.IsWellFormed) {root : Text} {v : Visit} (hv : v ∈ t.walk root)
    (hfile : v.isFile = true) : Path.lastName v.path ≠ ['.', '.'] := by
  intro hlast
  cases v with
  | error reason => cases hfile
  | entry path e =>
    obtain ⟨l, hplace, he⟩ := h.exists_locate_of_mem_walk hv
    have hdirectory := isDirectoryAt_iff.mp (h.isDirectoryAt_of_lastName hplace hlast)
    rw [he] at hdirectory
    cases hdirectory
    cases hfile

/-- A list of walks is that of some paths iff each is the walk of its path. -/
theorem forall₂_walks_iff (h : t.IsWellFormed) (honce : t.ListsOnce) :
    (paths : List Text) → {walks : List (List Visit)} →
      (List.Forall₂ t.Walks paths walks ↔ walks = paths.map t.walk)
  | [], walks => by rw [List.forall₂_nil_left_iff, List.map_nil]
  | path :: paths, walks => by
      have ih := @forall₂_walks_iff h honce paths
      rw [List.forall₂_cons_left_iff, List.map_cons]
      constructor
      · rintro ⟨first, rest, hfirst, hrest, rfl⟩
        rw [(walks_iff h honce).mp hfirst, ih.mp hrest]
      · rintro rfl
        exact ⟨_, _, (walks_iff h honce).mpr rfl, ih.mpr rfl, rfl⟩

theorem lastName_of_mem_walks (h : t.IsWellFormed) (paths : List Text) :
    ∀ v ∈ paths.flatMap t.walk, v.isFile = true → Path.lastName v.path ≠ ['.', '.'] := by
  intro v hv
  obtain ⟨root, -, hwalk⟩ := List.mem_flatMap.mp hv
  exact lastName_of_mem_walk h hwalk

theorem paths_walked (h : t.IsWellFormed) (paths extensions : List Text) :
    (walked t (extensionSet extensions) paths).paths =
      ((paths.flatMap t.walk).filter (IsDocument extensions ·)).map fun v => t.canonical v.path :=
  paths_foldl_visit extensions _ (lastName_of_mem_walks h paths) _

theorem count_walked (h : t.IsWellFormed) (paths extensions : List Text) :
    (walked t (extensionSet extensions) paths).paths.length +
        (walked t (extensionSet extensions) paths).skipped =
      ((paths.flatMap t.walk).filter Visit.isFile).length := by
  have hcount := @count_foldl_visit t extensions _ (lastName_of_mem_walks h paths) {}
  exact hcount.trans (by simp)

/-! ### A single file -/

theorem onlyFile?_eq_some_iff {paths : List Text} {found : QueryFiles} {path : Text} :
    onlyFile? t paths found = some path ↔
      found.paths = [] ∧ paths = [path] ∧ t.isFile path = true := by
  rcases hfound : found.paths with _ | ⟨x, rest⟩
  · rcases paths with _ | ⟨p, _ | ⟨q, paths⟩⟩
    · simp [onlyFile?, hfound]
    · by_cases hfile : t.isFile p = true
      · simp only [onlyFile?, hfound, hfile, if_true, true_and, Option.some_inj, List.cons.injEq,
          and_true]
        constructor
        · rintro rfl
          exact ⟨rfl, hfile⟩
        · exact And.left
      · simp only [onlyFile?, hfound, hfile, if_false, true_and, List.cons.injEq, and_true, false_iff,
          reduceCtorEq, not_and, Bool.false_eq_true]
        rintro rfl
        exact hfile
    · simp [onlyFile?, hfound]
  · simp [onlyFile?, hfound]

theorem find_of_onlyFile? {paths extensions : List Text} {path : Text}
    (h : onlyFile? t paths (walked t (extensionSet extensions) paths) = some path) :
    (find t paths extensions).paths = [t.canonical path] ∧
      (find t paths extensions).skipped =
        (walked t (extensionSet extensions) paths).skipped - 1 := by
  unfold find
  dsimp only
  rw [h]
  exact ⟨rfl, rfl⟩

/-- A single file that is taken whatever its name was counted before. -/
theorem skipped_of_onlyFile? (h : t.IsWellFormed) {paths extensions : List Text} {path : Text}
    (honly : onlyFile? t paths (walked t (extensionSet extensions) paths) = some path) :
    (walked t (extensionSet extensions) paths).skipped = 1 ∧
      ((paths.flatMap t.walk).filter Visit.isFile).length = 1 := by
  obtain ⟨hnone, rfl, hfile⟩ := onlyFile?_eq_some_iff.mp honly
  obtain ⟨e, hwalk, he⟩ := walk_of_isFile hfile
  have hsingle : ([path].flatMap t.walk).filter Visit.isFile = [.entry path e] := by
    rw [List.flatMap_singleton, hwalk]
    exact List.filter_cons_of_pos he
  have hcount := count_walked h [path] extensions
  rw [hnone, hsingle, List.length_nil, Nat.zero_add] at hcount
  rw [hsingle]
  exact ⟨hcount, rfl⟩

/-- **A single file** is found whatever its name. -/
theorem find_of_isFile (h : t.IsWellFormed) {path : Text} (hfile : t.isFile path = true)
    (extensions : List Text) : (find t [path] extensions).paths = [t.canonical path] := by
  rcases honly : onlyFile? t [path] (walked t (extensionSet extensions) [path]) with _ | p
  · obtain ⟨e, hwalk, -⟩ := walk_of_isFile hfile
    have hpaths := paths_walked h [path] extensions
    rw [List.flatMap_singleton, hwalk] at hpaths
    have hsome : (walked t (extensionSet extensions) [path]).paths ≠ [] := by
      intro hnone
      rw [onlyFile?_eq_some_iff.mpr ⟨hnone, rfl, hfile⟩] at honly
      cases honly
    have hfind : find t [path] extensions = walked t (extensionSet extensions) [path] := by
      unfold find
      dsimp only
      rw [honly]
    by_cases hdocument : IsDocument extensions (.entry path e)
    · rw [hfind, hpaths, List.filter_cons_of_pos (by simpa using hdocument)]
      rfl
    · rw [List.filter_cons_of_neg (by simpa using hdocument)] at hpaths
      exact absurd hpaths hsome
  · obtain ⟨-, hsame, -⟩ := onlyFile?_eq_some_iff.mp honly
    obtain rfl := List.singleton_inj.mp hsame
    exact (find_of_onlyFile? honly).1

/-- No error is met on the way to a single file. -/
theorem errors_find_of_isFile {path : Text} (hfile : t.isFile path = true)
    (extensions : List Text) : (find t [path] extensions).errors = [] := by
  have herrors : (find t [path] extensions).errors =
      (walked t (extensionSet extensions) [path]).errors := by
    unfold find
    dsimp only
    rcases onlyFile? t [path] (walked t (extensionSet extensions) [path]) with _ | p
    · rfl
    · rfl
  obtain ⟨e, hwalk, -⟩ := walk_of_isFile hfile
  rw [herrors, walked, List.flatMap_singleton, hwalk, List.foldl_cons, List.foldl_nil]
  unfold visit
  dsimp only
  split
  · rfl
  · split
    · rfl
    · split
      · rfl
      · rfl

/-! ### What is found -/

/-- Unless there is a single path of a file, nothing but the walks counts. -/
theorem find_eq_walked {paths : List Text} (h : ¬∃ path, paths = [path] ∧ t.isFile path = true)
    (extensions : List Text) :
    find t paths extensions = walked t (extensionSet extensions) paths := by
  have hnone : onlyFile? t paths (walked t (extensionSet extensions) paths) = none := by
    rw [Option.eq_none_iff_forall_ne_some]
    intro path honly
    obtain ⟨-, hpaths, hfile⟩ := onlyFile?_eq_some_iff.mp honly
    exact h ⟨path, hpaths, hfile⟩
  unfold find
  dsimp only
  rw [hnone]

/-- Each file is found or counted. -/
theorem count_find (h : t.IsWellFormed) (paths extensions : List Text) :
    (find t paths extensions).paths.length + (find t paths extensions).skipped =
      ((paths.flatMap t.walk).filter Visit.isFile).length := by
  rcases honly : onlyFile? t paths (walked t (extensionSet extensions) paths) with _ | path
  · have hfind : find t paths extensions = walked t (extensionSet extensions) paths := by
      unfold find
      dsimp only
      rw [honly]
    rw [hfind, count_walked h]
  · obtain ⟨hpaths, hskipped⟩ := find_of_onlyFile? honly
    obtain ⟨hcounted, hsingle⟩ := skipped_of_onlyFile? h honly
    rw [hpaths, hskipped, hcounted, hsingle]
    rfl

/-- The order in which the entries of the tree were made does not matter. -/
theorem find_eq_of_perm (h : t.IsWellFormed) (honce : t.ListsOnce)
    (hcurrent : t'.current = t.current) (hperm : t'.entries.Perm t.entries)
    (paths extensions : List Text) : find t' paths extensions = find t paths extensions := by
  obtain ⟨-, hagrees⟩ := agrees_of_perm honce hcurrent hperm
  have hwalk : t'.walk = t.walk := funext (walk_eq_of_perm h honce hcurrent hperm)
  have hvisit : visit t' = visit t := by
    funext set found v
    cases v with
    | error reason => rfl
    | entry path e => rw [visit, visit, hagrees.canonical_eq]
  have hwalked : walked t' = walked t := by
    funext set roots
    rw [walked, walked, hwalk, hvisit]
  have honly : onlyFile? t' = onlyFile? t := by
    funext roots found
    unfold onlyFile?
    simp only [hagrees.isFile_eq]
  unfold find
  simp only [hwalked, honly, hagrees.canonical_eq]

/-- **The documents that are found**: let the walks of the paths be as they can be in a tree. The
documents among their visits are found in order, under their canonical paths, except that a single
path that is itself a file is found whatever its name. Each file that is visited is found or
counted; a single file that is found after all was counted before. The order in which the entries of
the tree were made does not matter. -/
theorem find_eq (h : t.IsWellFormed) (honce : t.ListsOnce) (paths extensions : List Text) :
    ∃ walks : List (List Visit),
      (∀ walks', List.Forall₂ t.Walks paths walks' ↔ walks' = walks) ∧
      (∀ path, paths = [path] → t.isFile path = true →
        (find t paths extensions).paths = [t.canonical path]) ∧
      ((¬∃ path, paths = [path] ∧ t.isFile path = true) →
        (find t paths extensions).paths =
          (walks.flatten.filter (IsDocument extensions ·)).map fun v => t.canonical v.path) ∧
      (find t paths extensions).paths.length + (find t paths extensions).skipped =
        (walks.flatten.filter Visit.isFile).length ∧
      (∀ path, onlyFile? t paths (walked t (extensionSet extensions) paths) = some path →
        0 < (walked t (extensionSet extensions) paths).skipped) ∧
      ∀ t' : FileTree, t'.current = t.current → t'.entries.Perm t.entries →
        find t' paths extensions = find t paths extensions := by
  refine ⟨paths.map t.walk, fun walks' => forall₂_walks_iff h honce paths, ?_, ?_, ?_, ?_, ?_⟩
  · rintro path rfl hfile
    exact find_of_isFile h hfile extensions
  · intro hsingle
    rw [find_eq_walked hsingle, paths_walked h, List.flatMap_def]
  · rw [count_find h, List.flatMap_def]
  · intro path honly
    rw [(skipped_of_onlyFile? h honly).1]
    exact Nat.one_pos
  · intro t' hcurrent hperm
    exact find_eq_of_perm h honce hcurrent hperm paths extensions

/-- A directory with two files that have no extension asked for, a link to a document and a link
that leads back up. -/
def linkedTree : FileTree where
  current := ["w"]
  entries := [(["w"], .directory), (["w", "b"], .directory), (["w", "b", "x.gql"], .file []),
    (["w", "b", "up"], .link ['.', '.']), (["w", "l.graphql"], .link "b/x.gql"),
    (["w", "a.txt"], .file []), (["w", ".gql"], .file [])]

/-- In the directory, the document and the link to it are found, in whatever order the entries were
made. -/
theorem find_eq_linkedTree :
    linkedTree.IsWellFormed ∧ linkedTree.ListsOnce ∧
    find linkedTree [['.']] ["..gql", "graphql"] =
      { paths := ["/w/b/x.gql", "/w/b/x.gql"], skipped := 2
        errors := [.loops "./b/up" ['.']] } ∧
    find { linkedTree with entries := linkedTree.entries.reverse } [['.']] ["..gql", "graphql"] =
      find linkedTree [['.']] ["..gql", "graphql"] ∧
    ∃ walks, List.Forall₂ linkedTree.Walks [['.']] walks ∧
      (walks.flatten.filter Visit.isFile).length = 4 ∧
      (walks.flatten.filter (IsDocument ["..gql", "graphql"] ·)).map (linkedTree.canonical ·.path) =
        ["/w/b/x.gql", "/w/b/x.gql"] := by
  have hwell : linkedTree.IsWellFormed := isWellFormed_iff.mp (by decide)
  have honce : linkedTree.ListsOnce := by
    unfold ListsOnce
    decide
  obtain ⟨walks, hwalks, -, hpaths, hcount, -, hperm⟩ :=
    find_eq hwell honce [['.']] ["..gql", "graphql"]
  have hdirectory : ¬∃ path, [['.']] = [path] ∧ linkedTree.isFile path = true := by
    rintro ⟨path, hpath, hfile⟩
    obtain rfl := List.singleton_inj.mp hpath
    revert hfile
    decide
  refine ⟨hwell, honce, rfl, hperm _ rfl (List.reverse_perm _), walks, (hwalks walks).mpr rfl,
    ?_, ?_⟩
  · rw [← hcount]
    rfl
  · rw [← hpaths hdirectory]
    rfl

/-! ### What the documents have in them -/

/-- The documents that are found are named by paths that lead to a location. -/
theorem exists_locate_of_mem_find (h : t.IsWellFormed) {paths extensions : List Text} {x : Text}
    (hmem : x ∈ (find t paths extensions).paths) :
    ∃ l, t.locate .target x = .ok (.present l) := by
  by_cases hsingle : ∃ path, paths = [path] ∧ t.isFile path = true
  · obtain ⟨path, rfl, hfile⟩ := hsingle
    rw [find_of_isFile h hfile] at hmem
    obtain rfl := List.mem_singleton.mp hmem
    obtain ⟨l, e, hstat, -⟩ := exists_stat_of_isFile hfile
    exact ⟨l, h.locate_canonical (locate_of_lookup hstat).1⟩
  · rw [find_eq_walked hsingle, paths_walked h] at hmem
    obtain ⟨v, hv, rfl⟩ := List.mem_map.mp hmem
    obtain ⟨hvisit, hdocument⟩ := List.mem_filter.mp hv
    cases v with
    | error reason => exact (of_decide_eq_true hdocument).elim
    | entry path e =>
      obtain ⟨root, -, hwalk⟩ := List.mem_flatMap.mp hvisit
      obtain ⟨l, hl, -⟩ := h.exists_locate_of_mem_walk hwalk
      exact ⟨l, h.locate_canonical hl⟩

/-- **The documents that are found** stay the same when directories are made. -/
theorem readDocument_of_mem_find (h : t.IsWellFormed) (hgains : Gains t t')
    {paths extensions : List Text} {x : Text} (hmem : x ∈ (find t paths extensions).paths) :
    t'.readDocument x = t.readDocument x := by
  obtain ⟨l, hl⟩ := exists_locate_of_mem_find h hmem
  obtain ⟨e, he, -⟩ := (h.stands_of_locate hl).entry
  exact hgains.includes.readDocument_eq hl he

end QueryFiles

end DataSourceGen
