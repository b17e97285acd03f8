import DataSourceGen.Proofs.FileTree.Below
import DataSourceGen.Proofs.Text.Decoding

/-!
# What is read at a path

Names are followed from a directory: an empty one and a dot stay there, two dots go up, and any
other one enters what has this name, or goes on with the names of the target if that is a link
(`Resolves`). Following names step by step until the next link and counting the links comes to the
same (`resolve_target_iff`).

**Theorem** (`readDocument_exact`): a document is read at a path iff the path leads to a regular
file with the bytes of this document; the path is refused as no file iff it leads to no regular
file; and bytes that are no text are at fault where the longest text that they begin with ends. -/

namespace DataSourceGen

namespace FileTree

variable {t : FileTree}

/-! ### Following names -/

/-- Whether a name is looked up in a directory, and may be. -/
structure IsSought (name : Text) : Prop where
  nonempty : name ≠ []
  notSelf : name ≠ ['.']
  notUp : name ≠ ['.', '.']
  short : Text.byteSize name ≤ maxNameSize

/-- Whether names lead from a location to another one, through at most `links` links. -/
inductive Resolves (t : FileTree) (l : Location) : Nat → Location → List Text → Prop where
  | done {links : Nat} : Resolves t l links l []
  | stay {links : Nat} {here : Location} {name : Text} {rest : List Text}
      (inside : t.entry? here = some .directory) (empty : name = [] ∨ name = ['.'])
      (goesOn : Resolves t l links here rest) : Resolves t l links here (name :: rest)
  | up {links : Nat} {here : Location} {rest : List Text}
      (inside : t.entry? here = some .directory)
      (goesOn : Resolves t l links here.dropLast rest) :
      Resolves t l links here (['.', '.'] :: rest)
  | down {links : Nat} {here : Location} {name : Text} {rest : List Text} {e : Entry}
      (inside : t.entry? here = some .directory) (sought : IsSought name)
      (found : t.entry? (here ++ [name]) = some e) (plain : ∀ target, e ≠ .link target)
      (goesOn : Resolves t l links (here ++ [name]) rest) :
      Resolves t l links here (name :: rest)
  | link {links : Nat} {here : Location} {name target : Text} {rest : List Text}
      (inside : t.entry? here = some .directory) (sought : IsSought name)
      (found : t.entry? (here ++ [name]) = some (.link target))
      (goesOn : Resolves t l links (if Path.isAbsolute target then [] else here)
        (Path.parts target ++ rest)) :
      Resolves t l (links + 1) here (name :: rest)

/-- Whether a location is reached after some progress, through at most `links` further links. -/
def Progress.Resolves (t : FileTree) (l : Location) (links : Nat) : Progress → Prop
  | .arrived k => k = l
  | .link k target rest => ∃ fewer, links = fewer + 1 ∧
      t.Resolves l fewer (if Path.isAbsolute target then [] else k.dropLast)
        (Path.parts target ++ rest)
  | .absent _ | .failed _ => False

variable {l here : Location} {links : Nat} {name : Text} {rest : List Text}

/-- A name that is looked up is entered. -/
theorem advance_of_isSought (inside : t.entry? here = some .directory) (sought : IsSought name)
    (rest : List Text) :
    t.advance .target here (name :: rest) = t.enter .target (here ++ [name]) rest := by
  have hempty : (name.isEmpty || decide (name = ['.'])) = false := by
    simp [sought.nonempty, sought.notSelf]
  rw [advance_cons, isDirectoryAt_iff.mpr inside, hempty, if_neg sought.notUp,
    if_neg (Nat.not_lt.mpr sought.short)]
  rfl

/-- A link that is entered has to be followed. -/
theorem enter_target_of_link {k : Location} {target : Text}
    (found : t.entry? k = some (.link target)) (rest : List Text) :
    t.enter .target k rest = .link k target rest := by
  rw [enter, found]
  simp [Purpose.followsLast]

/-- Names that lead to a location are followed to it. -/
theorem Resolves.advance {parts : List Text} (h : t.Resolves l links here parts) :
    (t.advance .target here parts).Resolves t l links := by
  induction h with
  | done => rfl
  | stay inside empty goesOn ih =>
    rw [advance_cons, isDirectoryAt_iff.mpr inside]
    rcases empty with rfl | rfl
    · exact ih
    · exact ih
  | up inside goesOn ih =>
    rw [advance_cons, isDirectoryAt_iff.mpr inside]
    exact ih
  | down inside sought found plain goesOn ih =>
    rw [advance_of_isSought inside sought, enter_target_eq found plain]
    exact ih
  | @link links here name target rest inside sought found goesOn =>
    rw [advance_of_isSought inside sought, enter_target_of_link found]
    refine ⟨links, rfl, ?_⟩
    rwa [List.dropLast_concat]

/-- What is entered leads on if the names after it do. -/
theorem resolves_of_enter (inside : t.entry? here = some .directory) (sought : IsSought name)
    (hrest : (t.advance .target (here ++ [name]) rest).Resolves t l links →
      t.Resolves l links (here ++ [name]) rest)
    (h : (t.enter .target (here ++ [name]) rest).Resolves t l links) :
    t.Resolves l links here (name :: rest) := by
  rcases found : t.entry? (here ++ [name]) with _ | e
  · unfold enter at h
    rw [found] at h
    dsimp only at h
    split at h
    · exact h.elim
    · exact h.elim
  by_cases hlink : ∃ target, e = .link target
  · obtain ⟨target, rfl⟩ := hlink
    rw [enter_target_of_link found] at h
    obtain ⟨fewer, rfl, goesOn⟩ := h
    rw [List.dropLast_concat] at goesOn
    exact .link inside sought found goesOn
  · have plain : ∀ target, e ≠ .link target := fun target heq => hlink ⟨target, heq⟩
    rw [enter_target_eq found plain] at h
    exact .down inside sought found plain (hrest h)

/-- Names that are followed to a location lead to it. -/
theorem resolves_of_advance :
    (parts : List Text) → ∀ here, (t.advance .target here parts).Resolves t l links →
      t.Resolves l links here parts
  | [], here, h => h ▸ .done
  | name :: rest, here, h => by
      have ih := resolves_of_advance rest
      rcases hdirectory : t.isDirectoryAt here with _ | _
      · rw [advance_cons, hdirectory] at h
        exact h.elim
      have inside := isDirectoryAt_iff.mp hdirectory
      by_cases empty : name = [] ∨ name = ['.']
      · rw [advance_cons, hdirectory, if_neg (by decide), if_pos (by simpa using empty)] at h
        exact .stay inside empty (ih here h)
      -- any other name but two dots is looked up, if it is short enough
      obtain ⟨hnonempty, hself⟩ := not_or.mp empty
      by_cases hup : name = ['.', '.']
      · subst hup
        rw [advance_cons, hdirectory] at h
        exact .up inside (ih here.dropLast h)
      by_cases hlong : maxNameSize < Text.byteSize name
      · rw [advance_cons, hdirectory, if_neg (by decide), if_neg (by simpa using empty), if_neg hup,
          if_neg (by simp [Purpose.isMisplaced]), if_pos hlong] at h
        exact h.elim
      have sought : IsSought name := ⟨hnonempty, hself, hup, Nat.not_lt.mp hlong⟩
      rw [advance_of_isSought inside sought] at h
      exact resolves_of_enter inside sought (ih _) h

theorem resolves_iff {parts : List Text} :
    t.Resolves l links here parts ↔ (t.advance .target here parts).Resolves t l links :=
  ⟨Resolves.advance, resolves_of_advance parts here⟩

/-- **Following names** finds the location that they lead to. -/
theorem resolveFrom_target_iff : ∀ {links here parts},
    t.resolveFrom .target links here parts = .ok (.present l) ↔ t.Resolves l links here parts := by
  intro links
  induction links with
  | zero =>
    intro here parts
    rw [resolves_iff, resolveFrom.eq_def]
    rcases t.advance .target here parts with k | k | ⟨k, target, rest⟩ | reason
    all_goals simp [Progress.Resolves]
  | succ n ih =>
    intro here parts
    rw [resolves_iff, resolveFrom.eq_def]
    rcases t.advance .target here parts with k | k | ⟨k, target, rest⟩ | reason
    all_goals simp [Progress.Resolves, ih]

/-- Whether a path leads to a location: it is short enough to be handed over, and its names lead
there from the root or from the current directory. -/
structure ResolvesTo (t : FileTree) (path : Text) (l : Location) : Prop where
  nonempty : path ≠ []
  noNul : '\x00' ∉ path
  short : Text.byteSize path < maxPathSize
  resolves : t.Resolves l maxLinks (if Path.isAbsolute path then [] else t.current)
    (Path.parts path)

variable {path : Text}

/-- A path is followed to the location that it leads to. -/
theorem resolve_target_iff :
    t.resolve .target path = .ok (.present l) ↔ t.ResolvesTo path l := by
  constructor
  · intro h
    unfold resolve at h
    split at h
    · cases h
    · next hshort =>
      unfold locate at h
      split at h
      · cases h
      · next hnul =>
        split at h
        · cases h
        · next hempty =>
          have hclean : '\x00' ∉ path := by simpa using hnul
          exact ⟨by simpa using hempty, hclean, by simpa [hclean] using hshort,
            resolveFrom_target_iff.mp h⟩
  · intro h
    have hnul : path.contains '\x00' = false := by simpa using h.noNul
    have hempty : path.isEmpty = false := List.isEmpty_eq_false_iff.mpr h.nonempty
    rw [resolve, decide_eq_false (Nat.not_le.mpr h.short), locate, hnul, hempty]
    exact resolveFrom_target_iff.mpr h.resolves

/-! ### Reading -/

/-- Whether a path leads to an entry. -/
def LeadsTo (t : FileTree) (path : Text) (e : Entry) : Prop :=
  ∃ l, t.ResolvesTo path l ∧ t.entry? l = some e

/-- What there is at a path is the entry that it leads to. -/
theorem exists_stat_iff {e : Entry} : (∃ l, t.stat path = .ok (l, e)) ↔ t.LeadsTo path e := by
  unfold stat LeadsTo
  simp only [lookup_eq_ok_iff, resolve_target_iff]

/-- A document is read iff the path leads to a file with its bytes. -/
theorem readDocument_eq_ok_iff_leadsTo {document : Text} :
    t.readDocument path = .ok document ↔ t.LeadsTo path (.file (Text.encode document)) := by
  rw [readDocument_eq_ok_iff, ← exists_stat_iff]
  constructor
  · rintro ⟨l, content, hstat, hdecode⟩
    rw [Text.decode_eq_ok_iff.mp hdecode] at hstat
    exact ⟨l, hstat⟩
  · rintro ⟨l, hstat⟩
    exact ⟨l, _, hstat, Text.decode_encode document⟩

/-- A path is refused iff it leads to no file. -/
theorem readDocument_eq_notAFile_iff :
    t.readDocument path = .error (.notAFile path) ↔
      ¬ ∃ e, t.LeadsTo path e ∧ e.isFile = true := by
  simp only [← exists_stat_iff]
  unfold readDocument
  rcases hstat : t.stat path with reason | ⟨k, e⟩
  · simp
  · cases e with
    | file content => rcases hdecode : Text.decode content <;> simp [hdecode, Entry.isFile]
    | directory | link target | unreadable | special => simp [Entry.isFile]

/-- Bytes that are no text are at fault where the longest text that they begin with ends. -/
theorem exists_readDocument_eq_undecodable {bytes : List UInt8} (h : t.LeadsTo path (.file bytes))
    (hbytes : ∀ document, Text.encode document ≠ bytes) :
    ∃ reason beginning, t.readDocument path = .error (.undecodable path reason) ∧
      Text.IsLongestText beginning bytes ∧ reason.index = beginning.length := by
  obtain ⟨k, hstat⟩ := exists_stat_iff.mpr h
  rcases hdecode : Text.decode bytes with reason | document
  · obtain ⟨beginning, hlongest, hindex⟩ := Text.exists_isLongestText_of_decode hdecode
    refine ⟨reason, beginning, ?_, hlongest, hindex⟩
    simp only [readDocument, hstat, hdecode]
  · exact absurd (Text.decode_eq_ok_iff.mp hdecode).symm (hbytes document)

/-- **Reading is exact**: a document is read at a path iff the path leads to a regular file with the
bytes of this document, and is refused as no file iff it leads to no regular file. If a file has
bytes that are no text, they are at fault where the longest text that they begin with ends. -/
theorem readDocument_exact (t : FileTree) (path : Text) :
    (∀ document, t.readDocument path = .ok document ↔
      t.LeadsTo path (.file (Text.encode document))) ∧
    (t.readDocument path = .error (.notAFile path) ↔
      ¬ ∃ e, t.LeadsTo path e ∧ e.isFile = true) ∧
    ∀ bytes, t.LeadsTo path (.file bytes) → (∀ document, Text.encode document ≠ bytes) →
      ∃ reason beginning, t.readDocument path = .error (.undecodable path reason) ∧
        Text.IsLongestText beginning bytes ∧ reason.index = beginning.length :=
  ⟨fun _ => readDocument_eq_ok_iff_leadsTo, readDocument_eq_notAFile_iff,
    fun _ h hbytes => exists_readDocument_eq_undecodable h hbytes⟩

/-- A directory with a document in it, a link to the document, and a file whose second byte begins
no character. -/
def encodedTree : FileTree where
  entries :=
    [(["docs".toList], .directory),
      (["docs".toList, "device.gql".toList], .file (Text.encode "query \u00e9")),
      (["latest.gql".toList], .link "docs/./device.gql"),
      (["broken.gql".toList], .file [0x71, 0xff, 0xfe])]

/-- The document is read through the link, the directory is no file, and the broken file is a text
up to its second byte. -/
theorem readDocument_exact_encodedTree :
    encodedTree.readDocument "latest.gql" = .ok "query \u00e9" ∧
    encodedTree.readDocument "docs" = .error (.notAFile "docs") ∧
    encodedTree.readDocument "broken.gql" = .error (.undecodable "broken.gql" (.invalid 1 1)) ∧
    Text.IsLongestText [0x71] [0x71, 0xff, 0xfe] := by
  have hbroken : encodedTree.stat "broken.gql" =
      .ok (["broken.gql".toList], .file [0x71, 0xff, 0xfe]) := rfl
  have hdecode : Text.decode [0x71, 0xff, 0xfe] = .error (.invalid 1 1) := by
    rw [Text.decode, Text.decodeFrom_cons rfl, Text.decodeFrom_cons_error rfl]
    rfl
  have hread : encodedTree.readDocument "broken.gql" =
      .error (.undecodable "broken.gql" (.invalid 1 1)) := by
    simp only [readDocument, hbroken, hdecode]
  refine ⟨?_, ?_, hread, ?_⟩
  · refine ((readDocument_exact encodedTree "latest.gql").1 "query \u00e9").mpr ?_
    exact exists_stat_iff.mp ⟨["docs".toList, "device.gql".toList], rfl⟩
  · refine (readDocument_exact encodedTree "docs").2.1.mpr ?_
    rintro ⟨e, hleads, hfile⟩
    obtain ⟨l, hstat⟩ := exists_stat_iff.mpr hleads
    have hdirectory : encodedTree.stat "docs" = .ok (["docs".toList], .directory) := rfl
    rw [hdirectory] at hstat
    cases hstat
    cases hfile
  · have hbytes : ∀ document, Text.encode document ≠ [0x71, 0xff, 0xfe] := by
      intro document heq
      rw [Text.decode_eq_ok_iff.mpr heq.symm] at hdecode
      cases hdecode
    obtain ⟨reason, beginning, hother, hlongest, hindex⟩ :=
      (readDocument_exact encodedTree "broken.gql").2.2 _ (exists_stat_iff.mp ⟨_, hbroken⟩) hbytes
    rw [hread] at hother
    cases hother
    obtain ⟨b, rfl⟩ := List.length_eq_one_iff.mp hindex.symm
    obtain ⟨rest, hrest⟩ := hlongest.initial
    cases hrest
    exact hlongest

end FileTree

end DataSourceGen
