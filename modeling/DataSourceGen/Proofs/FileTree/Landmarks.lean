import Mathlib.Tactic.SplitIfs
import DataSourceGen.FileTree.Content
import DataSourceGen.FileTree.Update
import DataSourceGen.Proofs.Text.Encoding

/-!
# What a path depends on

Where a path leads depends on directories and links, but not on plain files: if there is one, the
path can end there, and if there is nothing, the path can end there as well, at a free place. So
trees that differ in plain files only (`SameLandmarks`) lead every path to the same location
(`SameLandmarks.location?_eq`), and writing a file leaves such a tree
(`SameLandmarks.of_writeFile`). What is read at a path, and what is written there, is a matter of
its location and of the entry there (`readDocument_eq`, `exists_location_of_writeFile`). -/

namespace DataSourceGen

namespace FileTree

variable {t t' : FileTree}

/-! ### Entries -/

/-- What is looked up among the entries at some locations is looked up among all if it is at one of
them. -/
theorem lookup_filter (keeps : Location → Bool) (m : Location) :
    (entries : List (Location × Entry)) →
      (entries.filter fun x => keeps x.1).lookup m = if keeps m then entries.lookup m else none
  | [] => by simp
  | (k, a) :: rest => by
      have ih := lookup_filter keeps m rest
      rw [List.filter_cons]
      by_cases hm : m = k
      · subst hm
        by_cases hkeeps : keeps m = true
        · rw [if_pos hkeeps, if_pos hkeeps, List.lookup_cons_self, List.lookup_cons_self]
        · rw [if_neg hkeeps, ih, if_neg hkeeps, if_neg hkeeps]
      · rw [List.lookup_cons, beq_eq_false_iff_ne.mpr hm, ← ih]
        split
        · rw [List.lookup_cons, beq_eq_false_iff_ne.mpr hm]
        · rfl

/-- An entry put into a tree is found at its location, and the others are as before. -/
theorem entry?_put {l : Location} (hl : l ≠ []) (e : Entry) (m : Location) :
    FileTree.entry? (t.put l e) m = if m = l then some e else t.entry? m := by
  unfold entry? put
  by_cases hroot : m.isEmpty
  · have hne : m ≠ l := fun h => hl (h ▸ List.isEmpty_iff.mp hroot)
    rw [if_pos hroot, if_neg hne, if_pos hroot]
  · rw [if_neg hroot, if_neg hroot, List.lookup_append, lookup_filter (· != l)]
    by_cases hm : m = l
    · rw [if_pos hm, hm, bne_self_eq_false, if_neg Bool.false_ne_true, Option.none_or,
        List.lookup_cons_self]
    · rw [if_neg hm, if_pos (bne_iff_ne.mpr hm), List.lookup_cons, beq_eq_false_iff_ne.mpr hm,
        List.lookup_nil, Option.or_none]

/-- The root is a directory. -/
theorem entry?_nil : t.entry? [] = some .directory :=
  rfl

theorem isDirectoryAt_iff {l : Location} :
    t.isDirectoryAt l = true ↔ t.entry? l = some .directory :=
  beq_iff_eq

/-- The entry at a location, unless it is a plain file. -/
def landmark? (t : FileTree) (l : Location) : Option Entry :=
  match t.entry? l with
  | none | some (.file _) => none
  | some e => some e

/-- Whether two trees differ in plain files at most. -/
structure SameLandmarks (t t' : FileTree) : Prop where
  current : t'.current = t.current
  landmark : ∀ l, t'.landmark? l = t.landmark? l

theorem SameLandmarks.refl (t : FileTree) : SameLandmarks t t :=
  ⟨rfl, fun _ => rfl⟩

theorem SameLandmarks.trans {u : FileTree} (h : SameLandmarks t t') (h' : SameLandmarks t' u) :
    SameLandmarks t u :=
  ⟨h'.current.trans h.current, fun l => (h'.landmark l).trans (h.landmark l)⟩

/-- A landmark is an entry. -/
theorem entry?_of_landmark? {l : Location} {e : Entry} (h : t.landmark? l = some e) :
    t.entry? l = some e := by
  unfold landmark? at h
  split at h
  · cases h
  · cases h
  · next heq => rw [heq, h]

/-- A directory is a landmark. -/
theorem isDirectoryAt_eq (t : FileTree) (l : Location) :
    t.isDirectoryAt l = (t.landmark? l == some .directory) := by
  unfold isDirectoryAt landmark?
  rcases t.entry? l with _ | e
  · rfl
  · cases e <;> rfl

/-! ### Following a path -/

/-- Where names lead, whether or not there is an entry. -/
def Progress.outline : Progress → Option (Location × Option (Text × List Text))
  | .arrived l | .absent l => some (l, none)
  | .link l target rest => some (l, some (target, rest))
  | .failed _ => none

/-- Follows names from a location that is entered. -/
def enter (t : FileTree) (purpose : Purpose) (l : Location) (rest : List Text) : Progress :=
  match t.entry? l with
  | none => if purpose.endsAt rest then .absent l else .failed .notFound
  | some (.link target) =>
    if purpose.endsAt rest && !purpose.followsLast then .arrived l else .link l target rest
  | some _ => if purpose.endsAt rest then .arrived l else t.advance purpose l rest

theorem advance_cons (t : FileTree) (purpose : Purpose) (here : Location) (name : Text)
    (rest : List Text) :
    t.advance purpose here (name :: rest) =
      if !t.isDirectoryAt here then .failed .notADirectory
      else if name.isEmpty || name = ['.'] then t.advance purpose here rest
      else if name = ['.', '.'] then t.advance purpose here.dropLast rest
      else if purpose.isMisplaced rest then .failed .isADirectory
      else if maxNameSize < Text.byteSize name then .failed .nameTooLong
      else t.enter purpose (here ++ [name]) rest := by
  rw [advance]
  rfl

/-- Names lead nowhere from what is not a directory. -/
theorem advance_eq_failed {purpose : Purpose} {here : Location} {parts : List Text}
    (hhere : t.isDirectoryAt here = false) (hparts : parts ≠ []) :
    t.advance purpose here parts = .failed .notADirectory := by
  rcases parts with _ | ⟨name, rest⟩
  · exact absurd rfl hparts
  · rw [advance_cons, hhere]
    rfl

/-- Where there is no landmark, names can end but not go on. -/
theorem outline_enter_of_none {purpose : Purpose} {l : Location} {rest : List Text}
    (h : t.landmark? l = none) :
    (t.enter purpose l rest).outline = if purpose.endsAt rest then some (l, none) else none := by
  have hdirectory : t.isDirectoryAt l = false := by
    rw [isDirectoryAt_eq, h]
    rfl
  -- There is nothing, or there is a plain file: both end a path at `l`, and neither is a directory.
  unfold landmark? at h
  unfold enter
  split at h
  · next heq =>
    rw [heq]
    dsimp only
    split <;> rfl
  · next content heq =>
    rw [heq]
    dsimp only
    split
    · rfl
    · next hend =>
      have hrest : rest ≠ [] := by
        rintro rfl
        exact hend rfl
      rw [advance_eq_failed hdirectory hrest]
      rfl
  · cases h

namespace SameLandmarks

/-- **Following names**: they lead to one location in trees with the same landmarks. -/
theorem advance_eq (h : SameLandmarks t t') (purpose : Purpose) :
    (parts : List Text) → ∀ here,
      (t'.advance purpose here parts).outline = (t.advance purpose here parts).outline
  | [], _ => rfl
  | name :: rest, here => by
      have ih := h.advance_eq purpose rest
      -- An entry is looked up only where a name is entered.
      have henter (l : Location) :
          (t'.enter purpose l rest).outline = (t.enter purpose l rest).outline := by
        rcases hl : t.landmark? l with _ | e
        · rw [outline_enter_of_none hl, outline_enter_of_none ((h.landmark l).trans hl)]
        · have he := entry?_of_landmark? hl
          have he' := entry?_of_landmark? ((h.landmark l).trans hl)
          unfold enter
          rw [he, he']
          split
          · rfl
          · rfl
          · split
            · rfl
            · exact ih l
      rw [advance_cons, advance_cons, isDirectoryAt_eq, isDirectoryAt_eq, h.landmark]
      split_ifs with hhere hdot hup hplaced hlong
      · rfl
      · exact ih here
      · exact ih here.dropLast
      · rfl
      · rfl
      · exact henter _

end SameLandmarks

/-! ### Where a path leads -/

/-- The location of a place. -/
def Place.location : Place → Location
  | .present l | .free l => l

/-- The location that a path leads to, whether or not there is an entry. -/
def location? (t : FileTree) (purpose : Purpose) (path : Text) : Option Location :=
  (t.resolve purpose path).toOption.map Place.location

/-- A path leads where its names lead, through the links on the way. -/
theorem resolveFrom_eq (t : FileTree) (purpose : Purpose) (links : Nat) (here : Location)
    (parts : List Text) :
    (t.resolveFrom purpose links here parts).toOption.map Place.location =
      match (t.advance purpose here parts).outline, links with
      | none, _ => none
      | some (l, none), _ => some l
      | some (_, some _), 0 => none
      | some (l, some (target, rest)), n + 1 =>
        (t.resolveFrom purpose n (if Path.isAbsolute target then [] else l.dropLast)
          (Path.parts target ++ rest)).toOption.map Place.location := by
  rw [resolveFrom.eq_def]
  rcases t.advance purpose here parts with l | l | ⟨l, target, rest⟩ | reason
  · rfl
  · rfl
  · cases links <;> rfl
  · rfl

/-- A place is free only if there is nothing. -/
theorem entry?_of_advance (t : FileTree) (purpose : Purpose) :
    (parts : List Text) → ∀ here l, t.advance purpose here parts = .absent l → t.entry? l = none
  | [], _, _, h => nomatch h
  | name :: rest, here, l, h => by
      have ih := t.entry?_of_advance purpose rest
      have henter (m : Location) (h : t.enter purpose m rest = .absent l) : t.entry? l = none := by
        unfold enter at h
        split at h
        · next hnone =>
          split_ifs at h
          exact Progress.absent.inj h ▸ hnone
        · split_ifs at h
        · split_ifs at h
          exact ih m l h
      rw [advance_cons] at h
      split_ifs at h with hhere hdot hup hplaced hlong
      · exact ih here l h
      · exact ih here.dropLast l h
      · exact henter _ h

theorem entry?_of_resolveFrom (t : FileTree) (purpose : Purpose) (l : Location) :
    (links : Nat) → ∀ here parts, t.resolveFrom purpose links here parts = .ok (.free l) →
      t.entry? l = none := by
  intro links
  induction links with
  | zero | succ n ih =>
    intro here parts h
    rw [resolveFrom.eq_def] at h
    split at h
    · cases h
    · next habsent =>
      cases h
      exact t.entry?_of_advance purpose parts here l habsent
    · cases h
    · first | cases h | exact ih _ _ h

/-- There is nothing at a free place. -/
theorem entry?_of_free {purpose : Purpose} {path : Text} {l : Location}
    (h : t.resolve purpose path = .ok (.free l)) : t.entry? l = none := by
  unfold resolve at h
  split at h
  · cases h
  · unfold locate at h
    split at h
    · cases h
    · split at h
      · cases h
      · exact t.entry?_of_resolveFrom purpose l _ _ _ h

/-- What is found at a path is the entry at its location. -/
theorem lookup_eq_ok_iff {purpose : Purpose} {path : Text} {l : Location} {e : Entry} :
    t.lookup purpose path = .ok (l, e) ↔
      t.resolve purpose path = .ok (.present l) ∧ t.entry? l = some e := by
  unfold lookup
  rcases t.resolve purpose path with reason | k | k
  · simp
  · dsimp only
    rcases he : t.entry? k with _ | e'
    · simp only [reduceCtorEq, Except.ok.injEq, Place.present.injEq, false_iff, not_and]
      rintro rfl
      simp [he]
    · simp only [Except.ok.injEq, Prod.mk.injEq, Place.present.injEq]
      constructor
      · rintro ⟨rfl, rfl⟩
        exact ⟨rfl, he⟩
      · rintro ⟨rfl, hentry⟩
        exact ⟨rfl, Option.some.inj (he.symm.trans hentry)⟩
  · simp

theorem locate_of_lookup {purpose : Purpose} {path : Text} {l : Location} {e : Entry}
    (h : t.lookup purpose path = .ok (l, e)) :
    t.locate purpose path = .ok (.present l) ∧ t.entry? l = some e := by
  obtain ⟨hplace, he⟩ := lookup_eq_ok_iff.mp h
  unfold resolve at hplace
  split at hplace
  · cases hplace
  · exact ⟨hplace, he⟩

/-- **Trees with the same landmarks** lead a path to one location. -/
theorem SameLandmarks.location?_eq (h : SameLandmarks t t') (purpose : Purpose) (path : Text) :
    t'.location? purpose path = t.location? purpose path := by
  have hfrom : (links : Nat) → ∀ here parts,
      (t'.resolveFrom purpose links here parts).toOption.map Place.location =
        (t.resolveFrom purpose links here parts).toOption.map Place.location := by
    intro links
    induction links with
    | zero =>
      intro here parts
      rw [resolveFrom_eq, resolveFrom_eq, h.advance_eq]
      rcases (t.advance purpose here parts).outline with _ | ⟨l, _ | _⟩ <;> rfl
    | succ n ih =>
      intro here parts
      rw [resolveFrom_eq, resolveFrom_eq, h.advance_eq]
      rcases (t.advance purpose here parts).outline with _ | ⟨l, _ | ⟨target, rest⟩⟩
      · rfl
      · rfl
      · exact ih _ _
  unfold location? resolve locate
  rw [h.current]
  split
  · rfl
  · split
    · rfl
    · split
      · rfl
      · exact hfrom _ _ _

/-! ### Reading and writing -/

/-- The document in what there is at a path. -/
def documentIn (path : Text) : Option Entry → Except ReadError Text
  | some (.file content) =>
    match Text.decode content with
    | .ok document => .ok document
    | .error reason => .error (.undecodable path reason)
  | some .unreadable => .error (.unreadable path .inputOutput)
  | none | some .directory | some (.link _) | some .special => .error (.notAFile path)

/-- **Reading** depends on the location of a path and the entry there. -/
theorem readDocument_eq (t : FileTree) (path : Text) :
    t.readDocument path = documentIn path ((t.location? .target path).bind t.entry?) := by
  unfold readDocument stat lookup location?
  rcases hplace : t.resolve .target path with reason | l | l
  · rfl
  · change _ = documentIn path (t.entry? l)
    rcases hentry : t.entry? l with _ | e
    · simp only [hentry]
      rfl
    · simp only [hentry]
      cases e <;> rfl
  · change _ = documentIn path (t.entry? l)
    rw [entry?_of_free hplace]
    rfl

/-- A path has a document iff it leads to a file whose bytes encode this text. -/
theorem readDocument_eq_ok_iff {path document : Text} :
    t.readDocument path = .ok document ↔
      ∃ l content, t.stat path = .ok (l, .file content) ∧ Text.decode content = .ok document := by
  unfold readDocument
  constructor
  · intro h
    split at h
    · next l content hstat =>
      rcases hdecode : Text.decode content with reason | text
      · rw [hdecode] at h
        cases h
      · rw [hdecode] at h
        obtain rfl := Except.ok.inj h
        exact ⟨l, content, hstat, hdecode⟩
    all_goals cases h
  · rintro ⟨l, content, hstat, hdecode⟩
    rw [hstat]
    dsimp only
    rw [hdecode]

/-- A file with the bytes of a text has that text as its document. -/
theorem readDocument_of_encoded {path document : Text} {l : Location}
    (h : t.stat path = .ok (l, .file (Text.encode document))) :
    t.readDocument path = .ok document :=
  readDocument_eq_ok_iff.mpr ⟨l, _, h, Text.decode_encode document⟩

/-- What there is after a file is written where an entry may be: a device takes the bytes and
stays. -/
def overwritten (content : List UInt8) : Option Entry → Option Entry
  | none | some (.file _) => some (.file content)
  | some e => some e

/-- **Writing** changes the entry at the location of the path, which is no directory, and no other.
-/
theorem exists_location_of_writeFile {path : Text} {content : List UInt8}
    (h : t.writeFile path content = .ok t') :
    ∃ l, t.location? .file path = some l ∧ t.entry? l ≠ some .directory ∧ t'.current = t.current ∧
      ∀ m, t'.entry? m = if m = l then overwritten content (t.entry? l) else t.entry? m := by
  -- Where there is nothing or a plain file, the file is put; anything else but a directory stays.
  have hput {l : Location} {e : Option Entry} (hentry : t.entry? l = e)
      (hplain : overwritten content e = some (.file content)) :
      t.entry? l ≠ some .directory ∧ ∀ m, FileTree.entry? (t.put l (.file content)) m =
        if m = l then overwritten content (t.entry? l) else t.entry? m := by
    have hl : t.entry? l ≠ some .directory := by
      intro hdirectory
      rw [← hentry, hdirectory] at hplain
      cases hplain
    have hne : l ≠ [] := fun hnil => hl (hnil ▸ entry?_nil)
    refine ⟨hl, fun m => ?_⟩
    rw [entry?_put hne, hentry, hplain]
  have hkept {l : Location} {e : Entry} (hentry : t.entry? l = some e) (hne : e ≠ .directory)
      (hstays : overwritten content (some e) = some e) :
      t.entry? l ≠ some .directory ∧
        ∀ m, t.entry? m = if m = l then overwritten content (t.entry? l) else t.entry? m := by
    refine ⟨fun hdirectory => hne (Option.some.inj (hentry.symm.trans hdirectory)), fun m => ?_⟩
    rw [hentry, hstays]
    split
    · next hm => rw [hm, hentry]
    · rfl
  unfold writeFile at h
  unfold location?
  rcases hplace : t.resolve .file path with reason | l | l
  · rw [hplace] at h
    cases h
  · simp only [hplace] at h
    refine ⟨l, rfl, ?_⟩
    split at h
    · cases h
    · next hentry =>
      obtain rfl := Except.ok.inj h
      obtain ⟨hl, hafter⟩ := hput hentry rfl
      exact ⟨hl, rfl, hafter⟩
    · next hentry =>
      obtain rfl := Except.ok.inj h
      obtain ⟨hl, hafter⟩ := hput hentry rfl
      exact ⟨hl, rfl, hafter⟩
    all_goals
      next hentry =>
      obtain rfl := Except.ok.inj h
      obtain ⟨hl, hafter⟩ := hkept hentry (by simp) rfl
      exact ⟨hl, rfl, hafter⟩
  · simp only [hplace] at h
    obtain rfl := Except.ok.inj h
    obtain ⟨hl, hafter⟩ := hput (entry?_of_free hplace) rfl
    exact ⟨l, rfl, hl, rfl, hafter⟩

/-- Writing a file leaves the landmarks. -/
theorem SameLandmarks.of_writeFile {path : Text} {content : List UInt8}
    (h : t.writeFile path content = .ok t') : SameLandmarks t t' := by
  obtain ⟨l, -, -, hcurrent, hentry⟩ := exists_location_of_writeFile h
  refine ⟨hcurrent, fun m => ?_⟩
  unfold landmark?
  rw [hentry]
  by_cases hm : m = l
  · subst hm
    rw [if_pos rfl]
    rcases t.entry? m with _ | e
    · rfl
    · cases e <;> rfl
  · rw [if_neg hm]

end FileTree

end DataSourceGen
