import DataSourceGen.Proofs.FileTree.Landmarks
import DataSourceGen.Proofs.FileTree.Paths

/-!
# Paths below a directory

A path with one more name leads first where it led without the name, and from there on
(`advance_concat`, `exists_resolveFrom_concat`). So a name below the path of a directory is looked
up in the directory, through however many links the path has led (`exists_locate_join`), and a write
under such a path changes the entry of this name in the directory and no other
(`entry?_of_writeFile_join`). -/

namespace DataSourceGen

namespace FileTree

variable {t : FileTree} {purpose : Purpose} {name : Text}

/-! ### One more name -/

/-- Where one more name leads after some progress. -/
def Progress.goOn (t : FileTree) (purpose : Purpose) (name : Text) : Progress → Progress
  | .arrived l => t.advance purpose l [name]
  | .absent _ => .failed .notFound
  | .link l target rest => .link l target (rest ++ [name])
  | .failed reason => .failed reason

/-- Whether one more name is looked up below the others: an empty one, which stands for a slash at
the end, is looked up only to see what there is. -/
def Purpose.Continues (purpose : Purpose) (name : Text) : Prop :=
  purpose = .target ∨ name ≠ []

theorem concat_ne (h : name ≠ []) (rest : List Text) : rest ++ [name] ≠ [[]] :=
  fun heq => h (by simpa using congrArg List.getLast? heq)

/-- A name is not the last one if another one follows. -/
theorem Purpose.Continues.endsAt_concat (h : purpose.Continues name) (rest : List Text) :
    purpose.endsAt (rest ++ [name]) = false := by
  rcases h with rfl | hname
  · simp [endsAt]
  · rw [endsAt, beq_eq_false_iff_ne.mpr (concat_ne hname rest)]
    simp

theorem Purpose.Continues.isMisplaced_concat (h : purpose.Continues name) (rest : List Text) :
    purpose.isMisplaced (rest ++ [name]) = false := by
  rcases h with rfl | hname
  · rfl
  · rw [isMisplaced, beq_eq_false_iff_ne.mpr (concat_ne hname rest), Bool.and_false]

/-- What there is at a location lets names go on from it, unless it is a link. -/
theorem enter_target_eq {l : Location} {e : Entry} (he : t.entry? l = some e)
    (hlink : ∀ target, e ≠ .link target) (rest : List Text) :
    t.enter .target l rest = t.advance .target l rest := by
  have hends : (if Purpose.target.endsAt rest then Progress.arrived l
      else t.advance .target l rest) = t.advance .target l rest := by
    rcases rest with _ | ⟨name, rest⟩
    · rfl
    · rfl
  unfold enter
  rw [he]
  cases e with
  | link target => exact absurd rfl (hlink target)
  | directory | file content | unreadable | special => exact hends

/-- **One more name** is followed from where the names before it lead. -/
theorem advance_concat (h : purpose.Continues name) :
    (parts : List Text) → ∀ here, t.advance purpose here (parts ++ [name]) =
      (t.advance .target here parts).goOn t purpose name
  | [], here => rfl
  | first :: rest, here => by
      have ih := advance_concat h rest
      have hends := h.endsAt_concat rest
      have hmisplaced : Purpose.target.isMisplaced rest = false := rfl
      have henter (l : Location) :
          t.enter purpose l (rest ++ [name]) = (t.enter .target l rest).goOn t purpose name := by
        rcases he : t.entry? l with _ | e
        · unfold enter
          rw [he, hends]
          simp only [Bool.false_eq_true, if_false]
          split
          · rfl
          · rfl
        · by_cases hlink : ∃ target, e = .link target
          · obtain ⟨target, rfl⟩ := hlink
            unfold enter
            rw [he, hends]
            simp [Purpose.followsLast, Progress.goOn]
          · have hplain : ∀ target, e ≠ .link target := fun target heq => hlink ⟨target, heq⟩
            rw [enter_target_eq he hplain, ← ih l]
            unfold enter
            rw [he, hends]
            cases e with
            | link target => exact absurd rfl (hplain target)
            | directory | file content | unreadable | special => rfl
      rw [List.cons_append, advance_cons, advance_cons, h.isMisplaced_concat, hmisplaced]
      simp only [Bool.false_eq_true, if_false]
      split_ifs
      · rfl
      · exact ih here
      · exact ih here.dropLast
      · rfl
      · exact henter _

/-! ### Paths that lead to an entry -/

/-- Whether names lead from a location to the entry at `l`, through at most `links` links. -/
inductive Leads (t : FileTree) (l : Location) : Nat → Location → List Text → Prop where
  | arrived {links : Nat} {here : Location} {parts : List Text}
      (arrives : t.advance .target here parts = .arrived l) : Leads t l links here parts
  | link {links : Nat} {here k : Location} {parts rest : List Text} {target : Text}
      (meets : t.advance .target here parts = .link k target rest)
      (goesOn : Leads t l links (if Path.isAbsolute target then [] else k.dropLast)
        (Path.parts target ++ rest)) : Leads t l (links + 1) here parts

theorem Leads.of_resolveFrom {l : Location} :
    (links : Nat) → ∀ {here parts},
      t.resolveFrom .target links here parts = .ok (.present l) → Leads t l links here parts := by
  intro links
  induction links with
  | zero | succ links ih =>
    intro here parts h
    rw [resolveFrom.eq_def] at h
    rcases hprogress : t.advance .target here parts with k | k | ⟨k, target, rest⟩ | reason
    · rw [hprogress] at h
      cases h
      exact .arrived hprogress
    · rw [hprogress] at h
      cases h
    · rw [hprogress] at h
      first | cases h | exact .link hprogress (ih h)
    · rw [hprogress] at h
      cases h

theorem Leads.resolveFrom_eq {l here : Location} {links : Nat} {parts : List Text}
    (h : Leads t l links here parts) :
    t.resolveFrom .target links here parts = .ok (.present l) := by
  induction h with
  | arrived arrives => rw [resolveFrom.eq_def, arrives]
  | link meets goesOn ih =>
    rw [resolveFrom.eq_def, meets]
    exact ih

theorem advance_empty (t : FileTree) (here : Location) :
    t.advance .target here [[]] =
      if t.isDirectoryAt here then .arrived here else .failed .notADirectory := by
  rw [advance_cons]
  rcases t.isDirectoryAt here with _ | _
  · rfl
  · rfl

/-- A slash at the end leads no further. -/
theorem Leads.of_concat_nil {l here : Location} {links : Nat} {parts : List Text}
    (h : Leads t l links here (parts ++ [[]])) : Leads t l links here parts := by
  generalize hall : parts ++ [[]] = all at h
  induction h generalizing parts with
  | arrived arrives =>
    rw [← hall, advance_concat (.inl rfl)] at arrives
    rcases hprogress : t.advance .target _ parts with k | k | ⟨k, target, rest⟩ | reason
    · rw [hprogress, Progress.goOn, advance_empty] at arrives
      split_ifs at arrives
      cases arrives
      exact .arrived hprogress
    all_goals
      rw [hprogress] at arrives
      cases arrives
  | link meets goesOn ih =>
    rw [← hall, advance_concat (.inl rfl)] at meets
    rcases hprogress : t.advance .target _ parts with k | k | ⟨k, target, rest⟩ | reason
    · rw [hprogress, Progress.goOn, advance_empty] at meets
      split_ifs at meets
    · rw [hprogress] at meets
      cases meets
    · rw [hprogress] at meets
      cases meets
      exact .link hprogress (ih (List.append_assoc _ _ _))
    · rw [hprogress] at meets
      cases meets

/-- **One more name** is looked up from the location that the names before it lead to. -/
theorem Leads.exists_resolveFrom_concat {l here : Location} {links : Nat} {parts : List Text}
    (h : Leads t l links here parts) (hname : purpose.Continues name) :
    ∃ left, t.resolveFrom purpose links here (parts ++ [name]) =
      t.resolveFrom purpose left l [name] := by
  induction h with
  | @arrived links here parts arrives =>
    refine ⟨links, ?_⟩
    rw [resolveFrom.eq_def, resolveFrom.eq_def t purpose links l, advance_concat hname, arrives]
    rfl
  | link meets goesOn ih =>
    obtain ⟨left, hleft⟩ := ih
    refine ⟨left, ?_⟩
    rw [← hleft, resolveFrom.eq_def, advance_concat hname, meets, List.append_assoc]
    rfl

/-! ### A name below a path -/

/-- Whether a text is a name that an entry may have. -/
structure IsEntryName (name : Text) : Prop extends Path.IsPart name where
  notSelf : name ≠ ['.']
  notUp : name ≠ ['.', '.']
  noNul : '\x00' ∉ name

/-- What is checked of a name of an entry. -/
def isEntryName (name : Text) : Bool :=
  !name.isEmpty && !name.contains '/' && name != ['.'] && name != ['.', '.'] &&
    !name.contains '\x00'

theorem isEntryName_iff : isEntryName name = true ↔ IsEntryName name := by
  simp only [isEntryName, Bool.and_eq_true, Bool.not_eq_true', List.isEmpty_eq_false_iff,
    bne_iff_ne]
  constructor
  · rintro ⟨⟨⟨⟨hne, hslash⟩, hself⟩, hup⟩, hnul⟩
    exact ⟨⟨hne, by simpa using hslash⟩, hself, hup, by simpa using hnul⟩
  · rintro ⟨⟨hne, hslash⟩, hself, hup, hnul⟩
    exact ⟨⟨⟨⟨hne, by simpa using hslash⟩, hself⟩, hup⟩, by simpa using hnul⟩

theorem advance_singleton (h : IsEntryName name) {l : Location} (hl : t.isDirectoryAt l = true) :
    t.advance purpose l [name] =
      if maxNameSize < Text.byteSize name then .failed .nameTooLong
      else t.enter purpose (l ++ [name]) [] := by
  have hdot : (name.isEmpty || decide (name = ['.'])) = false := by simp [h.nonempty, h.notSelf]
  have hmisplaced : purpose.isMisplaced [] = false := by simp [Purpose.isMisplaced]
  rw [advance_cons, hl, hdot, hmisplaced, if_neg h.notUp]
  rfl

/-- A path that leads to an entry leads there by its names. -/
theorem leads_of_locate {path : Text} {l : Location}
    (h : t.locate .target path = .ok (.present l)) :
    '\x00' ∉ path ∧
      Leads t l maxLinks (if Path.isAbsolute path then [] else t.current) (Path.names path) := by
  unfold locate at h
  split at h
  · cases h
  · next hnul =>
    split at h
    · cases h
    · refine ⟨by simpa using hnul, ?_⟩
      have hleads := Leads.of_resolveFrom _ h
      rcases Path.parts_cases path with hparts | hparts
      · rwa [hparts] at hleads
      · rw [hparts] at hleads
        exact hleads.of_concat_nil

/-- **A name below a path** is looked up from the location that the path leads to. -/
theorem exists_locate_join (hname : IsEntryName name) {path : Text} {l : Location}
    (h : t.locate .target path = .ok (.present l)) :
    ∃ left, t.locate purpose (Path.join path name) = t.resolveFrom purpose left l [name] := by
  obtain ⟨hnul, hleads⟩ := leads_of_locate h
  obtain ⟨left, hleft⟩ := hleads.exists_resolveFrom_concat (.inr hname.nonempty : purpose.Continues name)
  refine ⟨left, ?_⟩
  have hparts : Path.parts (Path.join path name) = Path.names path ++ [name] :=
    Path.parts_join hname.toIsPart
  have hempty : (Path.join path name).isEmpty = false := by
    rw [List.isEmpty_eq_false_iff]
    intro hnil
    rw [hnil] at hparts
    exact List.concat_ne_nil _ _ hparts.symm
  have hclean : (Path.join path name).contains '\x00' = false := by
    simpa using Path.not_mem_join (by decide) hnul hname.noNul
  rw [locate, hclean, hempty, hparts, Path.isAbsolute_join hname.toIsPart, ← hleft]
  rfl

/-- A name in a directory leads to what has the name there, or to the free place, unless that is a
link. -/
theorem resolveFrom_singleton (hname : IsEntryName name) {l : Location}
    (hl : t.isDirectoryAt l = true) (hplain : ∀ target, t.entry? (l ++ [name]) ≠ some (.link target))
    (links : Nat) :
    t.resolveFrom purpose links l [name] =
      if maxNameSize < Text.byteSize name then .error .nameTooLong
      else if (t.entry? (l ++ [name])).isSome then .ok (.present (l ++ [name]))
      else .ok (.free (l ++ [name])) := by
  have hends : purpose.endsAt [] = true := rfl
  rw [resolveFrom.eq_def, advance_singleton hname hl]
  by_cases hlong : maxNameSize < Text.byteSize name
  · rw [if_pos hlong, if_pos hlong]
  · rw [if_neg hlong, if_neg hlong, enter, hends]
    rcases he : t.entry? (l ++ [name]) with _ | e
    · rfl
    · cases e with
      | link target => exact absurd he (hplain target)
      | directory | file content | unreadable | special => rfl

/-! ### What is there after a write -/

/-- **A write below a directory** changes the entry of its name in the directory and no other, if
this is not a link. -/
theorem entry?_of_writeFile_join {t' : FileTree} (hname : IsEntryName name) {path : Text}
    {l : Location} (hpath : t.stat path = .ok (l, .directory))
    (hplain : ∀ target, t.entry? (l ++ [name]) ≠ some (.link target)) {content : List UInt8}
    (hwrite : t.writeFile (Path.join path name) content = .ok t') (m : Location) :
    t'.entry? m =
      if m = l ++ [name] then overwritten content (t.entry? (l ++ [name])) else t.entry? m := by
  obtain ⟨k, hk, -, -, hafter⟩ := exists_location_of_writeFile hwrite
  obtain ⟨hlocate, he⟩ := locate_of_lookup hpath
  obtain ⟨left, hleft⟩ := @exists_locate_join _ .file _ hname _ _ hlocate
  rw [resolveFrom_singleton hname (isDirectoryAt_iff.mpr he) hplain] at hleft
  have hplace : k = l ++ [name] := by
    unfold location? resolve at hk
    rw [hleft] at hk
    split_ifs at hk
    · cases hk
    · cases hk
    · exact (Option.some.inj hk).symm
    · exact (Option.some.inj hk).symm
  rw [hafter, hplace]

end FileTree

end DataSourceGen
