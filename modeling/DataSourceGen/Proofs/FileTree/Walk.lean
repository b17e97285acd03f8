import DataSourceGen.Proofs.FileTree.Canonical
import DataSourceGen.FileTree.Walk

/-!
# What a walk finds

A walk extends a path by one name at a time, or follows a link; so in a well-formed tree each path
at which it meets an entry leads to this entry (`exists_locate_of_mem_walk`). A path that leads to a
file has a walk that meets only this (`walk_of_isFile`). -/

namespace DataSourceGen

namespace FileTree

variable {t t' : FileTree}

/-! ### The start of a walk -/

/-- Names lead to one place whether or not a last link is followed, unless they end at a link. -/
theorem advance_itself (t : FileTree) :
    (parts : List Text) → ∀ here, t.advance .target here parts = t.advance .itself here parts ∨
      ∃ l target, t.advance .itself here parts = .arrived l ∧ t.entry? l = some (.link target)
  | [], _ => .inl rfl
  | name :: rest, here => by
      have ih := t.advance_itself rest
      have hends : Purpose.target.endsAt rest = Purpose.itself.endsAt rest := rfl
      have henter (l : Location) : t.enter .target l rest = t.enter .itself l rest ∨
          ∃ k target, t.enter .itself l rest = .arrived k ∧ t.entry? k = some (.link target) := by
        rcases he : t.entry? l with _ | e
        · unfold enter
          rw [he, hends]
          exact .inl rfl
        · cases e with
          | link target =>
            unfold enter
            rw [he, hends]
            rcases Purpose.itself.endsAt rest with _ | _
            · exact .inl rfl
            · exact .inr ⟨l, target, rfl, he⟩
          | directory | file content | unreadable | special =>
            unfold enter
            rw [he, hends]
            dsimp only
            split
            · exact .inl rfl
            · exact ih l
      have hplaced : Purpose.target.isMisplaced rest = Purpose.itself.isMisplaced rest := rfl
      rw [advance_cons, advance_cons, hplaced]
      split_ifs
      · exact .inl rfl
      · exact ih here
      · exact ih here.dropLast
      · exact .inl rfl
      · exact .inl rfl
      · exact henter _

theorem resolveFrom_of_itself {l : Location} (hplain : ∀ target, t.entry? l ≠ some (.link target)) :
    (links : Nat) → ∀ {here parts}, t.resolveFrom .itself links here parts = .ok (.present l) →
      t.resolveFrom .target links here parts = .ok (.present l) := by
  intro links
  induction links with
  | zero | succ links ih =>
    intro here parts h
    rw [resolveFrom.eq_def] at h ⊢
    rcases t.advance_itself parts here with hsame | ⟨k, target, harrives, hlink⟩
    · rw [hsame]
      rcases hprogress : t.advance .itself here parts with k | k | ⟨k, target, rest⟩ | reason
      · rwa [hprogress] at h
      · rwa [hprogress] at h
      · rw [hprogress] at h
        first | cases h | exact ih h
      · rwa [hprogress] at h
    · rw [harrives] at h
      cases h
      exact absurd hlink (hplain target)

/-- The path of a walk leads to the location where the walk begins, unless this is a link. -/
theorem locate_of_lstat {path : Text} {l : Location} {e : Entry} (h : t.lstat path = .ok (l, e)) :
    t.entry? l = some e ∧
      ((∀ target, e ≠ .link target) → t.locate .target path = .ok (.present l)) := by
  obtain ⟨hplace, he⟩ := locate_of_lookup h
  refine ⟨he, fun hplain => ?_⟩
  have hnolink : ∀ target, t.entry? l ≠ some (.link target) := by
    intro target heq
    exact hplain target (Option.some.inj (he.symm.trans heq))
  unfold locate at hplace ⊢
  split at hplace
  · cases hplace
  · next hnul =>
    rw [if_neg hnul]
    split at hplace
    · cases hplace
    · next hempty =>
      rw [if_neg hempty]
      exact resolveFrom_of_itself hnolink _ hplace

/-- What is found after all links is found, or a link to it, without following the last one. -/
theorem exists_itself_of_target {l : Location} {e : Entry} (he : t.entry? l = some e) :
    (links : Nat) → ∀ {here parts}, t.resolveFrom .target links here parts = .ok (.present l) →
      ∃ k e', t.resolveFrom .itself links here parts = .ok (.present k) ∧ t.entry? k = some e' := by
  intro links
  induction links with
  | zero | succ links ih =>
    intro here parts h
    rw [resolveFrom.eq_def] at h
    rw [resolveFrom.eq_def t .itself]
    rcases t.advance_itself parts here with hsame | ⟨k, target, harrives, hlink⟩
    · rw [hsame] at h
      rcases hprogress : t.advance .itself here parts with k | k | ⟨k, target, rest⟩ | reason
      · rw [hprogress] at h
        cases h
        exact ⟨l, e, rfl, he⟩
      · rw [hprogress] at h
        cases h
      · rw [hprogress] at h
        first | cases h | exact ih h
      · rw [hprogress] at h
        cases h
    · rw [harrives]
      exact ⟨k, _, rfl, hlink⟩

theorem exists_lstat_of_stat {path : Text} {found : Location × Entry}
    (h : t.stat path = .ok found) : ∃ l e, t.lstat path = .ok (l, e) := by
  obtain ⟨k, e⟩ := found
  obtain ⟨hplace, he⟩ := lookup_eq_ok_iff.mp h
  unfold lstat
  simp only [lookup_eq_ok_iff]
  unfold resolve locate at hplace ⊢
  split_ifs at hplace ⊢ with hlong hnul hempty habsolute
  · exact exists_itself_of_target he _ hplace
  · exact exists_itself_of_target he _ hplace

/-! ### Below the start -/

/-- An entry that is followed stands where its path leads. -/
theorem locate_of_follow {path : Text} {l k : Location} {e e' : Entry} {linked : Bool}
    (he : t.entry? l = some e)
    (hpath : (∀ target, e ≠ .link target) → t.locate .target path = .ok (.present l))
    (h : t.follow path l e = .ok (linked, k, e')) :
    t.locate .target path = .ok (.present k) ∧ t.entry? k = some e' := by
  cases e with
  | link target =>
    unfold follow at h
    rcases hstat : t.stat path with reason | found
    · rw [hstat] at h
      cases h
    · rw [hstat] at h
      cases h
      exact locate_of_lookup hstat
  | directory | file content | unreadable | special =>
    cases h
    exact ⟨hpath fun _ h => Entry.noConfusion h, he⟩

/-- What is listed is there. -/
theorem entry?_of_mem_list {path : Text} {l : Location} {inner : List (Text × Entry)}
    (h : t.list path l = .ok inner) : ∀ x ∈ inner, t.entry? (l ++ [x.1]) = some x.2 := by
  intro x hx
  unfold list at h
  split at h
  · cases h
  · obtain rfl := Except.ok.inj h
    obtain ⟨name, -, hname⟩ := List.mem_filterMap.mp hx
    obtain ⟨e, he, rfl⟩ := Option.map_eq_some_iff.mp hname
    exact he

/-- **One level down**: a name in a directory leads from the path of the directory to what has the
name there, unless this is a link. -/
theorem IsWellFormed.locate_join (h : t.IsWellFormed) {path name : Text} {l : Location} {e : Entry}
    (hpath : t.locate .target path = .ok (.present l)) (hl : t.isDirectoryAt l = true)
    (he : t.entry? (l ++ [name]) = some e) (hplain : ∀ target, e ≠ .link target) :
    t.locate .target (Path.join path name) = .ok (.present (l ++ [name])) := by
  obtain ⟨hname, hsize⟩ := h.names_of_entry? he name (List.mem_append_right _ List.mem_cons_self)
  have hnolink : ∀ target, t.entry? (l ++ [name]) ≠ some (.link target) := by
    intro target heq
    exact hplain target (Option.some.inj (he.symm.trans heq))
  obtain ⟨left, hleft⟩ := @exists_locate_join _ .target _ hname _ _ hpath
  rw [hleft, resolveFrom_singleton hname hl hnolink, if_neg (Nat.not_lt.mpr hsize), he]
  rfl

/-- **The entries of a walk** are met at paths that lead to them. -/
theorem IsWellFormed.exists_locate_of_mem_walkFrom (h : t.IsWellFormed) :
    (depth : Nat) → ∀ {ancestors path l e}, t.entry? l = some e →
      ((∀ target, e ≠ .link target) → t.locate .target path = .ok (.present l)) →
      ∀ {p e'}, .entry p e' ∈ t.walkFrom ancestors path l e depth →
        ∃ k, t.locate .target p = .ok (.present k) ∧ t.entry? k = some e'
  | 0, _, _, _, _, _, _, _, _, hmem => absurd hmem List.not_mem_nil
  | depth + 1, ancestors, path, l, e, he, hpath, p, e', hmem => by
      rw [walkFrom] at hmem
      split at hmem
      · cases List.mem_singleton.mp hmem
      · next linked k hfollow =>
        obtain ⟨hplace, hdirectory⟩ := locate_of_follow he hpath hfollow
        have hk := isDirectoryAt_iff.mpr hdirectory
        split at hmem
        · cases List.mem_singleton.mp hmem
        · rcases List.mem_cons.mp hmem with hself | hbelow
          · cases hself
            exact ⟨k, hplace, hdirectory⟩
          · split at hbelow
            · cases List.mem_singleton.mp hbelow
            · next inner hlist =>
              obtain ⟨⟨name, below⟩, hx, hbelow⟩ := List.mem_flatMap.mp hbelow
              have hname := entry?_of_mem_list hlist _ hx
              exact h.exists_locate_of_mem_walkFrom depth hname
                (h.locate_join hplace hk hname) hbelow
      · next linked k e'' hplain hfollow =>
        cases List.mem_singleton.mp hmem
        exact ⟨k, locate_of_follow he hpath hfollow⟩

theorem IsWellFormed.exists_locate_of_mem_walk (h : t.IsWellFormed) {path p : Text} {e : Entry}
    (hmem : .entry p e ∈ t.walk path) :
    ∃ k, t.locate .target p = .ok (.present k) ∧ t.entry? k = some e := by
  unfold walk at hmem
  split at hmem
  · cases List.mem_singleton.mp hmem
  · next l e hstat =>
    obtain ⟨he, hpath⟩ := locate_of_lstat hstat
    exact h.exists_locate_of_mem_walkFrom _ he hpath hmem

/-! ### Walks of files -/

theorem exists_stat_of_isFile {path : Text} (h : t.isFile path = true) :
    ∃ l e, t.stat path = .ok (l, e) ∧ e.isFile = true := by
  unfold isFile at h
  split at h
  · next l e hstat => exact ⟨l, e, hstat, h⟩
  · cases h

/-- **The walk of a file** meets it and nothing else. -/
theorem walk_of_isFile {path : Text} (h : t.isFile path = true) :
    ∃ e, t.walk path = [.entry path e] ∧ e.isFile = true := by
  obtain ⟨k, file, hstat, hfile⟩ := exists_stat_of_isFile h
  obtain ⟨l, e, hlstat⟩ := exists_lstat_of_stat hstat
  obtain ⟨he, hplain⟩ := locate_of_lstat hlstat
  obtain ⟨hk, hentry⟩ := locate_of_lookup hstat
  have hfollow : ∃ linked, t.follow path l e = .ok (linked, k, file) := by
    by_cases hlink : ∃ target, e = .link target
    · obtain ⟨target, rfl⟩ := hlink
      rw [follow, hstat]
      exact ⟨true, rfl⟩
    · have hl := hplain fun target heq => hlink ⟨target, heq⟩
      rw [hk] at hl
      cases hl
      obtain rfl := Option.some.inj (he.symm.trans hentry)
      refine ⟨false, ?_⟩
      cases e with
      | link target => exact absurd ⟨target, rfl⟩ hlink
      | directory | file content | unreadable | special => rfl
  obtain ⟨linked, hfollow⟩ := hfollow
  refine ⟨file, ?_, hfile⟩
  obtain ⟨depth, hdepth⟩ : ∃ depth, t.maxDepth = depth + 1 := ⟨_, rfl⟩
  rw [walk, hlstat]
  dsimp only
  rw [hdepth, walkFrom, hfollow]
  cases file with
  | file content | unreadable => rfl
  | directory | link target | special => cases hfile

end FileTree

end DataSourceGen
