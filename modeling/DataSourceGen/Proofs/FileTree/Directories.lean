import DataSourceGen.Proofs.FileTree.Landmarks

/-!
# Making directories

Making directories adds directories where there was nothing (`gains_ensureDirectories`), whether or
not the attempt succeeds in the end. A path that leads to an entry in a tree leads to the same entry
in each tree that includes it (`Includes.locate_eq`): it passes only through what is there. So it
does after directories were made. -/

namespace DataSourceGen

namespace FileTree

variable {t t' : FileTree}

/-- Whether a tree is another one with more directories. -/
structure Gains (t t' : FileTree) : Prop where
  current : t'.current = t.current
  entry : ∀ l, t'.entry? l = t.entry? l ∨ t.entry? l = none ∧ t'.entry? l = some .directory

theorem Gains.refl (t : FileTree) : Gains t t :=
  ⟨rfl, fun _ => .inl rfl⟩

theorem Gains.trans {u : FileTree} (h : Gains t t') (h' : Gains t' u) : Gains t u := by
  refine ⟨h'.current.trans h.current, fun l => ?_⟩
  rcases h'.entry l with hsame | ⟨hnone, hdirectory⟩
  · rw [hsame]
    exact h.entry l
  · rcases h.entry l with hold | ⟨-, hmade⟩
    · exact .inr ⟨hold ▸ hnone, hdirectory⟩
    · rw [hmade] at hnone
      cases hnone

/-- Whether what there is in a tree is in another one, too. -/
structure Includes (t t' : FileTree) : Prop where
  current : t'.current = t.current
  entry_eq : ∀ {l : Location} {e : Entry}, t.entry? l = some e → t'.entry? l = some e

/-- What was there is there. -/
theorem Gains.includes (h : Gains t t') : Includes t t' := by
  refine ⟨h.current, fun {l e} he => ?_⟩
  rcases h.entry l with hsame | ⟨hnone, -⟩
  · rw [hsame, he]
  · rw [he] at hnone
    cases hnone

/-! ### What is made -/

theorem gains_makeDirectory {path : Text} (h : t.makeDirectory path = .ok t') : Gains t t' := by
  unfold makeDirectory at h
  split at h
  · next l hplace =>
    obtain rfl := Except.ok.inj h
    have hfree := entry?_of_free hplace
    have hl : l ≠ [] := by
      rintro rfl
      rw [entry?_nil] at hfree
      cases hfree
    refine ⟨rfl, fun m => ?_⟩
    rw [entry?_put hl]
    split
    · next hm => exact .inr ⟨hm ▸ hfree, rfl⟩
    · exact .inl rfl
  · cases h
  · cases h

theorem gains_ensureDirectory {path : Text} (h : t.ensureDirectory path = .ok t') : Gains t t' := by
  unfold ensureDirectory at h
  split at h
  · next after hmade =>
    obtain rfl := Except.ok.inj h
    exact gains_makeDirectory hmade
  · split at h
    · obtain rfl := Except.ok.inj h
      exact .refl _
    · cases h

/-- An attempt of one step leaves what the step has made. -/
theorem gains_attempt {path : Text} : Gains t (t.attempt (t.ensureDirectory path)).tree := by
  rcases hresult : t.ensureDirectory path with reason | after
  · exact .refl t
  · exact gains_ensureDirectory hresult

theorem gains_ensureWithin (t : FileTree) :
    (around : List Text) → ∀ path, Gains t (t.ensureWithin path around).tree
  | [], _ => gains_attempt
  | outer :: around, path => by
      have hmade := gains_ensureWithin t around outer
      have hstep : Gains t (t.attempt (t.ensureDirectory path)).tree := gains_attempt
      unfold ensureWithin
      split
      · dsimp only
        split
        · exact hmade
        · exact hmade.trans gains_attempt
      · exact hstep

/-- Making a directory and those around it adds directories only. -/
theorem gains_ensureDirectories (t : FileTree) (path : Text) :
    Gains t (t.ensureDirectories path).tree := by
  unfold ensureDirectories
  split
  · exact .refl t
  · exact gains_ensureWithin t _ path

/-! ### Paths through what there is -/

/-- Whether names lead to an entry or to a link. -/
def Progress.leads : Progress → Bool
  | .arrived _ | .link _ _ _ => true
  | .absent _ | .failed _ => false

/-- Names that lead somewhere lead there in a tree that has more, too. -/
theorem Includes.advance_eq (h : Includes t t') (purpose : Purpose) :
    (parts : List Text) → ∀ here, (t.advance purpose here parts).leads = true →
      t'.advance purpose here parts = t.advance purpose here parts
  | [], _, _ => rfl
  | name :: rest, here, hleads => by
      have ih := h.advance_eq purpose rest
      -- Names that lead somewhere do not pass a location without an entry.
      have henter (l : Location) (hleads : (t.enter purpose l rest).leads = true) :
          t'.enter purpose l rest = t.enter purpose l rest := by
        rcases he : t.entry? l with _ | e
        · unfold enter at hleads
          rw [he] at hleads
          dsimp only at hleads
          split at hleads <;> cases hleads
        · unfold enter at hleads ⊢
          rw [h.entry_eq he, he]
          rw [he] at hleads
          cases e with
          | link target => rfl
          | directory | file content | unreadable | special =>
            dsimp only at hleads ⊢
            split
            · rfl
            · next hgoes =>
              rw [if_neg hgoes] at hleads
              exact ih l hleads
      rw [advance_cons] at hleads
      rw [advance_cons, advance_cons]
      by_cases hhere : t.isDirectoryAt here = true
      · have hhere' : t'.isDirectoryAt here = true := by
          unfold isDirectoryAt at hhere ⊢
          rw [h.entry_eq (beq_iff_eq.mp hhere)]
          rfl
        rw [hhere] at hleads
        rw [hhere, hhere']
        simp only [Bool.not_true, Bool.false_eq_true, if_false] at hleads ⊢
        split_ifs at hleads ⊢ with hdot hup hplaced hlong
        · exact ih here hleads
        · exact ih here.dropLast hleads
        · rfl
        · rfl
        · exact henter _ hleads
      · rw [Bool.not_eq_true] at hhere
        rw [hhere] at hleads
        cases hleads

/-- Names that lead to an entry lead there in a tree that has more, too. -/
theorem Includes.resolveFrom_eq (h : Includes t t') (purpose : Purpose) {l : Location} :
    (links : Nat) → ∀ here parts, t.resolveFrom purpose links here parts = .ok (.present l) →
      t'.resolveFrom purpose links here parts = .ok (.present l) := by
  intro links
  induction links with
  | zero | succ n ih =>
    intro here parts hplace
    rw [resolveFrom.eq_def] at hplace ⊢
    have hsame := h.advance_eq purpose parts here
    rcases hprogress : t.advance purpose here parts with l' | l' | ⟨l', target, rest⟩ | reason
    · rw [hsame (by rw [hprogress]; rfl), hprogress]
      rwa [hprogress] at hplace
    · rw [hprogress] at hplace
      cases hplace
    · rw [hsame (by rw [hprogress]; rfl), hprogress]
      rw [hprogress] at hplace
      first | cases hplace | exact ih _ _ hplace
    · rw [hprogress] at hplace
      cases hplace

/-- **A path that leads to an entry** leads there in a tree that has more, too. -/
theorem Includes.locate_eq (h : Includes t t') {purpose : Purpose} {path : Text} {l : Location}
    (hplace : t.locate purpose path = .ok (.present l)) :
    t'.locate purpose path = .ok (.present l) := by
  unfold locate at hplace ⊢
  rw [h.current]
  split_ifs at hplace ⊢ with hnul hempty habsolute
  · exact h.resolveFrom_eq _ _ _ _ hplace
  · exact h.resolveFrom_eq _ _ _ _ hplace

/-- What is read at a path that leads to an entry is read in a tree that has more, too. -/
theorem Includes.readDocument_eq (h : Includes t t') {path : Text} {l : Location} {e : Entry}
    (hplace : t.locate .target path = .ok (.present l)) (he : t.entry? l = some e) :
    t'.readDocument path = t.readDocument path := by
  rw [FileTree.readDocument_eq, FileTree.readDocument_eq]
  unfold location? resolve
  rw [hplace, h.locate_eq hplace]
  split
  · rfl
  · show documentIn path (t'.entry? l) = documentIn path (t.entry? l)
    rw [h.entry_eq he, he]

/-- **What is read** at a path that leads to an entry stays, when directories are made. -/
theorem Gains.readDocument_eq (h : Gains t t') {path : Text} {found : Location × Entry}
    (hfound : t.stat path = .ok found) : t'.readDocument path = t.readDocument path := by
  obtain ⟨hplace, he⟩ := locate_of_lookup hfound
  exact h.includes.readDocument_eq hplace he

end FileTree

end DataSourceGen
