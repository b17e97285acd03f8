import Mathlib.Data.List.Infix
import DataSourceGen.Proofs.FileTree.Below
import DataSourceGen.Proofs.FileTree.Directories

/-!
# Canonical paths

In a well-formed tree a path leads to a location around which there are directories only (`Stands`,
`stands_of_locate`). The absolute path of such a location has no links on its way and leads back to
it (`locate_pathOf`). So the canonical path leads where the path does (`locate_canonical`), and what
is found at the one is found at the other (`stat_canonical`). -/

namespace DataSourceGen

namespace FileTree

variable {t t' : FileTree}

/-- Whether a tree is that of a file system: its entries have names of entries, and the current
directory and all around it are directories. -/
structure IsWellFormed (t : FileTree) : Prop where
  name : ∀ x ∈ t.entries, ∀ name ∈ x.1, IsEntryName name
  nameSize : ∀ x ∈ t.entries, ∀ name ∈ x.1, Text.byteSize name ≤ maxNameSize
  current : ∀ l, l <+: t.current → t.isDirectoryAt l = true

/-- What is checked of the tree of a file system. -/
def isWellFormed (t : FileTree) : Bool :=
  t.entries.all (fun x =>
      x.1.all fun name => isEntryName name && decide (Text.byteSize name ≤ maxNameSize)) &&
    t.current.inits.all t.isDirectoryAt

theorem isWellFormed_iff : t.isWellFormed = true ↔ t.IsWellFormed := by
  simp only [isWellFormed, Bool.and_eq_true, List.all_eq_true, decide_eq_true_eq, isEntryName_iff,
    List.mem_inits]
  constructor
  · rintro ⟨hentries, hcurrent⟩
    exact ⟨fun x hx name hname => (hentries x hx name hname).1,
      fun x hx name hname => (hentries x hx name hname).2, hcurrent⟩
  · intro h
    exact ⟨fun x hx name hname => ⟨h.name x hx name hname, h.nameSize x hx name hname⟩, h.current⟩

/-- The names that lead to an entry of a well-formed tree. -/
theorem IsWellFormed.names_of_entry? (h : t.IsWellFormed) {l : Location} {e : Entry}
    (he : t.entry? l = some e) :
    ∀ name ∈ l, IsEntryName name ∧ Text.byteSize name ≤ maxNameSize := by
  unfold entry? at he
  split at he
  · next hroot =>
    rw [List.isEmpty_iff.mp hroot]
    exact fun name hname => absurd hname List.not_mem_nil
  · have hmem : (l, e) ∈ t.entries := by
      obtain ⟨before, after, hentries, -⟩ := List.lookup_eq_some_iff.mp he
      rw [hentries]
      exact List.mem_append_right _ List.mem_cons_self
    exact fun name hname => ⟨h.name _ hmem name hname, h.nameSize _ hmem name hname⟩

/-! ### Locations among directories -/

/-- Whether there is an entry at a location, which is no link, and a directory at each location
around it. -/
structure Stands (t : FileTree) (l : Location) : Prop where
  around : ∀ k, k <+: l → k ≠ l → t.isDirectoryAt k = true
  entry : ∃ e, t.entry? l = some e ∧ ∀ target, e ≠ .link target

theorem stands_nil (t : FileTree) : t.Stands [] :=
  ⟨fun _ hk hne => absurd (List.prefix_nil.mp hk) hne, .directory, rfl, fun _ h => Entry.noConfusion h⟩

theorem stands_of_isDirectoryAt {l : Location} (h : ∀ k, k <+: l → t.isDirectoryAt k = true) :
    t.Stands l :=
  ⟨fun k hk _ => h k hk, .directory, isDirectoryAt_iff.mp (h l (List.prefix_refl l)),
    fun _ h => Entry.noConfusion h⟩

theorem Stands.of_prefix {k l : Location} (h : t.Stands l) (hk : k <+: l) : t.Stands k := by
  by_cases hkl : k = l
  · rwa [hkl]
  · apply stands_of_isDirectoryAt
    intro j hj
    refine h.around j (hj.trans hk) ?_
    rintro rfl
    exact hkl (hk.eq_of_length_le hj.length_le)

theorem Stands.concat {l : Location} (h : t.Stands l) (hl : t.isDirectoryAt l = true) {name : Text}
    {e : Entry} (he : t.entry? (l ++ [name]) = some e) (hplain : ∀ target, e ≠ .link target) :
    t.Stands (l ++ [name]) := by
  refine ⟨fun k hk hne => ?_, e, he, hplain⟩
  rcases List.prefix_concat_iff.mp hk with rfl | hk
  · exact absurd rfl hne
  · by_cases hkl : k = l
    · rw [hkl]
      exact hl
    · exact h.around k hk hkl

/-- Whether the progress along names has come to a location among directories. -/
def Progress.Stands (t : FileTree) : Progress → Prop
  | .arrived l => t.Stands l
  | .link l _ _ => t.Stands l.dropLast
  | .absent _ | .failed _ => True

/-- Names go through directories only. -/
theorem Stands.advance : (parts : List Text) → ∀ {here : Location}, t.Stands here →
    (t.advance .target here parts).Stands t
  | [], _, h => h
  | name :: rest, here, h => by
      rw [advance_cons]
      split_ifs with hhere hdot hup hplaced hlong
      · trivial
      · exact Stands.advance rest h
      · exact Stands.advance rest (h.of_prefix (List.dropLast_prefix here))
      · trivial
      · trivial
      · have hdirectory : t.isDirectoryAt here = true := by simpa using hhere
        rcases he : t.entry? (here ++ [name]) with _ | e
        · unfold enter
          rw [he]
          dsimp only
          split
          · trivial
          · trivial
        · by_cases hlink : ∃ target, e = .link target
          · obtain ⟨target, rfl⟩ := hlink
            unfold enter
            rw [he]
            simpa [Purpose.followsLast, Progress.Stands] using h
          · have hplain : ∀ target, e ≠ .link target := fun target heq => hlink ⟨target, heq⟩
            rw [enter_target_eq he hplain]
            exact Stands.advance rest (h.concat hdirectory he hplain)

theorem Leads.stands {l here : Location} {links : Nat} {parts : List Text}
    (h : Leads t l links here parts) (hhere : t.Stands here) : t.Stands l := by
  induction h with
  | @arrived links here parts arrives =>
    have hstands := hhere.advance parts
    rwa [arrives] at hstands
  | @link links here k parts rest target meets goesOn ih =>
    have hstands := hhere.advance parts
    rw [meets] at hstands
    apply ih
    split
    · exact stands_nil t
    · exact hstands

theorem advance_up (t : FileTree) (here : Location) :
    t.advance .target here [['.', '.']] =
      if t.isDirectoryAt here then .arrived here.dropLast else .failed .notADirectory := by
  rw [advance_cons]
  rcases t.isDirectoryAt here with _ | _
  · rfl
  · rfl

/-- Around a directory there is a directory. -/
theorem Stands.isDirectoryAt_dropLast {l : Location} (h : t.Stands l) (hl : t.isDirectoryAt l = true) :
    t.isDirectoryAt l.dropLast = true := by
  by_cases hsame : l.dropLast = l
  · rw [hsame]
    exact hl
  · exact h.around _ (List.dropLast_prefix l) hsame

/-- What is reached by going up is a directory. -/
theorem Leads.isDirectoryAt_up {l here : Location} {links : Nat} {parts : List Text}
    (h : Leads t l links here (parts ++ [['.', '.']])) (hhere : t.Stands here) :
    t.isDirectoryAt l = true := by
  generalize hall : parts ++ [['.', '.']] = all at h
  induction h generalizing parts with
  | @arrived links here all arrives =>
    have hstands := hhere.advance parts
    rw [← hall, advance_concat (.inl rfl)] at arrives
    rcases hprogress : t.advance .target here parts with k | k | ⟨k, target, rest⟩ | reason
    · rw [hprogress] at arrives hstands
      rw [Progress.goOn, advance_up] at arrives
      split_ifs at arrives with hk
      cases arrives
      exact hstands.isDirectoryAt_dropLast hk
    all_goals
      rw [hprogress] at arrives
      cases arrives
  | @link links here k all rest target meets goesOn ih =>
    have hstands := hhere.advance parts
    rw [← hall, advance_concat (.inl rfl)] at meets
    rcases hprogress : t.advance .target here parts with j | j | ⟨j, target', rest'⟩ | reason
    · rw [hprogress, Progress.goOn, advance_up] at meets
      split_ifs at meets
    · rw [hprogress] at meets
      cases meets
    · rw [hprogress] at meets hstands
      cases meets
      refine ih ?_ (List.append_assoc _ _ _)
      split
      · exact stands_nil t
      · exact hstands
    · rw [hprogress] at meets
      cases meets

/-- **A path leads to a location among directories**. -/
theorem IsWellFormed.stands_of_locate (h : t.IsWellFormed) {path : Text} {l : Location}
    (hpath : t.locate .target path = .ok (.present l)) : t.Stands l := by
  obtain ⟨-, hleads⟩ := leads_of_locate hpath
  apply hleads.stands
  split
  · exact stands_nil t
  · exact stands_of_isDirectoryAt h.current

/-- What a path with `..` at its end leads to is a directory. -/
theorem IsWellFormed.isDirectoryAt_of_lastName (h : t.IsWellFormed) {path : Text} {l : Location}
    (hpath : t.locate .target path = .ok (.present l))
    (hlast : Path.lastName path = ['.', '.']) : t.isDirectoryAt l = true := by
  obtain ⟨-, hleads⟩ := leads_of_locate hpath
  obtain ⟨around, hnames⟩ := Path.exists_names_eq_concat hlast (List.cons_ne_nil _ _)
  rw [hnames] at hleads
  apply hleads.isDirectoryAt_up
  split
  · exact stands_nil t
  · exact stands_of_isDirectoryAt h.current

/-! ### The path of a location -/

theorem Stands.advance_eq : (rest : List Text) → ∀ {here : Location}, t.Stands (here ++ rest) →
    (∀ name ∈ rest, IsEntryName name ∧ Text.byteSize name ≤ maxNameSize) →
    t.advance .target here rest = .arrived (here ++ rest)
  | [], here, _, _ => by
      rw [List.append_nil]
      rfl
  | name :: rest, here, h, hnames => by
      obtain ⟨⟨hname, hsize⟩, hrest⟩ := List.forall_mem_cons.mp hnames
      have hdirectory : t.isDirectoryAt here = true :=
        h.around here (List.prefix_append _ _) (by simp)
      have hbelow : (here ++ [name]) ++ rest = here ++ name :: rest := by simp
      rw [← hbelow] at h ⊢
      obtain ⟨e, he, hplain⟩ := (h.of_prefix (List.prefix_append _ _)).entry
      have hdot : (name.isEmpty || decide (name = ['.'])) = false := by
        simp [hname.nonempty, hname.notSelf]
      have hplaced : Purpose.target.isMisplaced rest = false := rfl
      rw [advance_cons, hdirectory, hdot, if_neg hname.notUp, hplaced, if_neg (Nat.not_lt.mpr hsize),
        enter_target_eq he hplain]
      exact h.advance_eq rest hrest

/-- **The path of a location** among directories leads back to it. -/
theorem Stands.locate_pathOf {l : Location} (h : t.Stands l)
    (hnames : ∀ name ∈ l, IsEntryName name ∧ Text.byteSize name ≤ maxNameSize) :
    t.locate .target (pathOf l) = .ok (.present l) := by
  have hclean : (pathOf l).contains '\x00' = false := by
    simpa using not_mem_pathOf (by decide) fun name hname => (hnames name hname).1.noNul
  rw [locate, hclean, parts_pathOf fun name hname => (hnames name hname).1.toIsPart]
  have harrives : t.advance .target [] l = .arrived l := h.advance_eq l hnames
  exact Leads.resolveFrom_eq (.arrived harrives)

/-! ### Canonical paths -/

/-- The entries with paths that are not too long are as they are in the whole tree. -/
theorem entry?_spellable {l : Location} {e : Entry} :
    t.spellable.entry? l = some e ↔
      t.entry? l = some e ∧ Text.byteSize (pathOf l) < maxPathSize := by
  unfold entry? spellable
  by_cases hroot : l.isEmpty
  · have hshort : Text.byteSize (pathOf l) < maxPathSize := by
      rw [List.isEmpty_iff.mp hroot]
      decide
    rw [if_pos hroot, if_pos hroot, and_iff_left hshort]
  · dsimp only
    rw [if_neg hroot, if_neg hroot, lookup_filter fun k => decide (Text.byteSize (pathOf k) < _)]
    by_cases hshort : Text.byteSize (pathOf l) < maxPathSize
    · rw [if_pos (decide_eq_true hshort), and_iff_left hshort]
    · rw [if_neg (by simpa using hshort)]
      simp [hshort]

theorem includes_spellable (t : FileTree) : Includes t.spellable t :=
  ⟨rfl, fun he => (entry?_spellable.mp he).1⟩

/-- **The canonical path** leads where the path does. -/
theorem IsWellFormed.locate_canonical (h : t.IsWellFormed) {path : Text} {l : Location}
    (hpath : t.locate .target path = .ok (.present l)) :
    t.locate .target (t.canonical path) = .ok (.present l) := by
  unfold canonical
  split
  · next k hplace =>
    have hsame := (includes_spellable t).locate_eq hplace
    obtain rfl : k = l := by
      rw [hpath] at hsame
      cases hsame
      rfl
    have hstands := h.stands_of_locate hpath
    obtain ⟨e, he, -⟩ := hstands.entry
    exact hstands.locate_pathOf (h.names_of_entry? he)
  · exact hpath
  · exact hpath

/-- Names go on from a directory only. -/
theorem Leads.isDirectoryAt {l here : Location} {links : Nat} {parts : List Text}
    (h : Leads t l links here parts) (hparts : parts ≠ []) : t.isDirectoryAt here = true := by
  by_contra hhere
  have hfailed := @advance_eq_failed t .target here parts (by simpa using hhere) hparts
  cases h with
  | arrived arrives =>
    rw [hfailed] at arrives
    cases arrives
  | link meets goesOn =>
    rw [hfailed] at meets
    cases meets

/-- A path that leads to a location among the entries with short paths passes through such entries
only. -/
theorem IsWellFormed.stands_spellable (h : t.IsWellFormed) {path : Text} {l : Location}
    (hpath : t.spellable.locate .target path = .ok (.present l)) : t.spellable.Stands l := by
  obtain ⟨-, hleads⟩ := leads_of_locate hpath
  rcases habsolute : Path.isAbsolute path with _ | _
  · rw [habsolute] at hleads
    have hne : path ≠ [] := by
      rintro rfl
      cases hpath
    have hnames := Path.names_ne_nil hne habsolute
    have hcurrent : t.spellable.isDirectoryAt t.current = true := hleads.isDirectoryAt hnames
    obtain ⟨-, hshort⟩ := entry?_spellable.mp (isDirectoryAt_iff.mp hcurrent)
    apply hleads.stands
    apply stands_of_isDirectoryAt
    intro k hk
    have hsize := Nat.lt_of_le_of_lt (byteSize_pathOf_le hk) hshort
    exact isDirectoryAt_iff.mpr
      (entry?_spellable.mpr ⟨isDirectoryAt_iff.mp (h.current k hk), hsize⟩)
  · rw [habsolute] at hleads
    exact hleads.stands (stands_nil _)

/-- **What is found at a path** is found at its canonical path, too. -/
theorem IsWellFormed.stat_canonical (h : t.IsWellFormed) {path : Text} {found : Location × Entry}
    (hfound : t.stat path = .ok found) : t.stat (t.canonical path) = .ok found := by
  obtain ⟨l, e⟩ := found
  obtain ⟨hplace, he⟩ := locate_of_lookup hfound
  have hcanonical := h.locate_canonical hplace
  unfold canonical at hcanonical ⊢
  split
  · next k hk =>
    rw [hk] at hcanonical
    obtain ⟨e', he', -⟩ := (h.stands_spellable hk).entry
    obtain ⟨-, hshort⟩ := entry?_spellable.mp he'
    have hpresent : t.resolve .target (pathOf k) = .ok (.present l) := by
      rw [resolve, hcanonical]
      simp [Nat.not_le.mpr hshort]
    exact lookup_eq_ok_iff.mpr ⟨hpresent, he⟩
  · exact hfound
  · exact hfound

/-- A path that leads somewhere and its canonical path have the same document. -/
theorem IsWellFormed.readDocument_canonical_eq_ok_iff (h : t.IsWellFormed) {path document : Text}
    {found : Location × Entry} (hfound : t.stat path = .ok found) :
    t.readDocument (t.canonical path) = .ok document ↔ t.readDocument path = .ok document := by
  rw [readDocument_eq_ok_iff, readDocument_eq_ok_iff, h.stat_canonical hfound, hfound]

end FileTree

end DataSourceGen
