import Mathlib.Data.List.Perm.Basic
import Mathlib.Data.List.Nodup
import DataSourceGen.FileTree.Walk
import DataSourceGen.Proofs.FileTree.Canonical

/-!
# What a directory lists

In a tree that has each location once, a directory lists the names of its entries in ascending
order, each with what has the name (`lists_of_list`), and there is only one such list
(`Lists.unique`).

So nothing depends on the order in which the entries of a tree were made: trees with the same
entries agree (`Agrees`) on where a path leads and what is found there (`Agrees.lookup_eq`). -/

namespace DataSourceGen

namespace FileTree

variable {t t' : FileTree}

/-- Whether a tree has each location once. -/
def ListsOnce (t : FileTree) : Prop :=
  (t.entries.map Prod.fst).Nodup

/-- What is looked up among entries at different locations is the entry at the location. -/
theorem lookup_eq_some_iff_mem {l : Location} {e : Entry} :
    {entries : List (Location × Entry)} → (entries.map Prod.fst).Nodup →
      (entries.lookup l = some e ↔ (l, e) ∈ entries)
  | [], _ => by simp
  | (k, a) :: rest, h => by
      obtain ⟨hk, hrest⟩ := List.nodup_cons.mp h
      have ih := @lookup_eq_some_iff_mem l e rest hrest
      by_cases hl : l = k
      · subst hl
        have hnone : (l, e) ∉ rest := fun hmem => hk (List.mem_map.mpr ⟨_, hmem, rfl⟩)
        rw [List.lookup_cons_self, List.mem_cons, or_iff_left hnone, Option.some_inj, Prod.mk.injEq]
        exact ⟨fun he => ⟨rfl, he.symm⟩, fun he => he.2.symm⟩
      · rw [List.lookup_cons, beq_eq_false_iff_ne.mpr hl, List.mem_cons, Prod.mk.injEq]
        exact ih.trans ⟨.inr, fun h => h.resolve_left fun heq => hl heq.1⟩

/-- Below the root, the entry at a location is the one that is listed there. -/
theorem entry?_eq_some_iff (h : t.ListsOnce) {l : Location} (hl : l ≠ []) {e : Entry} :
    t.entry? l = some e ↔ (l, e) ∈ t.entries := by
  unfold entry?
  rw [if_neg (by simpa using hl)]
  exact lookup_eq_some_iff_mem h

/-! ### Names in ascending order -/

theorem lt_of_not_lt {a b : Text} (h : ¬ a < b) (hne : b ≠ a) : b < a := by
  by_contra hba
  exact hne (List.le_antisymm (List.not_lt.mp h) (List.not_lt.mp hba))

theorem mem_insertSorted {name x : Text} :
    (names : List Text) → (x ∈ insertSorted name names ↔ x = name ∨ x ∈ names)
  | [] => by simp [insertSorted]
  | n :: names => by
      have ih := @mem_insertSorted name x names
      rw [insertSorted]
      split
      · rw [List.mem_cons, ih, List.mem_cons, or_left_comm]
      · rw [List.mem_cons]

/-- A new name is put where it belongs. -/
theorem pairwise_insertSorted {name : Text} :
    (names : List Text) → name ∉ names → names.Pairwise (· < ·) →
      (insertSorted name names).Pairwise (· < ·)
  | [], _, _ => List.pairwise_singleton _ _
  | n :: names, hnew, h => by
      obtain ⟨hhead, hrest⟩ := List.pairwise_cons.mp h
      obtain ⟨hne, hnew⟩ := not_or.mp (List.mem_cons.not.mp hnew)
      have ih := pairwise_insertSorted names hnew hrest
      rw [insertSorted]
      split
      · next hlt =>
        refine List.pairwise_cons.mpr ⟨fun x hx => ?_, ih⟩
        rcases (mem_insertSorted names).mp hx with rfl | hx
        · exact hlt
        · exact hhead x hx
      · next hlt =>
        have hfirst : name < n := lt_of_not_lt hlt hne
        refine List.pairwise_cons.mpr ⟨fun x hx => ?_, h⟩
        rcases List.mem_cons.mp hx with rfl | hx
        · exact hfirst
        · exact List.lt_trans hfirst (hhead x hx)

theorem mem_sortNames {x : Text} : (names : List Text) → (x ∈ sortNames names ↔ x ∈ names)
  | [] => Iff.rfl
  | n :: names => by rw [sortNames, mem_insertSorted, mem_sortNames names, List.mem_cons]

/-- Different names are sorted strictly. -/
theorem pairwise_sortNames :
    (names : List Text) → names.Nodup → (sortNames names).Pairwise (· < ·)
  | [], _ => List.Pairwise.nil
  | n :: names, h => by
      obtain ⟨hn, hrest⟩ := List.nodup_cons.mp h
      exact pairwise_insertSorted _ ((mem_sortNames names).not.mpr hn)
        (pairwise_sortNames names hrest)

/-! ### The list of a directory -/

/-- Whether a list is that of a directory: the names in ascending order, and with each what has the
name. -/
structure Lists (t : FileTree) (l : Location) (inner : List (Text × Entry)) : Prop where
  ascending : inner.Pairwise fun x y => x.1 < y.1
  mem_iff : ∀ name e, (name, e) ∈ inner ↔ t.entry? (l ++ [name]) = some e

/-- A directory has only one list. -/
theorem Lists.unique {l : Location} {inner inner' : List (Text × Entry)} (h : t.Lists l inner)
    (h' : t.Lists l inner') : inner = inner' := by
  have hne {x y : Text × Entry} (hlt : x.1 < y.1) : x ≠ y := by
    rintro rfl
    exact List.lt_irrefl _ hlt
  have hperm : inner.Perm inner' :=
    (List.perm_ext_iff_of_nodup (h.ascending.imp hne) (h'.ascending.imp hne)).mpr
      fun x => (h.mem_iff x.1 x.2).trans (h'.mem_iff x.1 x.2).symm
  refine hperm.eq_of_pairwise (fun x y _ _ hxy hyx => ?_) h.ascending h'.ascending
  exact absurd hyx (List.lt_asymm hxy)

/-- The name that a location has in a directory, if it is in it. -/
def nameIn? (directory l : Location) : Option Text :=
  match l.getLast? with
  | some name => if l.dropLast = directory then some name else none
  | none => none

theorem nameIn?_eq_some_iff {directory l : Location} {name : Text} :
    nameIn? directory l = some name ↔ l = directory ++ [name] := by
  unfold nameIn?
  rcases hlast : l.getLast? with _ | last
  · obtain rfl := List.getLast?_eq_none_iff.mp hlast
    simp
  · obtain ⟨around, rfl⟩ := List.getLast?_eq_some_iff.mp hlast
    rw [List.dropLast_concat, List.append_singleton_inj]
    dsimp only
    split
    · next heq => simp [heq]
    · next hne => simp [hne]

theorem names_eq (t : FileTree) (l : Location) :
    t.names l = sortNames (t.entries.filterMap fun x => nameIn? l x.1) :=
  rfl

theorem mem_names {l : Location} {name : Text} :
    name ∈ t.names l ↔ ∃ e, (l ++ [name], e) ∈ t.entries := by
  rw [names_eq, mem_sortNames, List.mem_filterMap]
  constructor
  · rintro ⟨⟨k, e⟩, hx, hname⟩
    exact ⟨e, nameIn?_eq_some_iff.mp hname ▸ hx⟩
  · rintro ⟨e, hx⟩
    exact ⟨_, hx, nameIn?_eq_some_iff.mpr rfl⟩

/-- The names of a directory ascend strictly. -/
theorem pairwise_names (h : t.ListsOnce) (l : Location) : (t.names l).Pairwise (· < ·) := by
  apply pairwise_sortNames
  refine List.pairwise_filterMap.mpr ((List.pairwise_map.mp h).imp ?_)
  intro x y hne name hx other hy hsame
  apply hne
  rw [nameIn?_eq_some_iff.mp hx, nameIn?_eq_some_iff.mp hy, hsame]

/-- **A directory that can be opened** lists its entries. -/
theorem list_eq (h : t.ListsOnce) {path : Text} {found : Location × Entry}
    (hstat : t.stat path = .ok found) (l : Location) :
    ∃ inner, t.list path l = .ok inner ∧ t.Lists l inner := by
  unfold list
  rw [hstat]
  refine ⟨_, rfl, ?_, fun name e => ?_⟩
  · refine List.pairwise_filterMap.mpr ((pairwise_names h l).imp ?_)
    intro name other hlt x hx y hy
    obtain ⟨e, -, rfl⟩ := Option.map_eq_some_iff.mp hx
    obtain ⟨e', -, rfl⟩ := Option.map_eq_some_iff.mp hy
    exact hlt
  · rw [List.mem_filterMap]
    constructor
    · rintro ⟨other, -, hx⟩
      obtain ⟨e', he, heq⟩ := Option.map_eq_some_iff.mp hx
      obtain ⟨rfl, rfl⟩ := Prod.mk.inj heq
      exact he
    · intro he
      have hmem := (entry?_eq_some_iff h (List.concat_ne_nil name l)).mp he
      exact ⟨name, mem_names.mpr ⟨e, hmem⟩, Option.map_eq_some_iff.mpr ⟨e, he, rfl⟩⟩

/-! ### Trees with the same entries -/

/-- Whether two trees have the same entries at the same locations. -/
structure Agrees (t t' : FileTree) : Prop where
  current : t'.current = t.current
  entry : ∀ l, t'.entry? l = t.entry? l

/-- The order in which entries were made does not matter. -/
theorem agrees_of_perm (h : t.ListsOnce) (hcurrent : t'.current = t.current)
    (hperm : t'.entries.Perm t.entries) : t'.ListsOnce ∧ Agrees t t' := by
  have hmap : (t'.entries.map Prod.fst).Perm (t.entries.map Prod.fst) := hperm.map Prod.fst
  have honce : t'.ListsOnce := hmap.nodup_iff.mpr h
  refine ⟨honce, hcurrent, fun l => ?_⟩
  by_cases hl : l = []
  · rw [hl]
    rfl
  · apply Option.ext
    intro e
    rw [entry?_eq_some_iff honce hl, entry?_eq_some_iff h hl, hperm.mem_iff]

theorem Agrees.isDirectoryAt_eq (h : Agrees t t') (l : Location) :
    t'.isDirectoryAt l = t.isDirectoryAt l := by
  rw [isDirectoryAt, isDirectoryAt, h.entry]

theorem Agrees.advance_eq (h : Agrees t t') (purpose : Purpose) :
    (parts : List Text) → ∀ here,
      t'.advance purpose here parts = t.advance purpose here parts
  | [], _ => rfl
  | name :: rest, here => by
      have ih := h.advance_eq purpose rest
      have henter (l : Location) : t'.enter purpose l rest = t.enter purpose l rest := by
        unfold enter
        rw [h.entry, ih]
      rw [advance_cons, advance_cons, h.isDirectoryAt_eq, ih, ih, henter]

theorem Agrees.resolveFrom_eq (h : Agrees t t') (purpose : Purpose) :
    (links : Nat) → ∀ here parts,
      t'.resolveFrom purpose links here parts = t.resolveFrom purpose links here parts := by
  intro links
  induction links with
  | zero =>
    intro here parts
    rw [resolveFrom.eq_def, resolveFrom.eq_def t, h.advance_eq]
  | succ links ih =>
    intro here parts
    rw [resolveFrom.eq_def, resolveFrom.eq_def t, h.advance_eq]
    rcases t.advance purpose here parts with l | l | ⟨l, target, rest⟩ | reason
    · rfl
    · rfl
    · exact ih _ _
    · rfl

theorem Agrees.locate_eq (h : Agrees t t') (purpose : Purpose) (path : Text) :
    t'.locate purpose path = t.locate purpose path := by
  rw [locate, locate, h.current, h.resolveFrom_eq]

/-- **What is found at a path** is the same in trees with the same entries. -/
theorem Agrees.lookup_eq (h : Agrees t t') (purpose : Purpose) (path : Text) :
    t'.lookup purpose path = t.lookup purpose path := by
  have hresolve : t'.resolve purpose path = t.resolve purpose path := by
    rw [resolve, resolve, h.locate_eq]
  rw [lookup, lookup, hresolve]
  rcases t.resolve purpose path with reason | l | l
  · rfl
  · dsimp only
    rw [h.entry]
  · rfl

theorem Agrees.isFile_eq (h : Agrees t t') (path : Text) : t'.isFile path = t.isFile path := by
  rw [isFile, isFile, stat, stat, h.lookup_eq]

theorem Agrees.spellable (h : Agrees t t') : Agrees t.spellable t'.spellable := by
  refine ⟨h.current, fun l => Option.ext fun e => ?_⟩
  rw [entry?_spellable, entry?_spellable, h.entry]

theorem Agrees.canonical_eq (h : Agrees t t') (path : Text) : t'.canonical path = t.canonical path := by
  rw [canonical, canonical, h.spellable.locate_eq]

/-- A tree with the entries of a well-formed one is well-formed. -/
theorem IsWellFormed.of_perm (h : t.IsWellFormed) (hagrees : Agrees t t')
    (hperm : t'.entries.Perm t.entries) : t'.IsWellFormed := by
  refine ⟨fun x hx => h.name x (hperm.mem_iff.mp hx), fun x hx => h.nameSize x (hperm.mem_iff.mp hx),
    fun l hl => ?_⟩
  rw [hagrees.isDirectoryAt_eq]
  exact h.current l (hagrees.current ▸ hl)

end FileTree

end DataSourceGen
