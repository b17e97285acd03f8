import Mathlib.Data.Finset.Card
import Mathlib.Data.List.Infix
import DataSourceGen.Proofs.FileTree.Listing
import DataSourceGen.Proofs.FileTree.Walk

/-!
# Walks step by step

A walk visits paths one after another, and what is below a path before the paths behind it. At a
path it meets an entry or an error, and what is to be visited next is what the directory lists, in
ascending order (`Meets`). Nothing in this bounds how deep a walk goes.

**Theorem** (`walks_iff`): in a well-formed tree that has each location once, the visits of such a
walk are those of `FileTree.walk`, and no others. A directory that is entered by its name has a
longer location than the one around it, and one that is entered through a link is none of those
around it. There are no more directories, and no longer locations, than there are entries
(`levelsLeft`); so a walk never comes as deep as `FileTree.maxDepth`. -/

namespace DataSourceGen

namespace FileTree

variable {t t' : FileTree}

/-- A path that a walk has still to visit: what is there, and inside which directories. -/
structure Pending where
  around : List Ancestor
  path : Text
  location : Location
  entry : Entry

/-- What a directory lists is to be visited inside of it. -/
def Pending.below (p : Pending) (l : Location) (x : Text × Entry) : Pending :=
  ⟨⟨p.path, l⟩ :: p.around, Path.join p.path x.1, l ++ [x.1], x.2⟩

/-- What a walk meets at a path, and what it is to visit next. -/
inductive Meets (t : FileTree) (p : Pending) : List Visit → List Pending → Prop
  | lost {reason : OsError} (leads : t.follow p.path p.location p.entry = .error reason) :
      Meets t p [.error (.failed p.path reason)] []
  | loop {l : Location} {a : Ancestor}
      (leads : t.follow p.path p.location p.entry = .ok (true, l, .directory))
      (inside : p.around.find? (fun a => a.location == l) = some a) :
      Meets t p [.error (.loops p.path a.path)] []
  | closed {linked : Bool} {l : Location} {reason : OsError}
      (leads : t.follow p.path p.location p.entry = .ok (linked, l, .directory))
      (outside : linked = true → ∀ a ∈ p.around, a.location ≠ l)
      (stays : t.stat p.path = .error reason) :
      Meets t p [.entry p.path .directory, .error (.failed p.path reason)] []
  | directory {linked : Bool} {l : Location} {found : Location × Entry}
      {inner : List (Text × Entry)}
      (leads : t.follow p.path p.location p.entry = .ok (linked, l, .directory))
      (outside : linked = true → ∀ a ∈ p.around, a.location ≠ l)
      (opens : t.stat p.path = .ok found) (lists : t.Lists l inner) :
      Meets t p [.entry p.path .directory] (inner.map (p.below l))
  | other {linked : Bool} {l : Location} {e : Entry}
      (leads : t.follow p.path p.location p.entry = .ok (linked, l, e)) (plain : e ≠ .directory) :
      Meets t p [.entry p.path e] []

/-- The visits of a walk that has some paths to visit. -/
inductive Visits (t : FileTree) : List Pending → List Visit → Prop
  | done : Visits t [] []
  | next {p : Pending} {pending inner : List Pending} {met visits : List Visit}
      (meets : t.Meets p met inner) (goesOn : Visits t (inner ++ pending) visits) :
      Visits t (p :: pending) (met ++ visits)

/-- The visits of a walk from a path. -/
inductive Walks (t : FileTree) (path : Text) : List Visit → Prop
  | missing {reason : OsError} (absent : t.lstat path = .error reason) :
      Walks t path [.error (.failed path reason)]
  | starts {l : Location} {e : Entry} {visits : List Visit} (present : t.lstat path = .ok (l, e))
      (goesOn : t.Visits [⟨[], path, l, e⟩] visits) : Walks t path visits

/-! ### One step -/

/-- What a walk meets at a path, and what it is to visit next, as they are found out. -/
def step (t : FileTree) (p : Pending) : List Visit × List Pending :=
  match t.follow p.path p.location p.entry with
  | .error reason => ([.error (.failed p.path reason)], [])
  | .ok (linked, l, .directory) =>
    match p.around.find? fun a => linked && a.location == l with
    | some a => ([.error (.loops p.path a.path)], [])
    | none =>
      match t.list p.path l with
      | .error reason => ([.entry p.path .directory, .error (.failed p.path reason)], [])
      | .ok inner => ([.entry p.path .directory], inner.map (p.below l))
  | .ok (_, _, e) => ([.entry p.path e], [])

/-- The visits at and below a pending path, as deep as `depth` levels. -/
def walkBelow (t : FileTree) (depth : Nat) (p : Pending) : List Visit :=
  t.walkFrom p.around p.path p.location p.entry depth

theorem walkBelow_succ (t : FileTree) (depth : Nat) (p : Pending) :
    t.walkBelow (depth + 1) p = (t.step p).1 ++ (t.step p).2.flatMap (t.walkBelow depth) := by
  unfold walkBelow
  rw [walkFrom, step]
  rcases hfollow : t.follow p.path p.location p.entry with reason | ⟨linked, l, e⟩
  · rfl
  · cases e with
    | directory =>
      rcases hloop : p.around.find? (fun a => linked && a.location == l) with _ | a
      · rcases hlist : t.list p.path l with reason | inner
        · simp only [hloop, hlist]
          rfl
        · simp only [hloop, hlist, List.singleton_append, List.flatMap_map]
          rfl
      · simp only [hloop]
        rfl
    | file content | link target | unreadable | special => rfl

theorem find?_eq_none_iff {around : List Ancestor} {linked : Bool} {l : Location} :
    (around.find? fun a => linked && a.location == l) = none ↔
      (linked = true → ∀ a ∈ around, a.location ≠ l) := by
  rw [List.find?_eq_none]
  cases linked with
  | true => simp
  | false => simp

/-- **One step** of a walk is what its rules say. -/
theorem meets_iff (h : t.ListsOnce) {p : Pending} {met : List Visit} {inner : List Pending} :
    t.Meets p met inner ↔ t.step p = (met, inner) := by
  constructor
  · intro hmeets
    cases hmeets with
    | lost leads => rw [step, leads]
    | loop leads inside =>
      rw [step, leads]
      simp only [Bool.true_and, inside]
    | closed leads outside stays =>
      rw [step, leads]
      simp only [find?_eq_none_iff.mpr outside, list, stays]
    | @directory linked l found inner leads outside opens lists =>
      obtain ⟨listed, hlist, hlists⟩ := list_eq h opens l
      rw [step, leads]
      simp only [find?_eq_none_iff.mpr outside, hlist, hlists.unique lists]
    | @other linked l e leads plain =>
      rw [step, leads]
      cases e with
      | directory => exact absurd rfl plain
      | file content | link target | unreadable | special => rfl
  · intro hstep
    rw [step] at hstep
    rcases leads : t.follow p.path p.location p.entry with reason | ⟨linked, l, e⟩
    · rw [leads] at hstep
      cases hstep
      exact .lost leads
    · rw [leads] at hstep
      cases e with
      | directory =>
        rcases hloop : p.around.find? (fun a => linked && a.location == l) with _ | a
        · have outside := find?_eq_none_iff.mp hloop
          rcases hstat : t.stat p.path with reason | found
          · simp only [hloop, list, hstat] at hstep
            cases hstep
            exact .closed leads outside hstat
          · obtain ⟨listed, hlist, hlists⟩ := list_eq h hstat l
            simp only [hloop, hlist] at hstep
            cases hstep
            exact .directory leads outside hstat hlists
        · simp only [hloop] at hstep
          cases hstep
          cases linked with
          | false =>
            rw [find?_eq_none_iff.mpr fun h => Bool.noConfusion h] at hloop
            cases hloop
          | true =>
            simp only [Bool.true_and] at hloop
            exact .loop leads hloop
      | file content | link target | unreadable | special =>
        cases hstep
        exact .other leads fun h => Entry.noConfusion h

/-! ### The visits of a walk -/

/-- A walk has no choice. -/
theorem Visits.unique (h : t.ListsOnce) {pending : List Pending} {visits : List Visit}
    (hvisits : t.Visits pending visits) :
    ∀ {visits'}, t.Visits pending visits' → visits = visits' := by
  induction hvisits with
  | done =>
    intro visits' hother
    cases hother
    rfl
  | next meets goesOn ih =>
    intro visits' hother
    cases hother with
    | next meets' goesOn' =>
      have hstep := (meets_iff h).mp meets
      rw [(meets_iff h).mp meets'] at hstep
      obtain ⟨rfl, rfl⟩ := Prod.mk.inj hstep
      rw [ih goesOn']

/-- What is pending is visited in order. -/
theorem visits_flatMap {depth : Nat} {pending : List Pending} {visits : List Visit} :
    (inner : List Pending) →
      (∀ q ∈ inner, ∀ {later after}, t.Visits later after →
        t.Visits (q :: later) (t.walkBelow depth q ++ after)) →
      t.Visits pending visits →
      t.Visits (inner ++ pending) (inner.flatMap (t.walkBelow depth) ++ visits)
  | [], _, hlater => hlater
  | q :: inner, hinner, hlater => by
      obtain ⟨hfirst, hrest⟩ := List.forall_mem_cons.mp hinner
      have ih := visits_flatMap inner hrest hlater
      rw [List.flatMap_cons, List.append_assoc]
      exact hfirst ih

/-! ### How deep a walk goes -/

/-- Whether what is known of a pending path is so. -/
structure Pending.Sound (t : FileTree) (p : Pending) : Prop where
  entry : t.entry? p.location = some p.entry
  place : (∀ target, p.entry ≠ .link target) → t.locate .target p.path = .ok (.present p.location)
  around : ∀ a ∈ p.around, t.Stands a.location
  inside : ∀ a ∈ p.around.head?, p.location.length = a.location.length + 1

/-- How many levels a walk can still go down inside some directories: as often as it can go through
links to other directories, each time as deep as there are entries. -/
def levelsLeft (t : FileTree) (around : List Ancestor) : Nat :=
  (t.entries.length + 1 - (around.map Ancestor.location).toFinset.card) * (t.entries.length + 2) +
    (t.entries.length + 1 - (around.head?.map fun a => a.location.length).getD 0)

theorem levelsLeft_nil (t : FileTree) : t.levelsLeft [] < t.maxDepth := by
  unfold levelsLeft maxDepth
  rw [Nat.succ_mul (t.entries.length + 1)]
  exact Nat.add_lt_add_left (Nat.lt_succ_self _) _

/-- The initial segments of a location differ. -/
theorem nodup_inits : (l : Location) → l.inits.Nodup
  | [] => List.nodup_singleton []
  | name :: l => by
      rw [List.inits_cons, List.nodup_cons]
      exact ⟨by simp, (nodup_inits l).map List.cons_injective⟩

theorem mem_of_stands (h : t.ListsOnce) {l : Location} (hl : t.Stands l) :
    l ∈ [] :: t.entries.map Prod.fst := by
  by_cases hroot : l = []
  · rw [hroot]
    exact List.mem_cons_self
  · obtain ⟨e, he, -⟩ := hl.entry
    exact List.mem_cons_of_mem _ (List.mem_map.mpr ⟨_, (entry?_eq_some_iff h hroot).mp he, rfl⟩)

/-- There are entries all along the way to a location among directories. -/
theorem Stands.length_le (h : t.ListsOnce) {l : Location} (hl : t.Stands l) :
    l.length ≤ t.entries.length := by
  have hsubset : l.inits ⊆ [] :: t.entries.map Prod.fst := by
    intro k hk
    exact mem_of_stands h (hl.of_prefix ((List.mem_inits k l).mp hk))
  have hlength := ((nodup_inits l).subperm hsubset).length_le
  simpa using hlength

/-- What is not followed stays where it is. -/
theorem location_of_follow {path : Text} {l k : Location} {e e' : Entry}
    (h : t.follow path l e = .ok (false, k, e')) : k = l := by
  cases e with
  | link target =>
    unfold follow at h
    rcases hstat : t.stat path with reason | found
    · rw [hstat] at h
      cases h
    · rw [hstat] at h
      cases h
  | directory | file content | unreadable | special =>
    cases h
    rfl

/-- Inside one more directory there are fewer levels left: it is a new one, or it is one level below
the innermost. -/
theorem Pending.Sound.levelsLeft_lt (honce : t.ListsOnce) {p : Pending} (hp : p.Sound t)
    {linked : Bool} {l : Location} {e : Entry}
    (leads : t.follow p.path p.location p.entry = .ok (linked, l, e))
    (outside : linked = true → ∀ a ∈ p.around, a.location ≠ l) (hl : t.Stands l) :
    t.levelsLeft (⟨p.path, l⟩ :: p.around) < t.levelsLeft p.around := by
  unfold levelsLeft
  rw [List.map_cons, List.toFinset_cons, List.head?_cons, Option.map_some, Option.getD_some]
  by_cases hnew : l ∈ (p.around.map Ancestor.location).toFinset
  · rw [Finset.insert_eq_of_mem hnew]
    obtain ⟨a, ha, hal⟩ := List.mem_map.mp (List.mem_toFinset.mp hnew)
    have hunlinked : linked = false := by
      by_contra hlinked
      exact outside (by simpa using hlinked) a ha hal
    rw [hunlinked] at leads
    obtain rfl := location_of_follow leads
    rcases hhead : p.around with _ | ⟨b, around⟩
    · rw [hhead] at ha
      cases ha
    · have hb := (hp.around b (by rw [hhead]; exact List.mem_cons_self)).length_le honce
      have hinside := hp.inside b (by rw [hhead]; rfl)
      rw [List.head?_cons, Option.map_some, Option.getD_some, hinside]
      omega
  · have hcount : (insert l (p.around.map Ancestor.location).toFinset).card ≤
        t.entries.length + 1 := by
      have hsubset : insert l (p.around.map Ancestor.location).toFinset ⊆
          ([] :: t.entries.map Prod.fst).toFinset := by
        intro k hk
        rw [List.mem_toFinset]
        rcases Finset.mem_insert.mp hk with rfl | hk
        · exact mem_of_stands honce hl
        · obtain ⟨a, ha, rfl⟩ := List.mem_map.mp (List.mem_toFinset.mp hk)
          exact mem_of_stands honce (hp.around a ha)
      have hlength := (Finset.card_le_card hsubset).trans (List.toFinset_card_le _)
      simpa using hlength
    rw [Finset.card_insert_of_notMem hnew] at hcount ⊢
    -- One directory less is left to go to, and below it there are no more levels than entries.
    have hfewer : t.entries.length + 1 - (p.around.map Ancestor.location).toFinset.card =
        t.entries.length + 1 - ((p.around.map Ancestor.location).toFinset.card + 1) + 1 := by
      omega
    rw [hfewer, Nat.succ_mul]
    omega

/-- What is known of a path is known of what is to be visited below it, where there are fewer levels
left. -/
theorem Meets.sound (h : t.IsWellFormed) (honce : t.ListsOnce) {p : Pending} {met : List Visit}
    {inner : List Pending} (hmeets : t.Meets p met inner) (hp : p.Sound t) :
    ∀ q ∈ inner, q.Sound t ∧ t.levelsLeft q.around < t.levelsLeft p.around := by
  cases hmeets with
  | lost | loop | closed | other => exact fun q hq => absurd hq List.not_mem_nil
  | @directory linked l found inner leads outside opens lists =>
    obtain ⟨hplace, hentry⟩ := locate_of_follow hp.entry hp.place leads
    have hdirectory := isDirectoryAt_iff.mpr hentry
    have hstands := h.stands_of_locate hplace
    intro q hq
    obtain ⟨⟨name, e⟩, hx, rfl⟩ := List.mem_map.mp hq
    have he := (lists.mem_iff name e).mp hx
    refine ⟨⟨he, h.locate_join hplace hdirectory he, ?_, ?_⟩, hp.levelsLeft_lt honce leads outside hstands⟩
    · exact List.forall_mem_cons.mpr ⟨hstands, hp.around⟩
    · intro a ha
      obtain rfl := Option.some.inj ha
      exact List.length_append

/-- The visits that are made as deep as there are levels left are all. -/
theorem visits_walkBelow (h : t.IsWellFormed) (honce : t.ListsOnce) :
    (depth : Nat) → ∀ {p : Pending}, p.Sound t → t.levelsLeft p.around < depth →
      ∀ {pending visits}, t.Visits pending visits →
        t.Visits (p :: pending) (t.walkBelow depth p ++ visits)
  | 0, _, _, hdepth, _, _, _ => absurd hdepth (Nat.not_lt_zero _)
  | depth + 1, p, hp, hdepth, pending, visits, hlater => by
      have hmeets : t.Meets p (t.step p).1 (t.step p).2 := (meets_iff honce).mpr rfl
      rw [walkBelow_succ, List.append_assoc]
      refine .next hmeets (visits_flatMap _ (fun q hq later after hafter => ?_) hlater)
      obtain ⟨hq, hless⟩ := hmeets.sound h honce hp q hq
      exact visits_walkBelow h honce depth hq
        (Nat.lt_of_lt_of_le hless (Nat.le_of_lt_succ hdepth)) hafter

/-- A path has one walk. -/
theorem Walks.unique (h : t.ListsOnce) {path : Text} {visits visits' : List Visit}
    (hwalks : t.Walks path visits) (hwalks' : t.Walks path visits') : visits = visits' := by
  cases hwalks with
  | missing absent =>
    cases hwalks' with
    | missing absent' =>
      rw [absent] at absent'
      cases absent'
      rfl
    | starts present goesOn =>
      rw [absent] at present
      cases present
  | starts present goesOn =>
    cases hwalks' with
    | missing absent =>
      rw [present] at absent
      cases absent
    | starts present' goesOn' =>
      rw [present] at present'
      cases present'
      exact goesOn.unique h goesOn'

/-- **The visits of a walk** are those that its rules allow, and no others. -/
theorem walks_iff (h : t.IsWellFormed) (honce : t.ListsOnce) {path : Text} {visits : List Visit} :
    t.Walks path visits ↔ visits = t.walk path := by
  have hwalks : t.Walks path (t.walk path) := by
    unfold walk
    rcases hstat : t.lstat path with reason | ⟨l, e⟩
    · exact .missing hstat
    · obtain ⟨he, hplace⟩ := locate_of_lstat hstat
      have hsound : Pending.Sound t ⟨[], path, l, e⟩ :=
        ⟨he, hplace, fun a ha => absurd ha List.not_mem_nil, fun a ha => absurd ha (by simp)⟩
      have hvisits := visits_walkBelow h honce t.maxDepth hsound t.levelsLeft_nil .done
      rw [List.append_nil] at hvisits
      exact .starts hstat hvisits
  constructor
  · intro hvisits
    exact hvisits.unique honce hwalks
  · rintro rfl
    exact hwalks

/-! ### Trees with the same entries -/

theorem Agrees.follow_eq (h : Agrees t t') (path : Text) (l : Location) (e : Entry) :
    t'.follow path l e = t.follow path l e := by
  cases e with
  | link target => rw [follow, follow, stat, stat, h.lookup_eq]
  | directory | file content | unreadable | special => rfl

theorem Lists.of_agrees (h : Agrees t t') {l : Location} {inner : List (Text × Entry)}
    (hlists : t.Lists l inner) : t'.Lists l inner :=
  ⟨hlists.ascending, fun name e => by rw [h.entry]; exact hlists.mem_iff name e⟩

theorem Meets.of_agrees (h : Agrees t t') {p : Pending} {met : List Visit} {inner : List Pending}
    (hmeets : t.Meets p met inner) : t'.Meets p met inner := by
  cases hmeets with
  | lost leads => exact .lost ((h.follow_eq _ _ _).trans leads)
  | loop leads inside => exact .loop ((h.follow_eq _ _ _).trans leads) inside
  | closed leads outside stays =>
    exact .closed ((h.follow_eq _ _ _).trans leads) outside ((h.lookup_eq _ _).trans stays)
  | directory leads outside opens lists =>
    exact .directory ((h.follow_eq _ _ _).trans leads) outside ((h.lookup_eq _ _).trans opens)
      (lists.of_agrees h)
  | other leads plain => exact .other ((h.follow_eq _ _ _).trans leads) plain

theorem Visits.of_agrees (h : Agrees t t') {pending : List Pending} {visits : List Visit}
    (hvisits : t.Visits pending visits) : t'.Visits pending visits := by
  induction hvisits with
  | done => exact .done
  | next meets goesOn ih => exact .next (meets.of_agrees h) ih

theorem Walks.of_agrees (h : Agrees t t') {path : Text} {visits : List Visit}
    (hwalks : t.Walks path visits) : t'.Walks path visits := by
  cases hwalks with
  | missing absent => exact .missing ((h.lookup_eq _ _).trans absent)
  | starts present goesOn =>
    exact .starts ((h.lookup_eq _ _).trans present) (goesOn.of_agrees h)

/-- **The order in which entries were made** does not matter to a walk. -/
theorem walk_eq_of_perm (h : t.IsWellFormed) (honce : t.ListsOnce)
    (hcurrent : t'.current = t.current) (hperm : t'.entries.Perm t.entries) (path : Text) :
    t'.walk path = t.walk path := by
  obtain ⟨honce', hagrees⟩ := agrees_of_perm honce hcurrent hperm
  have hwalks : t'.Walks path (t.walk path) := ((walks_iff h honce).mpr rfl).of_agrees hagrees
  exact ((walks_iff (h.of_perm hagrees hperm) honce').mp hwalks).symm

end FileTree

end DataSourceGen
