import DataSourceGen.DataSource.GoSource

/-!
# What emission takes from the paths

A source is emitted for a query through a list of accessor paths, and a field is looked up in the
list by its flat name. Of the paths for a flat name only the last one is taken
(`lastExpression?_eq`), so that lists with the same last path for each field bind the fields alike,
whatever else they have (`DataSource.bind_congr`). A field without a path ends the binding, and the
first of them in the order of the fields is the one that is reported (`DataSource.bind_of_unbound`).

**Theorem** (`emit_of_lastPaths`) says so of the emission. -/

namespace DataSourceGen

open Text

/-! ### The paths for a flat name -/

/-- Whether a list has a path for a flat name. -/
def HasPath (paths : List AccessorPath) (flatName : Text) : Prop :=
  ∃ p ∈ paths, p.flatName = flatName

/-- The last path for a flat name in a list. -/
def lastPath? (paths : List AccessorPath) (flatName : Text) : Option AccessorPath :=
  (paths.filter (·.flatName == flatName)).getLast?

/-- **The last path counts**: what is looked up is the expression of the last path for the flat
name. -/
theorem lastExpression?_eq (flatName : Text) :
    (paths : List AccessorPath) →
      lastExpression? flatName paths = (lastPath? paths flatName).map AccessorPath.expression
  | [] => rfl
  | p :: paths => by
      have ih := lastExpression?_eq flatName paths
      unfold lastPath? at ih
      rw [lastExpression?, ih, lastPath?]
      by_cases hp : p.flatName = flatName
      · rw [List.filter_cons_of_pos (by simpa using hp), List.getLast?_cons, if_pos hp]
        cases (paths.filter (·.flatName == flatName)).getLast? with
        | none => rfl
        | some last => rfl
      · rw [List.filter_cons_of_neg (by simpa using hp), if_neg hp]
        cases (paths.filter (·.flatName == flatName)).getLast? with
        | none => rfl
        | some last => rfl

/-- There is a last path for a flat name iff there is one at all. -/
theorem lastPath?_eq_none_iff {paths : List AccessorPath} {flatName : Text} :
    lastPath? paths flatName = none ↔ ¬ HasPath paths flatName := by
  rw [lastPath?, List.getLast?_eq_none_iff, List.filter_eq_nil_iff]
  simp [HasPath]

/-! ### Binding the fields -/

namespace Field

variable {paths : List AccessorPath} {f : Field}

/-- A field with a path is bound. -/
theorem exists_bind_of_hasPath (h : HasPath paths f.flatName) : ∃ a, f.bind paths = .ok a := by
  unfold bind
  rw [lastExpression?_eq]
  rcases hlast : lastPath? paths f.flatName with _ | p
  · exact absurd h (lastPath?_eq_none_iff.mp hlast)
  · exact ⟨_, rfl⟩

/-- A field without a path is reported. -/
theorem bind_of_not_hasPath (h : ¬ HasPath paths f.flatName) :
    f.bind paths = .error (.missingAccessorPath f.flatName) := by
  unfold bind
  rw [lastExpression?_eq, lastPath?_eq_none_iff.mpr h]
  rfl

/-- The last paths for the flat name of a field decide how it is bound. -/
theorem bind_congr {paths' : List AccessorPath}
    (h : lastPath? paths' f.flatName = lastPath? paths f.flatName) :
    f.bind paths' = f.bind paths := by
  unfold bind
  rw [lastExpression?_eq, lastExpression?_eq, h]

end Field

/-! ### Steps that may fail -/

section Steps

variable {α β ε : Type} {step step' : α → Except ε β}

/-- Steps that are the same for all members of a list have the same results. -/
theorem mapM_congr :
    (as : List α) → (∀ a ∈ as, step a = step' a) → as.mapM step = as.mapM step'
  | [], _ => rfl
  | a :: as, h => by
      obtain ⟨ha, has⟩ := List.forall_mem_cons.mp h
      rw [List.mapM_cons, List.mapM_cons, ha, mapM_congr as has]

/-- Steps that all succeed have a list of results. -/
theorem exists_mapM_eq_ok :
    (as : List α) → (∀ a ∈ as, ∃ b, step a = .ok b) → ∃ bs, as.mapM step = .ok bs
  | [], _ => ⟨[], rfl⟩
  | a :: as, h => by
      obtain ⟨⟨b, hb⟩, has⟩ := List.forall_mem_cons.mp h
      obtain ⟨bs, hbs⟩ := exists_mapM_eq_ok as has
      refine ⟨b :: bs, ?_⟩
      rw [List.mapM_cons, hb, hbs]
      rfl

/-- The first step that fails ends the others, with its reason. -/
theorem mapM_append_cons_eq_error {a : α} {after : List α} {reason : ε}
    (ha : step a = .error reason) :
    (before : List α) → (∀ b ∈ before, ∃ result, step b = .ok result) →
      (before ++ a :: after).mapM step = .error reason
  | [], _ => by
      rw [List.nil_append, List.mapM_cons, ha]
      rfl
  | b :: before, h => by
      obtain ⟨⟨result, hb⟩, hbefore⟩ := List.forall_mem_cons.mp h
      rw [List.cons_append, List.mapM_cons, hb, mapM_append_cons_eq_error ha before hbefore]
      rfl

end Steps

/-! ### Binding a query -/

namespace DataSource

variable {q : Query} {paths : List AccessorPath}

/-- A query is bound if each field has a path. -/
theorem exists_bind_of_hasPath (h : ∀ f ∈ q.fields, HasPath paths f.flatName) :
    ∃ d, bind q paths = .ok d := by
  obtain ⟨attributes, hattributes⟩ :=
    exists_mapM_eq_ok q.fields fun f hf => Field.exists_bind_of_hasPath (h f hf)
  unfold bind
  rw [hattributes]
  exact ⟨_, rfl⟩

/-- The first field without a path is reported. -/
theorem bind_of_unbound {before after : List Field} {f : Field}
    (hfields : q.fields = before ++ f :: after)
    (hbefore : ∀ g ∈ before, HasPath paths g.flatName) (hf : ¬ HasPath paths f.flatName) :
    bind q paths = .error (.missingAccessorPath f.flatName) := by
  rw [bind, hfields, mapM_append_cons_eq_error (Field.bind_of_not_hasPath hf) before fun g hg =>
    Field.exists_bind_of_hasPath (hbefore g hg)]
  rfl

/-- Lists with the same last path for each field bind a query alike. -/
theorem bind_congr {paths' : List AccessorPath}
    (h : ∀ f ∈ q.fields, lastPath? paths' f.flatName = lastPath? paths f.flatName) :
    bind q paths' = bind q paths := by
  rw [bind, bind, mapM_congr q.fields fun f hf => Field.bind_congr (h f hf)]

end DataSource

/-- If some field has no path, then there is a first one. -/
theorem exists_first_unbound {paths : List AccessorPath} :
    (fields : List Field) → (∃ f ∈ fields, ¬ HasPath paths f.flatName) →
      ∃ before f after, fields = before ++ f :: after ∧
        (∀ g ∈ before, HasPath paths g.flatName) ∧ ¬ HasPath paths f.flatName
  | [], h => by
      obtain ⟨f, hf, -⟩ := h
      cases hf
  | g :: fields, h => by
      by_cases hg : HasPath paths g.flatName
      · have hrest : ∃ f ∈ fields, ¬ HasPath paths f.flatName := by
          obtain ⟨f, hf, hpath⟩ := h
          rcases List.mem_cons.mp hf with rfl | hf
          · exact absurd hg hpath
          · exact ⟨f, hf, hpath⟩
        obtain ⟨before, f, after, rfl, hbefore, hf⟩ := exists_first_unbound fields hrest
        exact ⟨g :: before, f, after, rfl, List.forall_mem_cons.mpr ⟨hg, hbefore⟩, hf⟩
      · exact ⟨[], g, fields, rfl, fun b hb => absurd hb List.not_mem_nil, hg⟩

/-! ### Emission -/

/-- Emission fails with a reason iff this is that the first field without a path has none. -/
theorem emit_eq_error_iff {q : Query} {paths : List AccessorPath} {reason : EmitError} :
    emit q paths = .error reason ↔
      ∃ before f after, q.fields = before ++ f :: after ∧
        (∀ g ∈ before, HasPath paths g.flatName) ∧ ¬ HasPath paths f.flatName ∧
        reason = .missingAccessorPath f.flatName := by
  constructor
  · intro h
    by_cases hunbound : ∃ f ∈ q.fields, ¬ HasPath paths f.flatName
    · obtain ⟨before, f, after, hfields, hbefore, hf⟩ := exists_first_unbound q.fields hunbound
      rw [emit, DataSource.bind_of_unbound hfields hbefore hf] at h
      exact ⟨before, f, after, hfields, hbefore, hf, (Except.error.inj h).symm⟩
    · have hall : ∀ f ∈ q.fields, HasPath paths f.flatName :=
        fun f hf => Classical.not_not.mp fun hpath => hunbound ⟨f, hf, hpath⟩
      obtain ⟨d, hd⟩ := DataSource.exists_bind_of_hasPath hall
      rw [emit, hd] at h
      cases h
  · rintro ⟨before, f, after, hfields, hbefore, hf, rfl⟩
    rw [emit, DataSource.bind_of_unbound hfields hbefore hf]
    rfl

/-- **Emission takes the last path of each field**: it fails iff some field has no path, and the
reason is then that of the first such field in the order of the fields, in whatever order the paths
are. Two lists that have the same last path for each field have the same result. -/
theorem emit_of_lastPaths (q : Query) (paths : List AccessorPath) :
    ((∃ reason, emit q paths = .error reason) ↔ ∃ f ∈ q.fields, ¬ HasPath paths f.flatName) ∧
    (∀ reason, emit q paths = .error reason ↔
      ∃ before f after, q.fields = before ++ f :: after ∧
        (∀ g ∈ before, HasPath paths g.flatName) ∧ ¬ HasPath paths f.flatName ∧
        reason = .missingAccessorPath f.flatName) ∧
    ∀ paths', (∀ f ∈ q.fields, lastPath? paths' f.flatName = lastPath? paths f.flatName) →
      emit q paths' = emit q paths := by
  refine ⟨?_, fun reason => emit_eq_error_iff, ?_⟩
  · constructor
    · rintro ⟨reason, h⟩
      obtain ⟨before, f, after, hfields, -, hf, -⟩ := emit_eq_error_iff.mp h
      exact ⟨f, hfields ▸ List.mem_append_right before List.mem_cons_self, hf⟩
    · intro h
      obtain ⟨before, f, after, hfields, hbefore, hf⟩ := exists_first_unbound q.fields h
      exact ⟨_, emit_eq_error_iff.mpr ⟨before, f, after, hfields, hbefore, hf, rfl⟩⟩
  · intro paths' h
    rw [emit, emit, DataSource.bind_congr h]

/-- A collection with two fields. -/
def hostListQuery : Query where
  operationName := "hosts"
  rootName := "Host"
  shape := .collection
  fields := [{ flatName := "edges_id" }, { flatName := "edges_name" }]
  compounds := .empty

/-- Without a path for the first field it is reported, and a path for another name, a repetition and
another order of the names make no difference. -/
theorem emit_of_lastPaths_hostListQuery :
    emit hostListQuery [⟨"edges_name", "Host.Name"⟩] = .error (.missingAccessorPath "edges_id") ∧
    emit hostListQuery [⟨"zip", "Zip"⟩, ⟨"edges_name", "Host.Name"⟩, ⟨"edges_id", "Host.Id"⟩] =
      emit hostListQuery
        [⟨"edges_id", "Old"⟩, ⟨"edges_id", "Host.Id"⟩, ⟨"edges_name", "Host.Name"⟩] := by
  constructor
  · obtain ⟨-, hreason, -⟩ := emit_of_lastPaths hostListQuery [⟨"edges_name", "Host.Name"⟩]
    refine (hreason _).mpr ⟨[], { flatName := "edges_id" }, [{ flatName := "edges_name" }], rfl,
      fun g hg => absurd hg List.not_mem_nil, ?_, rfl⟩
    rintro ⟨p, hp, hname⟩
    rw [List.mem_singleton.mp hp] at hname
    exact absurd hname (by decide)
  · obtain ⟨-, -, hsame⟩ := emit_of_lastPaths hostListQuery
      [⟨"edges_id", "Old"⟩, ⟨"edges_id", "Host.Id"⟩, ⟨"edges_name", "Host.Name"⟩]
    apply hsame
    intro f hf
    rcases List.mem_cons.mp hf with rfl | hf
    · decide
    · rw [List.mem_singleton.mp hf]
      decide

end DataSourceGen
