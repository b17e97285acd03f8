import DataSourceGen.Generation

/-!
# Binding the fields of a query

The accessors of a query hold a path for each of its fields, and paths of one flat name do not
differ. So binding the fields through them cannot fail, and although it looks paths up by name, each
field gets its own accessor (`bind_accessors`). Generation therefore fails only where reading does
(`generate_of_parse`).
-/

namespace DataSourceGen

namespace Query

/-- The attribute that a field of a query becomes. -/
def attributeOf (q : Query) (f : Field) : Attribute where
  name := f.flatName
  expression := (q.accessor f.flatName).expression
  scalar := f.scalar

/-- The data source that a query becomes. -/
def dataSource (q : Query) : DataSource where
  queryName := q.operationName
  objectName := q.rootName
  parameter? := q.parameter?.filter (!·.isEmpty)
  structName := q.structName
  attributes := q.fields.map q.attributeOf

/-- Among the accessors of some fields, the last path of a flat name is its accessor, if a field has
this name. -/
theorem lastExpression?_map_accessor (q : Query) (name : Text) :
    (fields : List Field) →
      lastExpression? name (fields.map fun f => q.accessor f.flatName) =
        if name ∈ fields.map Field.flatName then some (q.accessor name).expression else none
  | [] => rfl
  | f :: rest => by
      rw [List.map_cons, lastExpression?, lastExpression?_map_accessor q name rest, List.map_cons]
      by_cases hrest : name ∈ rest.map Field.flatName
      · rw [if_pos hrest, if_pos (List.mem_cons_of_mem _ hrest)]
      · rw [if_neg hrest]
        by_cases hname : f.flatName = name
        · subst hname
          rw [if_pos List.mem_cons_self]
          exact if_pos rfl
        · have hnot : name ∉ f.flatName :: rest.map Field.flatName :=
            List.not_mem_cons_of_ne_of_not_mem (Ne.symm hname) hrest
          rw [if_neg hnot]
          exact if_neg hname

/-- Through the accessors of its query, a field gets its own. -/
theorem bind_of_mem {q : Query} {f : Field} (h : f ∈ q.fields) :
    f.bind q.accessors = .ok (q.attributeOf f) := by
  unfold Field.bind accessors
  rw [lastExpression?_map_accessor, if_pos (List.mem_map_of_mem h)]
  rfl

/-- Steps that all succeed give the list of their results. -/
theorem mapM_eq_ok {α β ε : Type} {step : α → Except ε β} {result : α → β} :
    (as : List α) → (∀ a ∈ as, step a = .ok (result a)) → as.mapM step = .ok (as.map result)
  | [], _ => rfl
  | a :: rest, h => by
      have hrest := mapM_eq_ok rest fun b hb => h b (List.mem_cons_of_mem a hb)
      rw [List.mapM_cons, h a List.mem_cons_self, hrest]
      rfl

/-- **Binding**: the accessors of a query bind each of its fields to its own accessor. -/
theorem bind_accessors (q : Query) : DataSource.bind q q.accessors = .ok q.dataSource := by
  unfold DataSource.bind
  rw [mapM_eq_ok q.fields fun f hf => bind_of_mem hf]
  rfl

/-- What is generated for a query. -/
theorem generate_eq (q : Query) :
    q.generate = .ok { operationName := q.operationName, source := q.dataSource.source } := by
  unfold generate emit
  rw [bind_accessors]
  rfl

end Query

/-- What is generated for an accepted document. -/
theorem generate_of_parse {depth : Nat} {document : Text} {q : Query}
    (h : Query.parse depth document = .ok q) :
    generate depth document =
      .ok { operationName := q.operationName, source := q.dataSource.source } := by
  unfold generate
  rw [h]
  exact q.generate_eq

/-- Generation succeeds where reading does, with the source of the query. -/
theorem generate_eq_ok_iff {depth : Nat} {document : Text} {g : Generated} :
    generate depth document = .ok g ↔
      ∃ q, Query.parse depth document = .ok q ∧
        g = { operationName := q.operationName, source := q.dataSource.source } := by
  constructor
  · intro h
    rcases hparse : Query.parse depth document with reason | q
    · rw [generate, hparse] at h
      cases h
    · rw [generate_of_parse hparse] at h
      exact ⟨q, rfl, (Except.ok.inj h).symm⟩
  · rintro ⟨q, hparse, rfl⟩
    exact generate_of_parse hparse

end DataSourceGen
