import DataSourceGen.Proofs.DataSource.Faithful

/-!
# What the fields of a source are assigned

The method that reads the data assigns each field an expression of the answer. The assignments stand
together there, in the order of the fields (`assignments_standsIn_read`).

**Theorem** (`generate_binds_accessors`): a document fails to give a source only where it states no
query, for want of an operation name. In the source that it gives otherwise, the expression assigned
to a field is the answer followed by the accessor of this field. -/

namespace DataSourceGen

open Text

/-! ### The place of the assignments -/

namespace LookupShape

/-- The numbers of lines of the method that reads the data before and after the assignments of the
fields. -/
def aroundAssignments : LookupShape → Nat × Nat
  | .single _ => (30, 9)
  | .collection => (23, 11)

end LookupShape

namespace DataSource

variable {d : DataSource}

/-- The assignment of the parameter comes before those of the fields. -/
theorem assignments_standsIn_single {p : Text} (hp : d.parameter? = some p) :
    StandsIn (indentBy 2 d.assignments) d.read 30 9 := by
  have hfields : StandsIn (indent d.assignments) d.assignmentBlock 2 1 := by
    simp only [assignmentBlock, assignmentLines, shape, hp, LookupShape.ofParameter?,
      Option.toList_some, List.map_cons, List.map_nil]
    exact ((StandsIn.refl d.assignments).after_lines [_]).enclose _ _
  exact (hfields.trans (assignmentBlock_standsIn_single hp)).indent.trans results_standsIn

/-- In a collection, only the fields are assigned. -/
theorem assignments_standsIn_collection (hp : d.parameter? = none) :
    StandsIn (indentBy 3 d.assignments) d.read 23 11 := by
  have hfields : StandsIn (indent d.assignments) d.assignmentBlock 1 1 := by
    simp only [assignmentBlock, assignmentLines, shape, hp, LookupShape.ofParameter?,
      Option.toList_none, List.map_nil, List.nil_append]
    exact (StandsIn.refl d.assignments).enclose _ _
  exact (hfields.indent.trans (assignmentBlock_standsIn_collection hp)).indent.trans
    results_standsIn

/-- **The place of the assignments**: they stand together in the method that reads the data, at a
place and a level that depend on the shape only. -/
theorem assignments_standsIn_read (d : DataSource) :
    StandsIn (indentBy (d.shape.frame.assignmentLevel + 1) d.assignments) d.read
      d.shape.aroundAssignments.1 d.shape.aroundAssignments.2 := by
  rcases hp : d.parameter? with _ | p
  · rw [shape_of_none hp]
    exact assignments_standsIn_collection hp
  · rw [shape_of_some hp]
    exact assignments_standsIn_single hp

end DataSource

/-! ### Generation -/

/-- Generation fails only where reading does, and for its reason. -/
theorem generate_eq_error_iff {depth : Nat} {document : Text} {reason : GenerateError} :
    generate depth document = .error reason ↔
      reason = .parse .missingQueryName ∧
        Query.parse depth document = .error .missingQueryName := by
  rcases hparse : Query.parse depth document with ⟨⟨⟩⟩ | q
  · rw [generate, hparse]
    constructor
    · intro h
      exact ⟨(Except.error.inj h).symm, rfl⟩
    · rintro ⟨rfl, -⟩
      rfl
  · rw [generate_of_parse hparse]
    constructor
    · intro h
      cases h
    · rintro ⟨-, h⟩
      cases h

/-- **Binding**: generation fails iff the document states no query, for want of an operation name,
and then for this reason. Otherwise the method that reads the data assigns the fields one after
another, in order, each to the answer followed by its own accessor. -/
theorem generate_binds_accessors (depth : Nat) (document : Text) :
    (∀ reason, generate depth document = .error reason ↔
      reason = .parse .missingQueryName ∧
        Query.parse depth document = .error .missingQueryName) ∧
    ∀ g, generate depth document = .ok g →
      ∃ q head tail, Query.parse depth document = .ok q ∧
        pieces g.source = (head ++ q.dataSource.read ++ tail).map (· ++ ['\n']) ∧
        StandsIn
          (indentBy (q.shape.frame.assignmentLevel + 1)
            (q.fields.map fun f =>
              capitalizeFirst f.flatName ++ ": " ++ f.scalar.valueConstructor ++ "(response." ++
                (q.accessor f.flatName).expression ++ "),"))
          q.dataSource.read q.shape.aroundAssignments.1 q.shape.aroundAssignments.2 := by
  refine ⟨fun reason => generate_eq_error_iff, ?_⟩
  intro g h
  obtain ⟨q, hparse, rfl⟩ := generate_eq_ok_iff.mp h
  obtain ⟨head, tail, hpieces⟩ :=
    (Query.isOnOneLine_dataSource hparse).exists_pieces_eq q.dataSource.read (by simp)
  refine ⟨q, head, tail, hparse, hpieces, ?_⟩
  have hstands := q.dataSource.assignments_standsIn_read
  rw [Query.shape_dataSource hparse, DataSource.assignments, Query.dataSource, List.map_map]
    at hstands
  exact hstands

/-- A query for a field of the same name in two blocks. -/
def twoAddressesDocument : Text :=
  "query Hosts \x7b\nHost \x7b\nedges \x7b\nprimary_address \x7b\nid\n\x7d\naddress \x7b\nid\n"

/-- Each of the two fields gets its own accessor; without the first line, there is no source. -/
theorem generate_binds_accessors_twoAddressesDocument :
    generate 1 "Host \x7b\n" = .error (.parse .missingQueryName) ∧
    ∃ q g, Query.parse 1 twoAddressesDocument = .ok q ∧ generate 1 twoAddressesDocument = .ok g ∧
      q.dataSource.read[23]? = some ("\t\t\tEdges_primary_address_id: " ++
        "types.StringValue(response.Host.Edges[i].Primary_address.Id),").toList ∧
      q.dataSource.read[24]? = some ("\t\t\tEdges_address_id: " ++
        "types.StringValue(response.Host.Edges[i].Address.Id),").toList := by
  have unnamed : Query.parse 1 "Host \x7b\n" = .error .missingQueryName := by
    have hreading : Reading.ofDocument 1 "Host \x7b\n" =
        { openBlocks := ["Host".toList], lead := "Host_" } := rfl
    rw [Query.parse, hreading]
    rfl
  refine ⟨((generate_binds_accessors 1 _).1 _).mpr ⟨rfl, unnamed⟩, ?_⟩
  have reading : Reading.ofDocument 1 twoAddressesDocument =
      { operationName := some "hosts".toList
        rootName := "Host"
        openBlocks := ["address".toList, "edges".toList]
        lead := "edges_address_"
        fields := [{ flatName := "edges_primary_address_id" }, { flatName := "edges_address_id" }]
        flatNames := .ofList ["edges_primary_address_id".toList, "edges_address_id".toList]
        compounds := .ofList ["primary_address".toList] } := rfl
  have hparse : Query.parse 1 twoAddressesDocument = .ok {
      operationName := "hosts"
      rootName := "Host"
      shape := .collection
      fields := [{ flatName := "edges_primary_address_id" }, { flatName := "edges_address_id" }]
      compounds := .ofList ["primary_address".toList] } := by
    rw [Query.parse, reading]
    rfl
  have hgenerate := generate_of_parse hparse
  refine ⟨_, _, hparse, hgenerate, ?_⟩
  obtain ⟨q, -, -, hq, -, hstands⟩ := (generate_binds_accessors 1 _).2 _ hgenerate
  obtain rfl := Except.ok.inj (hparse.symm.trans hq)
  constructor
  · apply (hstands.getElem?_eq (k := 0) (by decide)).trans
    decide
  · apply (hstands.getElem?_eq (k := 1) (by decide)).trans
    decide

end DataSourceGen
