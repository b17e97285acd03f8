import Mathlib.Data.List.Nodup
import DataSourceGen.Proofs.DataSource.Faithful

/-!
# When the members of a struct are distinct

The members of a struct come from four places: the client is always there, and the others carry the
parameter, the operation or a field. Reading keeps the flat names of the fields apart, but the
members are capitalized afterwards, and nothing compares them with the members from elsewhere.

**Theorem** (`nodup_members_iff`): in the source for a document, the members of a struct are
distinct iff capitalizing keeps the flat names apart from each other and from the parameter, and,
for a collection, the operation is not called `client`. The client itself clashes with no
capitalized name, since its own name begins with a small letter (`client_ne_capitalizeFirst`).

A collection whose operation is `Client` has the member `client` twice
(`members_of_clientDocument`). -/

namespace DataSourceGen

open Text

/-! ### The names of the members -/

namespace DataSource

variable {d : DataSource}

/-- The members of a struct for one result are the capitalized names of the attributes. -/
theorem map_name_modelMembers :
    d.modelMembers.map Member.name = d.attributes.map (capitalizeFirst ·.name) := by
  rw [modelMembers, List.map_map]
  rfl

/-- In a lookup of one entity, the client comes first, then the parameter and the attributes. -/
theorem map_name_members_of_some {p : Text} (hp : d.parameter? = some p) :
    d.members.map Member.name =
      "client".toList :: capitalizeFirst p :: d.attributes.map (capitalizeFirst ·.name) := by
  rw [members, hp, List.map_cons, List.map_cons, List.map_map]
  rfl

/-- In a collection, the client comes first, and the results are under the name of the query. -/
theorem map_name_members_of_none (hp : d.parameter? = none) :
    d.members.map Member.name = ["client".toList, d.queryName] := by
  rw [members, hp]
  rfl

/-- The struct types for one entity: that of the data source. -/
theorem types_of_some {p : Text} (hp : d.parameter? = some p) :
    d.types = structType d.structName d.members := by
  rw [types, hp, List.append_nil]

/-- The struct types for a collection: that of the data source, and that of one result. -/
theorem types_of_none (hp : d.parameter? = none) :
    d.types = structType d.structName d.members ++
      blankLine ++ structType d.modelName d.modelMembers := by
  rw [types, hp, blankLine, List.append_assoc]
  rfl

end DataSource

/-- The client is under no capitalized name. -/
theorem client_ne_capitalizeFirst (t : Text) : "client".toList ≠ capitalizeFirst t := by
  intro h
  apply not_isSmall_head?_capitalizeFirst t 'c'
  · rw [← h]
    rfl
  · exact ⟨by decide, by decide⟩

/-! ### The members for a document -/

namespace Query

/-- Whether capitalizing keeps the flat names of different fields apart. -/
def FieldsApart (q : Query) : Prop :=
  ∀ f ∈ q.fields, ∀ f' ∈ q.fields,
    capitalizeFirst f.flatName = capitalizeFirst f'.flatName → f = f'

/-- The names that the fields give their members. -/
def fieldMembers (q : Query) : List Text :=
  q.fields.map fun f => capitalizeFirst f.flatName

/-- The attributes of the data source have the flat names of the fields. -/
theorem map_name_attributes (q : Query) :
    q.dataSource.attributes.map (capitalizeFirst ·.name) = q.fieldMembers := by
  rw [dataSource, List.map_map]
  rfl

/-- The fields of a document have distinct members iff capitalizing keeps them apart, since no field
is there twice. -/
theorem nodup_fieldMembers_iff {depth : Nat} {document : Text} {q : Query}
    (h : parse depth document = .ok q) : q.fieldMembers.Nodup ↔ q.FieldsApart := by
  constructor
  · intro hnodup f hf f' hf' hsame
    exact List.inj_on_of_nodup_map hnodup hf hf' hsame
  · intro hapart
    apply List.Nodup.map_on
    · exact hapart
    · exact (nodup_fields h).of_map

/-- The members of a lookup of one entity are distinct iff the fields are apart, and apart from the
parameter. -/
theorem nodup_members_single {depth : Nat} {document p : Text} {q : Query}
    (h : parse depth document = .ok q) :
    ("client".toList :: capitalizeFirst p :: q.fieldMembers).Nodup ↔
      (∀ f ∈ q.fields, capitalizeFirst f.flatName ≠ capitalizeFirst p) ∧ q.FieldsApart := by
  have hclient : "client".toList ∉ capitalizeFirst p :: q.fieldMembers := by
    intro hmem
    rcases List.mem_cons.mp hmem with hparameter | hfield
    · exact client_ne_capitalizeFirst p hparameter
    · obtain ⟨f, -, hf⟩ := List.mem_map.mp hfield
      exact client_ne_capitalizeFirst f.flatName hf.symm
  have hparameter : capitalizeFirst p ∉ q.fieldMembers ↔
      ∀ f ∈ q.fields, capitalizeFirst f.flatName ≠ capitalizeFirst p := by
    rw [fieldMembers, List.mem_map]
    constructor
    · intro hnone f hf hsame
      exact hnone ⟨f, hf, hsame⟩
    · rintro hapart ⟨f, hf, hsame⟩
      exact hapart f hf hsame
  rw [List.nodup_cons, List.nodup_cons, hparameter, nodup_fieldMembers_iff h]
  exact and_iff_right hclient

/-- The members of the struct for a collection are distinct iff the operation is not `client`. -/
theorem nodup_members_collection (name : Text) :
    ["client".toList, name].Nodup ↔ name ≠ "client".toList := by
  rw [List.nodup_cons, List.mem_singleton]
  constructor
  · rintro ⟨hne, -⟩ rfl
    exact hne rfl
  · intro hne
    exact ⟨fun hsame => hne hsame.symm, List.nodup_singleton name⟩

end Query

/-- **Distinct members**: if a document gives a source, the struct types of the source are one for a
lookup of one entity and two for a collection. In the one for one entity, the members are the
client, the parameter and the fields, and they are distinct iff capitalizing keeps the fields apart
from each other and from the parameter. In the one for a collection, they are the client and the
operation, and they are distinct iff the operation is not `client`; in the one for its results, they
are the fields, and they are distinct iff capitalizing keeps the fields apart. -/
theorem nodup_members_iff {depth : Nat} {document : Text} {g : Generated}
    (h : generate depth document = .ok g) :
    ∃ q head tail, Query.parse depth document = .ok q ∧
      pieces g.source = (head ++ q.dataSource.types ++ tail).map (· ++ ['\n']) ∧
      (∀ p, q.shape = .single p →
        q.dataSource.types = DataSource.structType q.structName q.dataSource.members ∧
        q.dataSource.members.map Member.name =
          "client".toList :: capitalizeFirst p :: q.fieldMembers ∧
        ((q.dataSource.members.map Member.name).Nodup ↔
          (∀ f ∈ q.fields, capitalizeFirst f.flatName ≠ capitalizeFirst p) ∧ q.FieldsApart)) ∧
      (q.shape = .collection →
        q.dataSource.types = DataSource.structType q.structName q.dataSource.members ++ blankLine ++
          DataSource.structType q.dataSource.modelName q.dataSource.modelMembers ∧
        q.dataSource.members.map Member.name = ["client".toList, q.operationName] ∧
        q.dataSource.modelMembers.map Member.name = q.fieldMembers ∧
        ((q.dataSource.members.map Member.name).Nodup ↔ q.operationName ≠ "client".toList) ∧
        ((q.dataSource.modelMembers.map Member.name).Nodup ↔ q.FieldsApart)) := by
  obtain ⟨q, hparse, rfl⟩ := generate_eq_ok_iff.mp h
  obtain ⟨head, tail, hpieces⟩ :=
    (Query.isOnOneLine_dataSource hparse).exists_pieces_eq q.dataSource.types (by simp)
  refine ⟨q, head, tail, hparse, hpieces, ?_, ?_⟩
  · intro p hshape
    have hp : q.dataSource.parameter? = some p := by
      rw [Query.parameter?_dataSource hparse, Query.parameter?, hshape]
      rfl
    have hnames := DataSource.map_name_members_of_some hp
    rw [q.map_name_attributes] at hnames
    refine ⟨DataSource.types_of_some hp, hnames, ?_⟩
    rw [hnames]
    exact Query.nodup_members_single hparse
  · intro hshape
    have hp : q.dataSource.parameter? = none := by
      rw [Query.parameter?_dataSource hparse, Query.parameter?, hshape]
      rfl
    have hnames := DataSource.map_name_members_of_none hp
    have hmodel := q.dataSource.map_name_modelMembers.trans q.map_name_attributes
    refine ⟨DataSource.types_of_none hp, hnames, hmodel, ?_, ?_⟩
    · rw [hnames]
      exact Query.nodup_members_collection q.operationName
    · rw [hmodel]
      exact Query.nodup_fieldMembers_iff hparse

/-- A lookup by a variable that is called like one of the fields. -/
def deviceByIdDocument : Text :=
  "query Device($edges_node_id: ID!) \x7b\n  InfraDevice(id: $edges_node_id) \x7b\n" ++
  "    edges \x7b\n      node \x7b\n        id\n"

/-- The variable and the field get the same member. -/
theorem nodup_members_iff_deviceByIdDocument :
    ∃ q g, Query.parse 2 deviceByIdDocument = .ok q ∧ generate 2 deviceByIdDocument = .ok g ∧
      q.shape = .single "edges_node_id" ∧ q.fields = [{ flatName := "edges_node_id" }] ∧
      ¬ (q.dataSource.members.map Member.name).Nodup := by
  have reading : Reading.ofDocument 2 deviceByIdDocument =
      { operationName := some "device".toList
        rootName := "InfraDevice"
        parameter := some "edges_node_id".toList
        openBlocks := ["node".toList, "edges".toList]
        lead := "edges_node_"
        fields := [{ flatName := "edges_node_id" }]
        flatNames := .ofList ["edges_node_id".toList] } := rfl
  have hparse : Query.parse 2 deviceByIdDocument = .ok {
      operationName := "device"
      rootName := "InfraDevice"
      shape := .single "edges_node_id"
      fields := [{ flatName := "edges_node_id" }]
      compounds := .empty } := by
    rw [Query.parse, reading]
    rfl
  have hgenerate := generate_of_parse hparse
  refine ⟨_, _, hparse, hgenerate, rfl, rfl, ?_⟩
  intro hnodup
  obtain ⟨q, -, -, hq, -, hsingle, -⟩ := nodup_members_iff hgenerate
  obtain rfl := Except.ok.inj (hparse.symm.trans hq)
  obtain ⟨-, -, hiff⟩ := hsingle _ rfl
  obtain ⟨hapart, -⟩ := hiff.mp hnodup
  exact hapart { flatName := "edges_node_id" } (List.mem_singleton.mpr rfl) rfl

/-- A query for all clients. -/
def clientDocument : Text :=
  "query Client \x7b\n  InfraClient \x7b\n    edges \x7b\n      node \x7b\n        id\n" ++
  "      \x7d\n    \x7d\n  \x7d\n\x7d\n"

/-- The list of the clients is declared under the name of the client of the provider. -/
theorem members_of_clientDocument :
    ∃ q g, Query.parse defaultWrapperDepth clientDocument = .ok q ∧
      generate defaultWrapperDepth clientDocument = .ok g ∧ q.shape = .collection ∧
      q.dataSource.members.map Member.name = ["client".toList, "client".toList] ∧
      ¬ (q.dataSource.members.map Member.name).Nodup := by
  have reading : Reading.ofDocument defaultWrapperDepth clientDocument =
      { operationName := some "client".toList
        rootName := "InfraClient"
        openBlocks := ["edges".toList]
        lead := []
        fields := [{ flatName := "edges_node_id" }]
        flatNames := .ofList ["edges_node_id".toList] } := rfl
  have hparse : Query.parse defaultWrapperDepth clientDocument = .ok {
      operationName := "client"
      rootName := "InfraClient"
      shape := .collection
      fields := [{ flatName := "edges_node_id" }]
      compounds := .empty } := by
    rw [Query.parse, reading]
    rfl
  have hnames := DataSource.map_name_members_of_none (Query.parameter?_dataSource hparse)
  refine ⟨_, _, hparse, generate_of_parse hparse, rfl, hnames, ?_⟩
  rw [hnames, Query.nodup_members_collection]
  exact fun hne => hne rfl

end DataSourceGen
