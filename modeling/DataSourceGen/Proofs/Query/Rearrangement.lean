import Mathlib.Data.List.Nodup
import Mathlib.Data.List.Perm.Basic
import DataSourceGen.Proofs.Query.Acceptance
import DataSourceGen.Proofs.Query.Wrappers
import DataSourceGen.Proofs.Reading.Sections
import DataSourceGen.Proofs.Segment.Unrelated
import DataSourceGen.Query.Accessor

/-!
# Rearranged selections

Selections may be put in another order inside their block, at any level (`Rearranged`). This changes
the order in which their items are read and nothing else (`Rearranged.items_perm`), as long as no
flat name occurs twice: of two leaves with one flat name only the first is recorded. The segments of
a flat name depend on which names are compounds and not on their order (`segments_congr`).

**Theorem** (`parse_of_rearranged`) says what the query keeps: up to order, all of it. -/

namespace DataSourceGen

open Text Reading

namespace SelectionSet

/-! ### Selections side by side -/

/-- A single leaf or block, with all that is below it. -/
inductive Selection where
  | leaf (name arguments : Text)
  | block (name : Text) (inner : SelectionSet)

/-- The selections that stand side by side at the top of a set. -/
def selections : SelectionSet → List Selection
  | .nil => []
  | .leaf name arguments rest => .leaf name arguments :: rest.selections
  | .block name inner rest => .block name inner :: rest.selections

/-- The items of a selection inside some blocks. -/
def Selection.items (blocks : List Text) : Selection → List Item
  | .leaf name _ => [.leaf name (flatten (blocks ++ [name]))]
  | .block name inner => .block name :: inner.items (blocks ++ [name])

/-- Whether a selection and all below it are well-formed. -/
def Selection.IsWellFormed : Selection → Prop
  | .leaf name arguments => isName name ∧ IsArgumentList arguments
  | .block name inner => isName name ∧ inner.IsWellFormed

theorem items_eq_flatMap (blocks : List Text) :
    (t : SelectionSet) → t.items blocks = t.selections.flatMap (Selection.items blocks)
  | .nil => rfl
  | .leaf name arguments rest => by
      rw [items, items_eq_flatMap blocks rest, selections, List.flatMap_cons]
      rfl
  | .block name inner rest => by
      rw [items, items_eq_flatMap blocks rest, selections, List.flatMap_cons]
      rfl

theorem isWellFormed_iff_forall :
    (t : SelectionSet) → (t.IsWellFormed ↔ ∀ s ∈ t.selections, s.IsWellFormed)
  | .nil => by simp [IsWellFormed, selections]
  | .leaf name arguments rest => by
      rw [IsWellFormed, isWellFormed_iff_forall rest, selections, List.forall_mem_cons, ← and_assoc]
      rfl
  | .block name inner rest => by
      rw [IsWellFormed, isWellFormed_iff_forall rest, selections, List.forall_mem_cons, ← and_assoc]
      rfl

/-! ### Another order -/

/-- Whether a selection set is another one with its selections in another order, inside any of its
blocks. -/
inductive Rearranged : SelectionSet → SelectionSet → Prop where
  /-- The selections at the top are permuted. -/
  | permuted {t t' : SelectionSet} (h : t.selections.Perm t'.selections) : Rearranged t t'
  | leaf (name arguments : Text) {rest rest' : SelectionSet} (h : Rearranged rest rest') :
      Rearranged (.leaf name arguments rest) (.leaf name arguments rest')
  | block (name : Text) {inner inner' rest rest' : SelectionSet} (hinner : Rearranged inner inner')
      (hrest : Rearranged rest rest') : Rearranged (.block name inner rest) (.block name inner' rest')
  | trans {t t' t'' : SelectionSet} (h : Rearranged t t') (h' : Rearranged t' t'') :
      Rearranged t t''

namespace Rearranged

variable {t t' : SelectionSet}

theorem isWellFormed (h : Rearranged t t') (ht : t.IsWellFormed) : t'.IsWellFormed := by
  induction h with
  | permuted h =>
    rw [isWellFormed_iff_forall] at ht ⊢
    exact fun s hs => ht s (h.mem_iff.mpr hs)
  | leaf name arguments h ih => exact ⟨ht.1, ht.2.1, ih ht.2.2⟩
  | block name hinner hrest ihinner ihrest => exact ⟨ht.1, ihinner ht.2.1, ihrest ht.2.2⟩
  | trans h h' ih ih' => exact ih' (ih ht)

/-- **Rearranging** changes the order of the items and nothing else. -/
theorem items_perm (h : Rearranged t t') (blocks : List Text) :
    (t.items blocks).Perm (t'.items blocks) := by
  induction h generalizing blocks with
  | permuted h =>
    rw [items_eq_flatMap, items_eq_flatMap]
    exact h.flatMap_right _
  | leaf name arguments h ih => exact (ih blocks).cons _
  | block name hinner hrest ihinner ihrest =>
    exact ((ihinner (blocks ++ [name])).append (ihrest blocks)).cons _
  | trans h h' ih ih' => exact (ih blocks).trans (ih' blocks)

theorem wrappedItems_perm (h : Rearranged t t') : t.wrappedItems.Perm t'.wrappedItems :=
  ((h.items_perm _).cons _).cons _

end Rearranged

/-- Items with flat names of their own are all recorded. -/
theorem Item.recorded_eq_self :
    (items : List Item) → ∀ seen : List Text, (items.filterMap Item.flatName?).Nodup →
      (∀ n ∈ items.filterMap Item.flatName?, n ∉ seen) → Item.recorded seen items = items
  | [], _, _, _ => rfl
  | .block name :: items, seen, hnodup, hseen =>
      congrArg (Item.block name :: ·) (recorded_eq_self items seen hnodup hseen)
  | .leaf name flatName :: items, seen, hnodup, hseen => by
      have hnames : (Item.leaf name flatName :: items).filterMap Item.flatName? =
          flatName :: items.filterMap Item.flatName? := rfl
      rw [hnames] at hnodup hseen
      obtain ⟨hnew, hrest⟩ := List.forall_mem_cons.mp hseen
      obtain ⟨hfirst, hnodup⟩ := List.nodup_cons.mp hnodup
      have hseen' : ∀ n ∈ items.filterMap Item.flatName?, n ∉ seen ++ [flatName] := by
        intro n hn
        rw [List.mem_append, List.mem_singleton, not_or]
        exact ⟨hrest n hn, fun heq => hfirst (heq ▸ hn)⟩
      rw [recorded_leaf_of_not_mem hnew, recorded_eq_self items _ hnodup hseen']

end SelectionSet

/-- Joined paths of their own make flat names of their own inside the wrappers. -/
theorem SelectionSet.nodup_flatNames_wrappedItems {t : SelectionSet}
    (h : (t.paths.map flatten).Nodup) : (t.wrappedItems.filterMap Item.flatName?).Nodup := by
  have hnames : t.wrappedItems.filterMap Item.flatName? =
      (t.paths.map flatten).map ("edges_node_".toList ++ ·) := by
    rw [filterMap_flatName?_wrappedItems, List.map_map]
    rfl
  rw [hnames]
  exact List.Nodup.map (List.append_right_injective _) h

/-! ### Compounds in another order -/

/-- **Segments** depend on which names are compounds, not on their order. -/
theorem segments_congr {s s' : NameSet} (h : ∀ n, n ∈ s.toList ↔ n ∈ s'.toList) (flatName : Text) :
    segments s flatName = segments s' flatName :=
  segments_eq_of_agree fun piece _ => NameSet.hasExtension_congr h piece

namespace Query

variable {q q' : Query}

theorem accessor_congr (hroot : q.rootName = q'.rootName) (hshape : q.shape = q'.shape)
    (hcompounds : ∀ n, n ∈ q.compounds.toList ↔ n ∈ q'.compounds.toList) (flatName : Text) :
    q.accessor flatName = q'.accessor flatName := by
  unfold accessor segmentsOf
  rw [hroot, hshape, segments_congr hcompounds]

/-! ### Documents with their selections in another order -/

/-- A document whose first lines name an operation and then select inside the wrappers is accepted,
and if no flat name occurs twice, all items of the selections are recorded. -/
theorem exists_parse_of_wrappedLines {first second name : Text} (hfirst : NamesOperation first name)
    {t : SelectionSet} (ht : t.IsWellFormed)
    (hdistinct : (t.wrappedItems.filterMap SelectionSet.Item.flatName?).Nodup)
    {document : Text} (hdoc : [first, second] ++ t.wrappedLines <+: trimmedLines document) :
    ∃ q, parse defaultWrapperDepth document = .ok q ∧
      q.fields = (t.wrappedItems.filterMap SelectionSet.Item.flatName?).map ({ flatName := · }) ∧
      ∀ n, n ∈ q.compounds.toList ↔
        n ∈ t.wrappedItems.map SelectionSet.Item.name ∧ separator ∈ n := by
  have hnamed := ofLine_eq_named_iff.mpr ⟨name, hfirst, rfl⟩
  have hkey : HasKeyword [first, second] := by
    intro line hline
    obtain rfl := Option.some.inj hline
    rw [hnamed]
    exact OperationLine.noConfusion
  have hdeclares : Declares document name := by
    obtain ⟨after, hafter⟩ := hdoc
    obtain ⟨line, rest, hlines, hline, -⟩ := List.map_eq_cons_iff.mp hafter.symm
    exact ⟨line, by rw [hlines]; rfl, by rwa [hline]⟩
  obtain ⟨q, hq, -⟩ := exists_parse_of_declares defaultWrapperDepth hdeclares
  obtain ⟨-, -, -, hfields, hcompounds⟩ := parse_eq_ok_iff.mp hq
  obtain ⟨operation, root, parameter, hheading⟩ :=
    exists_reached_heading defaultWrapperDepth hkey (Nat.le_refl 2)
  have hreading := @ofDocument_of_wrappedLines _ (headed {} operation root parameter) _ hheading
    (Nat.le_refl 2) ht _ hdoc
  rw [foldl_add] at hreading
  have hrecorded : SelectionSet.Item.recorded
      (headed {} operation root parameter).flatNames.toList t.wrappedItems = t.wrappedItems :=
    SelectionSet.Item.recorded_eq_self _ _ hdistinct fun n _ => List.not_mem_nil
  rw [hrecorded] at hreading
  refine ⟨q, hq, ?_, fun n => ?_⟩
  · rw [hfields, hreading]
    rfl
  · have hmem : n ∈ q.compounds.toList ↔
        n ∈ (t.wrappedItems.map SelectionSet.Item.name).filter (·.contains separator) := by
      rw [hcompounds, hreading]
      dsimp only
      rw [foldl_noteCompound, NameSet.mem_foldl_insert]
      exact or_iff_right List.not_mem_nil
    rw [hmem, List.mem_filter, List.contains_iff_mem]

end Query

/-- **The order of selections**: of two documents with one heading, whose selections inside the
wrappers differ only in their order inside the blocks, and in which no flat name occurs twice, the
queries have the same operation, root object and shape, and up to their order the same fields and
compounds. Each field has the same accessor. -/
theorem parse_of_rearranged {first second name : Text} (hfirst : NamesOperation first name)
    {t t' : SelectionSet} (ht : t.IsWellFormed) (hdistinct : (t.paths.map flatten).Nodup)
    (h : t.Rearranged t') {d d' : Text} (hd : [first, second] ++ t.wrappedLines <+: trimmedLines d)
    (hd' : [first, second] ++ t'.wrappedLines <+: trimmedLines d') :
    ∃ q q', Query.parse defaultWrapperDepth d = .ok q ∧ Query.parse defaultWrapperDepth d' = .ok q' ∧
      q.operationName = q'.operationName ∧ q.rootName = q'.rootName ∧ q.shape = q'.shape ∧
      q.fields.Perm q'.fields ∧ q.compounds.toList.Perm q'.compounds.toList ∧
      q.accessors.Perm q'.accessors ∧ ∀ path, path ∈ q.accessors ↔ path ∈ q'.accessors := by
  have hitems := h.wrappedItems_perm
  have hnames := hitems.filterMap SelectionSet.Item.flatName?
  have hnodup := SelectionSet.nodup_flatNames_wrappedItems hdistinct
  obtain ⟨q, hq, hfields, hcompounds⟩ := Query.exists_parse_of_wrappedLines hfirst ht hnodup hd
  obtain ⟨q', hq', hfields', hcompounds'⟩ := Query.exists_parse_of_wrappedLines hfirst
    (h.isWellFormed ht) (hnames.nodup_iff.mp hnodup) hd'
  obtain ⟨below, hheading⟩ := (List.prefix_append [first, second] t.wrappedLines).trans hd
  obtain ⟨below', hheading'⟩ := (List.prefix_append [first, second] t'.wrappedLines).trans hd'
  have hoperation : q.operationName = q'.operationName := by
    apply Query.operationName_eq hq' hq
    rw [← hheading, ← hheading']
    rfl
  obtain ⟨hroot, hshape⟩ : q.rootName = q'.rootName ∧ q.shape = q'.shape := by
    apply Query.root_eq hq' hq
    rw [← hheading, ← hheading']
    rfl
  have hmembers (n : Text) : n ∈ q.compounds.toList ↔ n ∈ q'.compounds.toList := by
    rw [hcompounds, hcompounds', (hitems.map SelectionSet.Item.name).mem_iff]
  have hperm : q.fields.Perm q'.fields := by
    rw [hfields, hfields']
    exact hnames.map _
  have haccessors : q.accessors.Perm q'.accessors := by
    have hsame : q.accessors = q.fields.map fun f => q'.accessor f.flatName :=
      List.map_congr_left fun f _ => Query.accessor_congr hroot hshape hmembers f.flatName
    rw [hsame]
    exact hperm.map _
  exact ⟨q, q', hq, hq', hoperation, hroot, hshape, hperm,
    (List.perm_ext_iff_of_nodup q.compounds.nodup q'.compounds.nodup).mpr hmembers, haccessors,
    fun path => haccessors.mem_iff⟩

/-- An address and a type, both of which have a leaf `id`. -/
def hostSelections : SelectionSet :=
  .block "host_address" (.leaf "id" [] (.leaf "is_main" " (at: 1)" .nil))
    (.block "type" (.leaf "id" [] .nil) .nil)

/-- The type first, and the leaves of the address the other way round. -/
def turnedSelections : SelectionSet :=
  .block "type" (.leaf "id" [] .nil)
    (.block "host_address" (.leaf "is_main" " (at: 1)" (.leaf "id" [] .nil)) .nil)

/-- A document with these selections. -/
def hostDocument : Text :=
  "query Hosts \x7b\n hosts \x7b\n  edges \x7b\n   node \x7b\n    host_address \x7b\n     id\n" ++
  "     is_main (at: 1)\n    \x7d\n    type \x7b\n     id\n    \x7d\n   \x7d\n  \x7d\n \x7d\n\x7d"

/-- A document with the same heading and the selections in the other order. -/
def turnedDocument : Text :=
  "query Hosts \x7b\nhosts \x7b\nedges \x7b\nnode \x7b\ntype \x7b\nid\n\x7d\nhost_address \x7b\n" ++
  "is_main (at: 1)\nid\n\x7d\n\x7d\n\x7d\n"

/-- The three fields are in another order in the second document, with the same accessors. -/
theorem parse_of_rearranged_turnedDocument :
    ∃ q q', Query.parse defaultWrapperDepth hostDocument = .ok q ∧
      Query.parse defaultWrapperDepth turnedDocument = .ok q' ∧
      q.fields.map Field.flatName = ["edges_node_host_address_id".toList,
        "edges_node_host_address_is_main".toList, "edges_node_type_id".toList] ∧
      q'.fields.map Field.flatName = ["edges_node_type_id".toList,
        "edges_node_host_address_is_main".toList, "edges_node_host_address_id".toList] ∧
      q.accessors.Perm q'.accessors := by
  have arguments : SelectionSet.IsArgumentList " (at: 1)" :=
    .inr ⟨" ", "at: 1", by simp [IsMargin, isBlank], by decide, by decide⟩
  have hwell : hostSelections.IsWellFormed :=
    ⟨by decide, ⟨by decide, .inl rfl, by decide, arguments, trivial⟩, by decide,
      ⟨by decide, .inl rfl, trivial⟩, trivial⟩
  have hnamed : NamesOperation "query Hosts \x7b" "Hosts" :=
    ⟨" ", "Hosts", " \x7b", by decide, by decide, by simp [isBlank], by simp [isBlank],
      by simp [isBlank], by decide, by decide⟩
  have hturned : hostSelections.Rearranged turnedSelections := by
    have hinner : SelectionSet.Rearranged
        (.leaf "id" [] (.leaf "is_main" " (at: 1)" .nil))
        (.leaf "is_main" " (at: 1)" (.leaf "id" [] .nil)) := .permuted (.swap _ _ _)
    exact .trans (.block _ hinner (.permuted (.refl _))) (.permuted (.swap _ _ _))
  have hhost : ["query Hosts \x7b".toList, "hosts \x7b".toList] ++ hostSelections.wrappedLines <+:
      trimmedLines hostDocument := ⟨["\x7d".toList, "\x7d".toList], by rfl⟩
  have hother : ["query Hosts \x7b".toList, "hosts \x7b".toList] ++ turnedSelections.wrappedLines <+:
      trimmedLines turnedDocument := ⟨[], by rfl⟩
  have hfields : ∃ q, Query.parse defaultWrapperDepth hostDocument = .ok q ∧
      q.fields.map Field.flatName = ["edges_node_host_address_id".toList,
        "edges_node_host_address_is_main".toList, "edges_node_type_id".toList] := ⟨_, rfl, rfl⟩
  have hfields' : ∃ q, Query.parse defaultWrapperDepth turnedDocument = .ok q ∧
      q.fields.map Field.flatName = ["edges_node_type_id".toList,
        "edges_node_host_address_is_main".toList, "edges_node_host_address_id".toList] :=
    ⟨_, rfl, rfl⟩
  obtain ⟨q, q', hq, hq', -, -, -, -, -, haccessors, -⟩ :=
    parse_of_rearranged hnamed hwell (by decide) hturned hhost hother
  obtain ⟨q₁, hq₁, hfields⟩ := hfields
  obtain ⟨q₂, hq₂, hfields'⟩ := hfields'
  obtain rfl := Except.ok.inj (hq.symm.trans hq₁)
  obtain rfl := Except.ok.inj (hq'.symm.trans hq₂)
  exact ⟨q, q', hq, hq', hfields, hfields', haccessors⟩

end DataSourceGen
