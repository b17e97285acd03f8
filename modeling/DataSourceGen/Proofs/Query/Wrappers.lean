import DataSourceGen.Proofs.Query.SelectionSet

/-!
# Selections inside the wrappers

Below a heading, the two wrapper blocks are opened and put `edges_node_` in front of all flat names;
the selections inside add their items; and of the two closing lines after them the first leaves the
inner wrapper, while the second finds only one separator left and ends the reading. So a document
that goes on like this is read as its heading with the items of its selections, whatever follows
(`ofDocument_of_wrappedLines`). -/

namespace DataSourceGen

open Text Reading

namespace SelectionSet

/-- The lines of a selection set inside the two wrapper blocks. -/
def wrappedLines (t : SelectionSet) : List Text :=
  "edges \x7b".toList :: "node \x7b".toList :: (t.lines ++ [closingLine, closingLine])

/-- The items of a selection set and of the two wrapper blocks around it. -/
def wrappedItems (t : SelectionSet) : List Item :=
  .block "edges" :: .block "node" :: t.items ["edges".toList, "node".toList]

/-- The flat names inside the wrappers. -/
theorem filterMap_flatName?_wrappedItems (t : SelectionSet) :
    t.wrappedItems.filterMap Item.flatName? =
      t.paths.map fun path => "edges_node_".toList ++ flatten path := by
  have hitems : t.wrappedItems.filterMap Item.flatName? =
      t.flatNames ["edges".toList, "node".toList] :=
    filterMap_flatName?_items t ["edges".toList, "node".toList]
  rw [hitems]
  apply List.map_congr_left
  intro path hpath
  rcases path with _ | ⟨name, path⟩
  · exact absurd rfl (t.ne_nil_of_mem_paths [] hpath)
  · rfl

end SelectionSet

namespace Reading

variable {heading : List Text} {s : Reading} {t : SelectionSet}

/-- After the selections the two wrappers are open, and the items are added. -/
theorem Reached.wrapped (h : Reached defaultWrapperDepth heading (s.within []))
    (hlength : 2 ≤ heading.length) (ht : t.IsWellFormed) :
    Reached defaultWrapperDepth
      (heading ++ "edges \x7b".toList :: "node \x7b".toList :: t.lines)
      ((t.wrappedItems.foldl add s).within ["node".toList, "edges".toList]) := by
  have hedges := h.opened hlength "edges"
  have hnode := hedges.opened (by simp; omega) "node"
  have hall := Reached.lines t ht hnode (by simp) (List.cons_ne_nil _ _) (by decide)
  rw [List.append_assoc, List.append_assoc] at hall
  exact hall

/-- **Selections inside the wrappers** are read to the end of the wrappers, and no further. -/
theorem ofDocument_of_wrappedLines (h : Reached defaultWrapperDepth heading (s.within []))
    (hlength : 2 ≤ heading.length) (ht : t.IsWellFormed) {document : Text}
    (hdoc : heading ++ t.wrappedLines <+: trimmedLines document) :
    ofDocument defaultWrapperDepth document =
      { t.wrappedItems.foldl add s with lead := [], openBlocks := ["edges".toList] } := by
  have hlines : ((heading ++ "edges \x7b".toList :: "node \x7b".toList :: t.lines) ++
      [closingLine]) ++ [closingLine] <+: trimmedLines document := by
    simpa [SelectionSet.wrappedLines] using hdoc
  have hbelow : 2 ≤ (heading ++ "edges \x7b".toList :: "node \x7b".toList :: t.lines).length := by
    rw [List.length_append]
    omega
  -- The lead is `edges_node_` before the first closing line, and `edges_` before the second.
  have hinner := (h.wrapped hlength ht).closed hbelow (by decide)
  have houter : ((t.wrappedItems.foldl add s).within ["edges".toList]).next defaultWrapperDepth
      ((heading ++ "edges \x7b".toList :: "node \x7b".toList :: t.lines) ++ [closingLine]).length
      closingLine =
      { reading := { t.wrappedItems.foldl add s with lead := [], openBlocks := ["edges".toList] }
        stops := true } := by
    have hlead : ((t.wrappedItems.foldl add s).within ["edges".toList]).lead.count separator <
        defaultWrapperDepth := by
      show (leadOf ["edges".toList]).count separator < defaultWrapperDepth
      decide
    rw [next_eq_select (readsSelections_of_two_le (by rw [List.length_append]; omega) _), select,
      openedBlock?_closingLine]
    simp only [if_true, closeBlock, if_pos hlead]
    rfl
  rw [ofDocument_eq_of_stops hinner hlines (by rw [houter]), houter]

end Reading

end DataSourceGen
