import DataSourceGen.Proofs.Query.Wrappers

/-!
# Reading a lookup

A document that begins with the lines of a lookup is read as the lookup says, however it is laid out
and whatever follows (`parse_of_beginsWithLines`). The heading gives the operation, the root and the
variable, and the selections inside the wrappers add their items (`ofDocument_of_wrappedLines`).
-/

namespace DataSourceGen

open Text Reading SelectionSet

/-! ### The lines of a lookup -/

namespace Lookup

/-- The line of the operation stands alone. -/
theorem isContent_operationLine {l : Lookup} (h : l.IsWellFormed) : IsContent l.operationLine := by
  have keyword : isName "query" = true := by decide
  have hoperation : '\n' ∉ l.operation := not_mem_of_isName h.operation (by decide)
  rcases hb : l.binding with _ | ⟨argument, parameter⟩
  · have hrest : '\n' ∉ " ".toList ++ l.operation := by simp [hoperation]
    simpa [operationLine, hb] using isContent_opening keyword hrest
  · have hparameter : '\n' ∉ parameter :=
      not_mem_of_isName (h.binding _ hb).2 (by decide)
    have hrest : '\n' ∉
        " ".toList ++ l.operation ++ "($".toList ++ parameter ++ ": String!)".toList := by
      simp [hoperation, hparameter]
    simpa [operationLine, hb] using isContent_opening keyword hrest

/-- The line of the root object stands alone. -/
theorem isContent_rootLine {l : Lookup} (h : l.IsWellFormed) : IsContent l.rootLine := by
  rcases hb : l.binding with _ | ⟨argument, parameter⟩
  · simpa [rootLine, hb] using isContent_opening h.root (List.not_mem_nil (a := '\n'))
  · obtain ⟨hargument, hparameter⟩ := h.binding _ hb
    have hrest : '\n' ∉ "(".toList ++ argument ++ ": $".toList ++ parameter ++ ")".toList := by
      simp [not_mem_of_isName hargument (c := '\n') (by decide),
        not_mem_of_isName hparameter (c := '\n') (by decide)]
    simpa [rootLine, hb] using isContent_opening h.root hrest

/-- The lines of a well-formed lookup are contents of lines. -/
theorem isContent_of_mem_lines {l : Lookup} (h : l.IsWellFormed) :
    ∀ line ∈ l.lines, IsContent line := by
  have hempty : '\n' ∉ ([] : Text) := List.not_mem_nil
  intro line hline
  simp only [lines, List.mem_cons, List.mem_append, List.not_mem_nil, or_false] at hline
  rcases hline with rfl | rfl | rfl | rfl | hline | rfl | rfl
  · exact isContent_operationLine h
  · exact isContent_rootLine h
  · exact isContent_opening (show isName "edges" = true by decide) hempty
  · exact isContent_opening (show isName "node" = true by decide) hempty
  · exact SelectionSet.isContent_of_mem_lines l.selections h.selections line hline
  · exact isContent_closingLine
  · exact isContent_closingLine

/-! ### The readings of a lookup -/

/-- What the heading of a lookup says. -/
def heading (l : Lookup) : Reading where
  operationName := some (lowercaseFirst l.operation)
  rootName := l.root
  parameter := l.binding.map (·.2)

/-- The two lines of the heading are read as the lookup says. -/
theorem reached_heading {l : Lookup} (h : l.IsWellFormed) (depth : Nat) :
    Reached depth [l.operationLine, l.rootLine] l.heading := by
  let named : Reading := { operationName := some (lowercaseFirst l.operation) }
  have hfirst : Reading.next depth 0 {} l.operationLine =
      { reading := named, events := [.foundOperation (lowercaseFirst l.operation)] } := by
    simp only [Reading.next, ofLine_operationLine h, Reading.nameOperation, named]
  have hsecond : (named.next depth 1 l.rootLine).reading = l.heading := by
    simp only [Reading.next, Reading.nameRoot, ofLine_rootLine h, heading, named]
  have hnamed : Reached depth [l.operationLine] named := Reached.start.of_next_eq hfirst rfl
  rw [← hsecond]
  exact hnamed.of_next_eq rfl rfl

/-- The document of a lookup is read to the end of the wrappers, and no further. -/
theorem ofDocument_eq {l : Lookup} (h : l.IsWellFormed) {document : Text}
    (hdoc : BeginsWithLines l.lines document) :
    ofDocument defaultWrapperDepth document =
      { l.items.foldl add l.heading with lead := [], openBlocks := ["edges".toList] } := by
  have hheading : Reached defaultWrapperDepth [l.operationLine, l.rootLine] (l.heading.within []) :=
    l.reached_heading h defaultWrapperDepth
  have hlines : [l.operationLine, l.rootLine] ++ l.selections.wrappedLines <+:
      trimmedLines document :=
    (beginsWithLines_iff (isContent_of_mem_lines h)).mp hdoc
  exact ofDocument_of_wrappedLines hheading (Nat.le_refl 2) h.selections hlines

/-! ### The query of a lookup -/

/-- No flat name is taken when the wrappers are opened. -/
theorem filterMap_flatName?_recorded_items (l : Lookup) :
    (Item.recorded [] l.items).filterMap Item.flatName? =
      (l.selections.paths.map fun path => "edges_node_".toList ++ flatten path).eraseDups := by
  have hnames : l.items.filterMap Item.flatName? =
      l.selections.paths.map fun path => "edges_node_".toList ++ flatten path :=
    l.selections.filterMap_flatName?_wrappedItems
  rw [filterMap_flatName?_recorded, hnames, filter_not_mem_nil]

/-- The selections leave what the heading says. -/
theorem heading_foldl_add (l : Lookup) :
    (l.items.foldl add l.heading).operationName = some (lowercaseFirst l.operation) ∧
      (l.items.foldl add l.heading).rootName = l.root ∧
      (l.items.foldl add l.heading).parameter = l.binding.map (·.2) := by
  rw [foldl_add]
  exact ⟨rfl, rfl, rfl⟩

/-- The fields of a lookup are its paths under the wrappers, without repetitions. -/
theorem fields_foldl_add_heading (l : Lookup) :
    (l.items.foldl add l.heading).fields =
      (l.selections.paths.map fun path =>
        "edges_node_".toList ++ flatten path).eraseDups.map ({ flatName := · }) := by
  rw [foldl_add, ← l.filterMap_flatName?_recorded_items]
  rfl

/-- The compounds of a lookup are the names of its recorded items that hold a separator. -/
theorem compounds_foldl_add_heading (l : Lookup) :
    (l.items.foldl add l.heading).compounds.toList =
      (((Item.recorded [] l.items).map Item.name).filter (·.contains separator)).eraseDups := by
  rw [foldl_add, ← NameSet.toList_ofList]
  exact congrArg NameSet.toList (foldl_noteCompound _ _)

end Lookup

/-- **Reading of lookups**: a document that begins with the lines of a well-formed lookup, in any
layout and with anything after them, is accepted. Its query has the operation with its first letter
in lower case, the root object, the variable if there is one, one field for each flat name of a
path, in order of first occurrence, and as compounds the names with a separator among those of the
blocks and the leaves recorded, in order of first occurrence. -/
theorem parse_of_beginsWithLines {l : Lookup} (h : l.IsWellFormed) {document : Text}
    (hdoc : BeginsWithLines l.lines document) :
    ∃ q, Query.parse defaultWrapperDepth document = .ok q ∧
      q.operationName = lowercaseFirst l.operation ∧
      q.rootName = l.root ∧
      q.shape = (match l.binding with
        | some (_, parameter) => .single parameter
        | none => .collection) ∧
      q.fields = (l.selections.paths.map fun path =>
        "edges_node_".toList ++ flatten path).eraseDups.map ({ flatName := · }) ∧
      q.compounds.toList =
        (((Item.recorded [] l.items).map Item.name).filter (·.contains separator)).eraseDups := by
  obtain ⟨hoperation, hroot, hparameter⟩ := l.heading_foldl_add
  have hparse : Query.parse defaultWrapperDepth document = .ok
      { operationName := lowercaseFirst l.operation
        rootName := l.root
        shape := .ofParameter? (l.binding.map (·.2))
        fields := (l.items.foldl add l.heading).fields
        compounds := (l.items.foldl add l.heading).compounds } := by
    rw [Query.parse, l.ofDocument_eq h hdoc]
    simp only [Query.ofReading, hoperation, hroot, hparameter]
  refine ⟨_, hparse, rfl, rfl, ?_, l.fields_foldl_add_heading, l.compounds_foldl_add_heading⟩
  rcases l.binding with _ | ⟨argument, parameter⟩
  · rfl
  · rfl

/-- Devices with an address, a type with the same address and a leaf whose flat name is one of those
of the address. -/
def deviceLookup : Lookup where
  operation := "DeviceLookup"
  root := "dcim_device"
  binding := some ("id".toList, "deviceId".toList)
  selections :=
    .block "primary_address"
      (.leaf "id" [] (.leaf "host_name" " (first: 1)" .nil))
      (.block "device_type" (.block "primary_address" (.leaf "id" [] .nil) .nil)
        (.block "primary" (.leaf "address_id" [] .nil) (.leaf "serial_no" "(n: 2)" .nil)))

/-- The lookup in a layout of its own, with more lines after the wrappers. -/
def deviceLookupDocument : Text :=
  "  query DeviceLookup($deviceId: String!) \x7b\r\n\tdcim_device(id: $deviceId) \x7b\n" ++
  "edges \x7b  \n  node \x7b\n    primary_address \x7b\n      id\n      host_name (first: 1)\n" ++
  "    \x7d\n device_type \x7b\n primary_address \x7b\n id\r\n \x7d\n \x7d\n primary \x7b\n" ++
  "   address_id\n   \x7d\n   serial_no(n: 2)\n  \x7d\n \x7d\n \x7d\n after_all \x7b\n \x7d"

/-- The lookup of devices gets four fields from five leaves: `address_id` below `primary` has the
flat name of an earlier leaf, and is not among the compounds. -/
theorem parse_deviceLookupDocument :
    deviceLookup.IsWellFormed ∧ BeginsWithLines deviceLookup.lines deviceLookupDocument ∧
    ∃ q, Query.parse defaultWrapperDepth deviceLookupDocument = .ok q ∧
      q.operationName = "deviceLookup".toList ∧ q.rootName = "dcim_device".toList ∧
      q.shape = .single "deviceId" ∧
      q.fields.map Field.flatName =
        ["edges_node_primary_address_id".toList, "edges_node_primary_address_host_name".toList,
          "edges_node_device_type_primary_address_id".toList, "edges_node_serial_no".toList] ∧
      q.compounds.toList =
        ["primary_address".toList, "host_name".toList, "device_type".toList,
          "serial_no".toList] := by
  have arguments : IsArgumentList " (first: 1)" :=
    .inr ⟨" ", "first: 1", by simp [IsMargin, isBlank], by decide, by decide⟩
  have number : IsArgumentList "(n: 2)" :=
    .inr ⟨[], "n: 2", by simp [IsMargin], by decide, by decide⟩
  have hwell : deviceLookup.IsWellFormed := by
    refine ⟨by decide, by decide, by decide, ?_⟩
    refine ⟨by decide, ⟨by decide, .inl rfl, by decide, arguments, trivial⟩, by decide, ?_, ?_⟩
    · exact ⟨by decide, ⟨by decide, .inl rfl, trivial⟩, trivial⟩
    · exact ⟨by decide, ⟨by decide, .inl rfl, trivial⟩, by decide, number, trivial⟩
  have hlayout : BeginsWithLines deviceLookup.lines deviceLookupDocument :=
    (beginsWithLines_iff (Lookup.isContent_of_mem_lines hwell)).mpr
      (List.isPrefixOf_iff_prefix.mp (by decide +kernel))
  obtain ⟨q, hparse, hoperation, hroot, hshape, hfields, hcompounds⟩ :=
    parse_of_beginsWithLines hwell hlayout
  refine ⟨hwell, hlayout, q, hparse, ?_, hroot, hshape, ?_, ?_⟩
  · rw [hoperation]
    decide
  · rw [hfields]
    decide +kernel
  · rw [hcompounds]
    decide +kernel

end DataSourceGen
