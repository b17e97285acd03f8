import DataSourceGen.Proofs.Reading.Reached

/-!
# What a reading keeps twice agrees

A reading holds the nesting twice, as the texts of the open blocks and as the lead that they spell,
and the flat names twice, in the fields and as a set. `Coherent` says that the copies agree, and
every change keeps it (`Change.coherent`), so that it holds of all readings reached
(`Reached.coherent`).

Closing a block cuts the lead by a number of bytes, and the block may be any text. Since the lead
ends with the block and a separator, the cut falls between two characters and leaves the lead of the
blocks around it (`Coherent.lead_eq`, `Coherent.closeBlock_eq`). **Theorem** (`reading_invariants`)
puts all of this together for the readings reached. -/

namespace DataSourceGen.Reading

open Text

/-! ### The lead of some blocks -/

/-- What the flat names inside some blocks begin with; the outermost block comes first. -/
def leadOf (blocks : List Text) : Text :=
  blocks.flatMap fun block => block ++ [separator]

@[simp] theorem leadOf_nil : leadOf [] = [] := rfl

/-- One more block inside puts its text and a separator at the end. -/
theorem leadOf_concat (blocks : List Text) (block : Text) :
    leadOf (blocks ++ [block]) = leadOf blocks ++ (block ++ [separator]) := by
  simp [leadOf]

/-- Names below some blocks have a flat name that begins with the lead. -/
theorem flatten_append_singleton (name : Text) :
    (blocks : List Text) → flatten (blocks ++ [name]) = leadOf blocks ++ name
  | [] => rfl
  | [block] => by simp [flatten, joinWith, leadOf]
  | block :: inner :: blocks => by
      have ih := flatten_append_singleton name (inner :: blocks)
      simp only [flatten, leadOf, List.cons_append, List.flatMap_cons, joinWith] at ih ⊢
      rw [ih]
      simp

/-! ### The copies agree -/

/-- The lead spells the open blocks, the set of flat names lists those of the fields, and the
compounds are names with a separator. -/
structure Coherent (s : Reading) : Prop where
  lead : s.lead = leadOf s.openBlocks.reverse
  flatNames : s.flatNames.toList = s.fields.map Field.flatName
  compounds : ∀ name ∈ s.compounds.toList, separator ∈ name

/-- The lead of a reading inside a block ends with the block and a separator. -/
theorem Coherent.lead_eq {s : Reading} (h : Coherent s) {block : Text} {outer : List Text}
    (innermost : s.openBlocks = block :: outer) :
    s.lead = leadOf outer.reverse ++ (block ++ [separator]) := by
  rw [h.lead, innermost, List.reverse_cons, leadOf_concat]

/-- The bytes that a closed block gives up are there. -/
theorem Coherent.byteSize_lead {s : Reading} (h : Coherent s) {block : Text} {outer : List Text}
    (innermost : s.openBlocks = block :: outer) :
    byteSize s.lead = byteSize (leadOf outer.reverse) + (byteSize block + separator.utf8Size) := by
  rw [h.lead_eq innermost, byteSize_append, byteSize_append, byteSize_cons, byteSize_nil,
    Nat.add_zero]

/-- Cutting the closed block off leaves the lead of the blocks around it. -/
theorem Coherent.truncate_lead {s : Reading} (h : Coherent s) {block : Text} {outer : List Text}
    (innermost : s.openBlocks = block :: outer) :
    truncate (byteSize s.lead - (byteSize block + separator.utf8Size)) s.lead =
      leadOf outer.reverse := by
  rw [h.byteSize_lead innermost, Nat.add_sub_cancel, h.lead_eq innermost]
  exact truncate_append _ _

/-- A block that is closed inside the wrappers leaves the blocks around it and their lead. -/
theorem Coherent.closeBlock_eq {s : Reading} (h : Coherent s) {block : Text} {outer : List Text}
    (innermost : s.openBlocks = block :: outer) {depth : Nat}
    (inside : depth ≤ s.lead.count separator) :
    s.closeBlock depth =
      { reading := { s with lead := leadOf outer.reverse, openBlocks := outer }
        events := [.closingBlock block] } := by
  simp only [closeBlock, innermost, if_neg (Nat.not_lt.mpr inside)]
  rw [h.truncate_lead innermost]

/-- The flat names of the fields are pairwise distinct. -/
theorem Coherent.nodup_fields {s : Reading} (h : Coherent s) :
    (s.fields.map Field.flatName).Nodup :=
  h.flatNames ▸ s.flatNames.nodup

/-- Nothing has been read, and nothing is at odds. -/
theorem coherent_start : Coherent {} :=
  ⟨rfl, rfl, fun _ hname => absurd hname List.not_mem_nil⟩

/-- Noting a name adds none without a separator. -/
theorem separator_mem_of_mem_noteCompound {compounds : NameSet} {name : Text}
    (h : ∀ m ∈ compounds.toList, separator ∈ m) :
    ∀ m ∈ (noteCompound compounds name).toList, separator ∈ m := by
  intro m hm
  rcases mem_noteCompound.mp hm with hold | ⟨rfl, hsep⟩
  · exact h m hold
  · exact hsep

/-- **Preservation**: a change keeps the copies in step. -/
theorem Change.coherent {depth index : Nat} {line : Text} {s t : Reading}
    (h : Change depth index line s t) (hs : Coherent s) : Coherent t := by
  cases h with
  | operation | nameless | root | passed => exact ⟨hs.lead, hs.flatNames, hs.compounds⟩
  | opened sel opens =>
    refine ⟨?_, hs.flatNames, separator_mem_of_mem_noteCompound hs.compounds⟩
    simp only [List.reverse_cons, leadOf_concat, ← hs.lead, List.append_assoc]
  | closed sel closes innermost inside =>
    exact ⟨hs.truncate_lead innermost, hs.flatNames, hs.compounds⟩
  | recorded sel plain stays inside selects named isNew =>
    refine ⟨hs.lead, ?_, separator_mem_of_mem_noteCompound hs.compounds⟩
    rw [NameSet.toList_insert, if_neg isNew, hs.flatNames, List.map_append, List.map_singleton]

/-- The readings reached are coherent. -/
theorem Reached.coherent {depth : Nat} {before : List Text} {s : Reading}
    (h : Reached depth before s) : Coherent s := by
  induction h with
  | start => exact coherent_start
  | step line reached goesOn ih => exact (change_of_next goesOn).coherent ih

/-- **Invariants of reading**: in every reading reached, whatever the lines and the wrapper depth,
the lead spells the open blocks; a closed block takes no more bytes than there are, the bytes left
are those of the lead of the blocks around it, and this lead is what the cut leaves; a closing line
finds no open block only if there are no wrappers; the set of flat names lists those of the fields,
which are distinct; and each compound holds a separator and is listed once. -/
theorem reading_invariants {depth : Nat} {before : List Text} {s : Reading}
    (h : Reached depth before s) :
    s.lead = leadOf s.openBlocks.reverse ∧
    (∀ block outer, s.openBlocks = block :: outer →
      byteSize block + separator.utf8Size ≤ byteSize s.lead ∧
      leadOf outer.reverse <+: s.lead ∧
      byteSize (leadOf outer.reverse) =
        byteSize s.lead - (byteSize block + separator.utf8Size) ∧
      (depth ≤ s.lead.count separator →
        s.closeBlock depth =
          { reading := { s with lead := leadOf outer.reverse, openBlocks := outer }
            events := [.closingBlock block] })) ∧
    (s.openBlocks = [] → depth ≤ s.lead.count separator → depth = 0) ∧
    s.flatNames.toList = s.fields.map Field.flatName ∧
    (s.fields.map Field.flatName).Nodup ∧
    ∀ name ∈ s.compounds.toList, separator ∈ name ∧ s.compounds.toList.count name = 1 := by
  have hs : Coherent s := h.coherent
  refine ⟨hs.lead, ?_, ?_, hs.flatNames, hs.nodup_fields, ?_⟩
  · intro block outer innermost
    have hsize := hs.byteSize_lead innermost
    refine ⟨by omega, ?_, by omega, fun inside => hs.closeBlock_eq innermost inside⟩
    rw [hs.lead_eq innermost]
    exact List.prefix_append _ _
  · intro bare inside
    rw [hs.lead, bare] at inside
    exact Nat.le_zero.mp inside
  · intro name hname
    exact ⟨hs.compounds name hname, by rw [s.compounds.nodup.count, if_pos hname]⟩

/-- Below two blocks whose texts hold a separator and a character of two bytes, the outer one's lead
is what closing the inner one leaves. -/
theorem reading_invariants_two_blocks :
    ∃ s, Reached 2 ["query q \x7b", "r \x7b", "é_a \x7b", "_ \x7b"] s ∧
      s.openBlocks = ["_".toList, "é_a".toList] ∧ byteSize s.lead = 7 ∧
      (s.closeBlock 2).reading.lead = "é_a_".toList := by
  have reached : Reached 2 ["query q \x7b", "r \x7b", "é_a \x7b", "_ \x7b"] _ :=
    (((Reached.start.step "query q \x7b" (by decide)).step "r \x7b" (by decide)).step "é_a \x7b"
      (by decide)).step "_ \x7b" (by decide)
  refine ⟨_, reached, by decide, by decide, ?_⟩
  obtain ⟨-, hclose, -⟩ := reading_invariants reached
  obtain ⟨-, -, -, heq⟩ := hclose "_" ["é_a".toList] (by decide)
  rw [heq (by decide)]
  decide

end DataSourceGen.Reading
