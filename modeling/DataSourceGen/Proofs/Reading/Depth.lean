import DataSourceGen.Proofs.Reading.Extension

/-!
# The wrapper depth

The wrapper depth is compared with the separators of the lead when a block is closed, and nowhere
else. A line that goes on at some depth does the same at any smaller one (`next_eq_of_le`), so the
readings reached are reached at all smaller depths, and a greater depth only cuts
(`grows_ofDocument_of_le`).

Without wrappers the reading ends at the closing line that finds no open block
(`endsAfter_zero_iff`), and at a depth above all counts of separators at the first closing line
(`endsAfter_iff_of_count_lt`). **Theorem** (`parse_of_depth`) puts this together. -/

namespace DataSourceGen

open Text

namespace Reading

/-! ### Smaller depths go further -/

/-- A closing line that goes on at some depth does the same at a smaller one. -/
theorem closeBlock_eq_of_le {w₁ w₂ : Nat} (h : w₁ ≤ w₂) {s : Reading}
    (goesOn : (s.closeBlock w₂).stops = false) : s.closeBlock w₁ = s.closeBlock w₂ := by
  unfold closeBlock at goesOn ⊢
  by_cases hdepth : s.lead.count separator < w₂
  · rw [if_pos hdepth] at goesOn
    cases goesOn
  · rw [if_neg hdepth, if_neg (by omega)]

/-- A line of selections that goes on at some depth does the same at a smaller one. -/
theorem select_eq_of_le {w₁ w₂ : Nat} (h : w₁ ≤ w₂) {s : Reading} {line : Text}
    (goesOn : (s.select w₂ line).stops = false) : s.select w₁ line = s.select w₂ line := by
  unfold select at goesOn ⊢
  split
  · rfl
  · next hopens =>
    simp only [hopens] at goesOn
    split
    · next hcloses =>
      rw [if_pos hcloses] at goesOn
      exact closeBlock_eq_of_le h goesOn
    · rfl

/-- A line that goes on at some depth does the same at a smaller one. -/
theorem next_eq_of_le {w₁ w₂ : Nat} (h : w₁ ≤ w₂) {index : Nat} {s : Reading} {line : Text}
    (goesOn : (s.next w₂ index line).stops = false) :
    s.next w₁ index line = s.next w₂ index line := by
  by_cases sel : ReadsSelections index line
  · rw [next_eq_select sel] at goesOn
    rw [next_eq_select sel, next_eq_select sel]
    exact select_eq_of_le h goesOn
  · -- A line of the heading is read without regard to the depth.
    match index with
    | 0 =>
      have keyword : OperationLine.ofLine line ≠ .other :=
        fun hother => sel ⟨by omega, fun _ => hother⟩
      simp only [next]
    | 1 => rfl
    | n + 2 => exact absurd (readsSelections_of_two_le (by omega) line) sel

/-- A reading reached at some depth is reached at all smaller ones. -/
theorem Reached.of_le {w₁ w₂ : Nat} (h : w₁ ≤ w₂) {before : List Text} {s : Reading}
    (hs : Reached w₂ before s) : Reached w₁ before s := by
  induction hs with
  | start => exact .start
  | @step before s line reached goesOn ih =>
    have hnext := next_eq_of_le h goesOn
    rw [← hnext] at goesOn ⊢
    exact ih.step line goesOn

/-- **A greater depth only cuts**: what it leaves is an initial segment of what a smaller depth
records. -/
theorem grows_ofDocument_of_le {w₁ w₂ : Nat} (h : w₁ ≤ w₂) (document : Text) :
    Grows (ofDocument w₂ document) (ofDocument w₁ document) := by
  rcases ofDocument_cases w₂ document with hall | ⟨before, line, after, s, hlines, hs, hhalt⟩
  · rw [ofDocument_eq_of_reached (hall.of_le h)]
    exact Grows.refl _
  · have hline : before ++ [line] <+: trimmedLines document := ⟨after, by simp [hlines]⟩
    -- At the smaller depth the reading gets to the last line as well, and may go on from there.
    have hmore := (grows_next w₁ before.length s line).trans (grows_of_reached (hs.of_le h) hline)
    obtain ⟨lead, hlead⟩ := hhalt.exists_lead
    rw [hlead]
    exact ⟨hmore.fields, hmore.compounds⟩

/-! ### Which lines end a reading -/

/-- A line ends the reading iff it is a closing line of selections, and there are either too few
separators or no block to close. -/
theorem next_stops_iff {depth index : Nat} {s : Reading} {line : Text} :
    (s.next depth index line).stops = true ↔
      ReadsSelections index line ∧ line = closingLine ∧
        (s.lead.count separator < depth ∨ s.openBlocks = []) := by
  constructor
  · intro hstops
    have hhalt := halt_of_next hstops
    generalize (s.next depth index line).reading = t at hhalt
    cases hhalt with
    | wrapper sel closes outside => exact ⟨sel, closes, .inl outside⟩
    | bottom sel closes inside bare => exact ⟨sel, closes, .inr bare⟩
  · rintro ⟨sel, closes, hend⟩
    rw [next_eq_select sel, select, closes, openedBlock?_closingLine]
    simp only [if_true]
    unfold closeBlock
    split
    · rfl
    · next hinside =>
      rcases hend with houtside | hbare
      · exact absurd houtside hinside
      · rw [hbare]

/-- The lines of selections of an accepted document are those below its heading. -/
theorem readsSelections_iff {document : Text} (hkey : HasKeyword (trimmedLines document))
    {before : List Text} {line : Text} (hline : before ++ [line] <+: trimmedLines document) :
    ReadsSelections before.length line ↔ 2 ≤ before.length :=
  ⟨two_le_of_readsSelections (hkey.of_prefix hline), fun h => readsSelections_of_two_le h line⟩

/-- **Without wrappers** the reading ends at the first closing line that finds no open block. -/
theorem endsAfter_zero_iff {document : Text} (hkey : HasKeyword (trimmedLines document))
    (before : List Text) :
    EndsAfter 0 document before ↔
      IsFirstClosing (blocksAfter · = []) (trimmedLines document) before := by
  refine endsAfter_iff_isFirstClosing ?_ before
  intro before line s hline hs
  have hinit : before <+: trimmedLines document := (List.prefix_append before [line]).trans hline
  have hopen : s.openBlocks = [] ↔ blocksAfter before = [] := by
    rw [← hs.openBlocks_eq (hkey.of_prefix hinit), List.reverse_eq_nil_iff]
  rw [next_stops_iff, readsSelections_iff hkey hline, hopen]
  constructor
  · rintro ⟨hlong, hcloses, hcount | hbare⟩
    · exact absurd hcount (Nat.not_lt_zero _)
    · exact ⟨hcloses, hlong, hbare⟩
  · rintro ⟨hcloses, hlong, hbare⟩
    exact ⟨hlong, hcloses, .inr hbare⟩

/-- **Above all counts of separators** that are reached, the reading ends at the first closing
line. -/
theorem endsAfter_iff_of_count_lt {document : Text} (hkey : HasKeyword (trimmedLines document))
    {depth : Nat} (above : ∀ before s, before <+: trimmedLines document → Reached depth before s →
      s.lead.count separator < depth) (before : List Text) :
    EndsAfter depth document before ↔
      IsFirstClosing (fun _ => True) (trimmedLines document) before := by
  refine endsAfter_iff_isFirstClosing ?_ before
  intro before line s hline hs
  have hinit : before <+: trimmedLines document := (List.prefix_append before [line]).trans hline
  rw [next_stops_iff, readsSelections_iff hkey hline]
  constructor
  · rintro ⟨hlong, hcloses, -⟩
    exact ⟨hcloses, hlong, trivial⟩
  · rintro ⟨hcloses, hlong, -⟩
    exact ⟨hlong, hcloses, .inl (above before s hinit hs)⟩

end Reading

open Reading

/-- **The wrapper depth only cuts**: a document is accepted at all depths or at none. Between two
depths the operation name, the root object and the shape are the same, and the fields and the
compounds at the greater one are initial segments of those at the smaller one. The reading of an
accepted document ends at depth 0 at the first closing line below the heading that finds no open
block, and at a depth above every count of separators reached at the first closing line below the
heading. -/
theorem parse_of_depth (document : Text) :
    (∀ w₁ w₂, w₁ ≤ w₂ →
      ((∃ q, Query.parse w₁ document = .ok q) ↔ ∃ q, Query.parse w₂ document = .ok q) ∧
      ∀ q r, Query.parse w₁ document = .ok q → Query.parse w₂ document = .ok r →
        r.operationName = q.operationName ∧ r.rootName = q.rootName ∧ r.shape = q.shape ∧
        r.fields <+: q.fields ∧ r.compounds.toList <+: q.compounds.toList) ∧
    ∀ depth q, Query.parse depth document = .ok q →
      (depth = 0 → ∀ before, EndsAfter depth document before ↔
        IsFirstClosing (blocksAfter · = []) (trimmedLines document) before) ∧
      ((∀ before s, before <+: trimmedLines document → Reached depth before s →
          s.lead.count separator < depth) →
        ∀ before, EndsAfter depth document before ↔
          IsFirstClosing (fun _ => True) (trimmedLines document) before) := by
  refine ⟨?_, ?_⟩
  · intro w₁ w₂ hle
    refine ⟨by rw [Query.exists_parse_iff, Query.exists_parse_iff], ?_⟩
    intro q r hq hr
    obtain ⟨hroot, hshape⟩ := Query.root_eq hq hr rfl
    obtain ⟨hfields, hcompounds⟩ :=
      Query.recorded_prefixes hr hq (grows_ofDocument_of_le hle document)
    exact ⟨Query.operationName_eq hq hr rfl, hroot, hshape, hfields, hcompounds⟩
  · intro depth q hq
    have hkey := hasKeyword_of_parse hq
    refine ⟨?_, ?_⟩
    · rintro rfl before
      exact endsAfter_zero_iff hkey before
    · intro above before
      exact endsAfter_iff_of_count_lt hkey above before

/-- A document with two blocks below its heading, and a last closing line that finds none. -/
def twoBlocksDocument : Text :=
  "query Q \x7b\nR \x7b\na \x7b\nx_y\n\x7d\nb_c \x7b\nz\n\x7d\n\x7d\nd \x7b"

/-- Depth 4 is above all counts and reads the first field only; depth 0 reads both, up to the
closing line that finds no open block. -/
theorem parse_of_depth_twoBlocksDocument :
    ∃ q r, Query.parse 0 twoBlocksDocument = .ok q ∧ Query.parse 4 twoBlocksDocument = .ok r ∧
      r.shape = q.shape ∧ r.fields <+: q.fields ∧ r.fields.length = 1 ∧ q.fields.length = 2 ∧
      IsFirstClosing (blocksAfter · = []) (trimmedLines twoBlocksDocument)
        ((trimmedLines twoBlocksDocument).take 8) ∧
      IsFirstClosing (fun _ => True) (trimmedLines twoBlocksDocument)
        ((trimmedLines twoBlocksDocument).take 4) := by
  have lines : trimmedLines twoBlocksDocument = ["query Q \x7b".toList, "R \x7b".toList,
      "a \x7b".toList, "x_y".toList, "\x7d".toList, "b_c \x7b".toList, "z".toList, "\x7d".toList,
      "\x7d".toList, "d \x7b".toList] := by decide +kernel
  have reading : ofDocument 0 twoBlocksDocument =
      { operationName := some "q".toList
        rootName := "R"
        fields := [{ flatName := "a_x_y" }, { flatName := "b_c_z" }]
        flatNames := .ofList ["a_x_y".toList, "b_c_z".toList]
        compounds := .ofList ["x_y".toList, "b_c".toList] } := by decide +kernel
  have readingCut : ofDocument 4 twoBlocksDocument =
      { operationName := some "q".toList
        rootName := "R"
        openBlocks := ["a".toList]
        fields := [{ flatName := "a_x_y" }]
        flatNames := .ofList ["a_x_y".toList]
        compounds := .ofList ["x_y".toList] } := by decide +kernel
  have hq : ∃ q, Query.parse 0 twoBlocksDocument = .ok q ∧ q.fields.length = 2 := by
    rw [Query.parse, reading]
    exact ⟨_, rfl, rfl⟩
  have hr : ∃ r, Query.parse 4 twoBlocksDocument = .ok r ∧ r.fields.length = 1 := by
    rw [Query.parse, readingCut]
    exact ⟨_, rfl, rfl⟩
  obtain ⟨q, hq, htwo⟩ := hq
  obtain ⟨r, hr, hone⟩ := hr
  obtain ⟨hcut, hends⟩ := parse_of_depth twoBlocksDocument
  obtain ⟨-, hsame⟩ := hcut 0 4 (by omega)
  obtain ⟨-, -, hshape, hfields, -⟩ := hsame q r hq hr
  have hkey := hasKeyword_of_parse hq
  have above : ∀ before s, before <+: trimmedLines twoBlocksDocument → Reached 4 before s →
      s.lead.count separator < 4 := by
    intro before s hinit hs
    rw [hs.coherent.lead, hs.openBlocks_eq (hkey.of_prefix hinit), List.prefix_iff_eq_take.mp hinit,
      lines]
    have hbound : ∀ n ≤ 10, (leadOf (blocksAfter (List.take n ["query Q \x7b".toList,
        "R \x7b".toList, "a \x7b".toList, "x_y".toList, "\x7d".toList, "b_c \x7b".toList,
        "z".toList, "\x7d".toList, "\x7d".toList, "d \x7b".toList]))).count separator < 4 := by
      decide +kernel
    exact hbound _ (by simpa [lines] using hinit.length_le)
  have reached : Reached 4 ["query Q \x7b", "R \x7b", "a \x7b", "x_y"] _ :=
    (((Reached.start.step "query Q \x7b" (by decide)).step "R \x7b" (by decide)).step "a \x7b"
      (by decide)).step "x_y" (by decide +kernel)
  have reachedBottom : Reached 0 ["query Q \x7b", "R \x7b", "a \x7b", "x_y", "\x7d", "b_c \x7b",
      "z", "\x7d"] _ :=
    (((((((Reached.start.step "query Q \x7b" (by decide)).step "R \x7b" (by decide)).step "a \x7b"
      (by decide)).step "x_y" (by decide +kernel)).step "\x7d" (by decide +kernel)).step "b_c \x7b"
      (by decide +kernel)).step "z" (by decide +kernel)).step "\x7d" (by decide +kernel)
  refine ⟨q, r, hq, hr, hshape, hfields, hone, htwo, ?_, ?_⟩
  · rw [← (hends 0 q hq).1 rfl, lines]
    exact ⟨"\x7d", _, by rw [lines]; exact ⟨_, rfl⟩, reachedBottom, by decide +kernel⟩
  · rw [← (hends 4 r hr).2 above, lines]
    exact ⟨"\x7d", _, by rw [lines]; exact ⟨_, rfl⟩, reached, by decide +kernel⟩

end DataSourceGen
