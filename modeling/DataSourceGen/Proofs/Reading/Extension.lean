import DataSourceGen.Proofs.Reading.Ending
import DataSourceGen.Proofs.Reading.Heading

/-!
# Reading more of a document

A text of whole lines keeps its lines when more text follows (`pieces_append`). So a longer
document is read along the same readings: either the reading has ended already, and what follows is
not read (`ofDocument_eq_of_endsAfter`), or it goes on from where it was (`ofDocument_append`), and
then every further line adds at most one field and one compound (`growsBy_run`). **Theorem**
(`parse_append`) says what this means for the query of the document. -/

namespace DataSourceGen

namespace Text

/-- Whole lines are cut as they are without the text that follows them. -/
theorem pieces_append (rest : Text) :
    (t : Text) → t.getLast? = some '\n' → pieces (t ++ rest) = pieces t ++ pieces rest
  | [], whole => by cases whole
  | [c], whole => by
      obtain rfl : c = '\n' := Option.some.inj whole
      rfl
  | c :: d :: t, whole => by
      have ih : pieces (d :: t ++ rest) = pieces (d :: t) ++ pieces rest :=
        pieces_append rest (d :: t) (by rw [← whole, List.getLast?_cons_cons])
      have hne : pieces (d :: t) ≠ [] := by
        intro hnil
        have hflat := flatten_pieces (d :: t)
        rw [hnil] at hflat
        cases hflat
      obtain ⟨p, ps, hps⟩ := List.exists_cons_of_ne_nil hne
      rw [List.cons_append, pieces, pieces, ih, hps]
      split
      · rfl
      · rfl

/-- The lines of whole lines and more text are those of both, one after the other. -/
theorem lines_append {t : Text} (whole : t.getLast? = some '\n') (rest : Text) :
    lines (t ++ rest) = lines t ++ lines rest := by
  rw [lines, pieces_append rest t whole, List.map_append, lines, lines]

/-- Whole lines are at least one line. -/
theorem lines_ne_nil {t : Text} (whole : t.getLast? = some '\n') : lines t ≠ [] := by
  intro hnil
  have hflat := flatten_pieces t
  rw [lines, List.map_eq_nil_iff] at hnil
  rw [hnil] at hflat
  rw [← hflat] at whole
  cases whole

end Text

open Text

namespace Reading

/-! ### What one line adds -/

/-- A later reading, at most `n` lines further on: what was recorded stays, and each line adds at
most one field and one compound. -/
structure GrowsBy (n : Nat) (s t : Reading) : Prop extends Grows s t where
  fields_le : t.fields.length ≤ s.fields.length + n
  compounds_le : t.compounds.toList.length ≤ s.compounds.toList.length + n

/-- A reading that keeps what was recorded, and adds nothing. -/
theorem GrowsBy.of_eq {s t : Reading} (hfields : t.fields = s.fields)
    (hcompounds : t.compounds = s.compounds) (n : Nat) : GrowsBy n s t := by
  refine ⟨⟨?_, ?_⟩, ?_, ?_⟩
  · exact hfields ▸ List.prefix_refl _
  · exact hcompounds ▸ List.prefix_refl _
  · rw [hfields]
    exact Nat.le_add_right _ n
  · rw [hcompounds]
    exact Nat.le_add_right _ n

/-- Growth over some lines and then over more is growth over all of them. -/
theorem GrowsBy.trans {m n : Nat} {s t u : Reading} (hst : GrowsBy m s t) (htu : GrowsBy n t u) :
    GrowsBy (m + n) s u := by
  refine ⟨hst.toGrows.trans htu.toGrows, ?_, ?_⟩
  · have hm := hst.fields_le
    have hn := htu.fields_le
    omega
  · have hm := hst.compounds_le
    have hn := htu.compounds_le
    omega

/-- Noting a name adds at most one. -/
theorem length_noteCompound_le (compounds : NameSet) (name : Text) :
    (noteCompound compounds name).toList.length ≤ compounds.toList.length + 1 := by
  unfold noteCompound
  split
  · rw [NameSet.toList_insert]
    split
    · exact Nat.le_succ _
    · exact Nat.le_of_eq List.length_append
  · exact Nat.le_succ _

/-- A change adds at most one field and one compound. -/
theorem Change.growsBy {depth index : Nat} {line : Text} {s t : Reading}
    (h : Change depth index line s t) : GrowsBy 1 s t := by
  refine ⟨h.grows, ?_, ?_⟩
  · rcases h.fields_eq with hsame | ⟨field, hadd⟩
    · rw [hsame]
      exact Nat.le_succ _
    · rw [hadd]
      exact Nat.le_of_eq List.length_append
  · cases h with
    | operation | nameless | root | closed | passed => exact Nat.le_succ _
    | opened | recorded => exact length_noteCompound_le _ _

/-- A line adds at most one field and one compound. -/
theorem growsBy_next (depth index : Nat) (s : Reading) (line : Text) :
    GrowsBy 1 s (s.next depth index line).reading := by
  rcases next_cases depth index s line with ⟨-, hchange⟩ | ⟨-, hhalt⟩
  · exact hchange.growsBy
  · obtain ⟨lead, hlead⟩ := hhalt.exists_lead
    refine .of_eq ?_ ?_ 1
    · rw [hlead]
    · rw [hlead]

/-- A run adds at most one field and one compound for each line. -/
theorem growsBy_run (depth : Nat) :
    (raw : List Text) → ∀ index s, GrowsBy raw.length s (s.run depth index raw).1
  | [], _, s => .of_eq rfl rfl 0
  | line :: rest, index, s => by
      have hstep := growsBy_next depth index s (trim line)
      rw [List.length_cons, Nat.add_comm]
      simp only [run]
      split
      · exact hstep.trans (.of_eq rfl rfl rest.length)
      · exact hstep.trans (growsBy_run depth rest (index + 1) _)

/-! ### Longer documents -/

/-- What is reached after all lines of a document is its reading. -/
theorem ofDocument_eq_of_reached {depth : Nat} {document : Text} {s : Reading}
    (h : Reached depth (trimmedLines document) s) : ofDocument depth document = s := by
  have hrun := run_append_of_reached h (lines document) rfl []
  rw [List.append_nil] at hrun
  exact hrun

/-- Two documents have the same reading if it ends in lines that both begin with. -/
theorem ofDocument_eq_of_endsAfter {depth : Nat} {document longer : Text} {before : List Text}
    (h : EndsAfter depth document before)
    (hlines : trimmedLines document <+: trimmedLines longer) :
    ofDocument depth longer = ofDocument depth document := by
  obtain ⟨line, s, hline, hs, hstops⟩ := h
  rw [ofDocument_eq_of_stops hs (hline.trans hlines) hstops, ofDocument_eq_of_stops hs hline hstops]

/-- Whole lines have the trimmed lines that they have with more text behind them. -/
theorem trimmedLines_append {d : Text} (whole : d.getLast? = some '\n') (e : Text) :
    trimmedLines (d ++ e) = trimmedLines d ++ trimmedLines e := by
  rw [trimmedLines, lines_append whole, List.map_append, trimmedLines, trimmedLines]

/-- **Reading on**: the reading of whole lines and more text is that of the whole lines and at most
one field and one compound for each further line. -/
theorem ofDocument_append {depth : Nat} {d : Text} (whole : d.getLast? = some '\n') (e : Text) :
    GrowsBy (lines e).length (ofDocument depth d) (ofDocument depth (d ++ e)) := by
  rcases reached_or_ends depth (trimmedLines d) with ⟨s, hs⟩ | ⟨before, line, s, hends⟩
  · have hrun := run_append_of_reached hs (lines d) rfl (lines e)
    rw [← lines_append whole e] at hrun
    rw [ofDocument_eq_of_reached hs, ofDocument, hrun]
    exact growsBy_run depth (lines e) _ s
  · have hlines : trimmedLines d <+: trimmedLines (d ++ e) := by
      rw [trimmedLines_append whole]
      exact List.prefix_append _ _
    rw [ofDocument_eq_of_endsAfter ⟨line, s, hends⟩ hlines]
    exact .of_eq rfl rfl _

/-- The first line of whole lines is that of any longer document. -/
theorem headingName?_append {d : Text} (whole : d.getLast? = some '\n') (e : Text) :
    headingName? (trimmedLines (d ++ e)) = headingName? (trimmedLines d) := by
  rw [trimmedLines_append whole]
  rcases hlines : trimmedLines d with _ | ⟨first, rest⟩
  · exact absurd (List.map_eq_nil_iff.mp hlines) (lines_ne_nil whole)
  · rfl

end Reading

open Reading

/-- **Parsing is monotone**: let `d` consist of whole lines, at least one, and let any text `e`
follow. Then `d` is accepted iff `d ++ e` is. The two queries have the same operation name; they
have the same root object and shape if `d` has two lines; the fields and the compounds of `d` are
initial segments of those of `d ++ e`, and each line of `e` adds at most one of either. If the
reading of `d` ends at one of its lines, then nothing of `e` counts. -/
theorem parse_append {depth : Nat} {d : Text} (whole : d.getLast? = some '\n') (e : Text) :
    ((∃ q, Query.parse depth d = .ok q) ↔ ∃ q, Query.parse depth (d ++ e) = .ok q) ∧
    (∀ q r, Query.parse depth d = .ok q → Query.parse depth (d ++ e) = .ok r →
      r.operationName = q.operationName ∧
      (2 ≤ (lines d).length → r.rootName = q.rootName ∧ r.shape = q.shape) ∧
      q.fields <+: r.fields ∧
      q.compounds.toList <+: r.compounds.toList ∧
      r.fields.length ≤ q.fields.length + (lines e).length ∧
      r.compounds.toList.length ≤ q.compounds.toList.length + (lines e).length) ∧
    ((∃ before, EndsAfter depth d before) → Query.parse depth (d ++ e) = Query.parse depth d) := by
  have hlines : trimmedLines (d ++ e) = trimmedLines d ++ trimmedLines e :=
    trimmedLines_append whole e
  have hname := headingName?_append whole e
  refine ⟨?_, ?_, ?_⟩
  · rw [Query.exists_parse_iff, Query.exists_parse_iff, hname]
  · intro q r hq hr
    have hgrows : GrowsBy (lines e).length (ofDocument depth d) (ofDocument depth (d ++ e)) :=
      ofDocument_append whole e
    obtain ⟨hfields, hcompounds⟩ := Query.recorded_prefixes hq hr hgrows.toGrows
    obtain ⟨-, -, -, hfieldsq, hcompoundsq⟩ := Query.parse_eq_ok_iff.mp hq
    obtain ⟨-, -, -, hfieldsr, hcompoundsr⟩ := Query.parse_eq_ok_iff.mp hr
    refine ⟨Query.operationName_eq hq hr hname, ?_, hfields, hcompounds, ?_, ?_⟩
    · intro htwo
      refine Query.root_eq hq hr ?_
      rw [hlines]
      exact rootLineOf_append (by rwa [trimmedLines, List.length_map]) _
    · rw [hfieldsq, hfieldsr]
      exact hgrows.fields_le
    · rw [hcompoundsq, hcompoundsr]
      exact hgrows.compounds_le
  · rintro ⟨before, hends⟩
    have hinit : trimmedLines d <+: trimmedLines (d ++ e) := by
      rw [hlines]
      exact List.prefix_append _ _
    rw [Query.parse, Query.parse, ofDocument_eq_of_endsAfter hends hinit]

/-- The first lines of a document. -/
def addressLines : Text :=
  "query Address \x7b\n places(id: $place) \x7b\n a_b \x7b\n  street_name\n"

/-- `addressLines` and three more lines: a field, a repetition, and a closing line that ends the
reading at depth 3. -/
def addressLinesClosed : Text :=
  addressLines ++ "  zip\n street_name\n \x7d\n"

/-- The second of the three further lines adds nothing, and after the third nothing is read. -/
theorem parse_append_addressLines :
    ∃ q r, Query.parse 3 addressLines = .ok q ∧ Query.parse 3 addressLinesClosed = .ok r ∧
      r.operationName = q.operationName ∧ r.rootName = q.rootName ∧ q.fields <+: r.fields ∧
      q.compounds.toList <+: r.compounds.toList ∧ q.fields.length = 1 ∧ r.fields.length = 2 ∧
      Query.parse 3 (addressLinesClosed ++ "more_names") = .ok r := by
  have reading : ofDocument 3 addressLines =
      { operationName := some "address".toList
        rootName := "places"
        parameter := some "place".toList
        openBlocks := ["a_b".toList]
        lead := "a_b_"
        fields := [{ flatName := "a_b_street_name" }]
        flatNames := .ofList ["a_b_street_name".toList]
        compounds := .ofList ["a_b".toList, "street_name".toList] } := by decide +kernel
  have readingClosed : ofDocument 3 addressLinesClosed =
      { operationName := some "address".toList
        rootName := "places"
        parameter := some "place".toList
        openBlocks := ["a_b".toList]
        lead := []
        fields := [{ flatName := "a_b_street_name" }, { flatName := "a_b_zip" }]
        flatNames := .ofList ["a_b_street_name".toList, "a_b_zip".toList]
        compounds := .ofList ["a_b".toList, "street_name".toList] } := by decide +kernel
  have hq : ∃ q, Query.parse 3 addressLines = .ok q ∧ q.fields.length = 1 := by
    rw [Query.parse, reading]
    exact ⟨_, rfl, rfl⟩
  have hr : ∃ r, Query.parse 3 addressLinesClosed = .ok r ∧ r.fields.length = 2 := by
    rw [Query.parse, readingClosed]
    exact ⟨_, rfl, rfl⟩
  obtain ⟨q, hq, hone⟩ := hq
  obtain ⟨r, hr, htwo⟩ := hr
  have hmore : (2 : Nat) ≤ (lines addressLines).length := by decide +kernel
  obtain ⟨-, hgrows, -⟩ := @parse_append 3 addressLines (by decide)
    "  zip\n street_name\n \x7d\n"
  obtain ⟨hname, hheading, hfields, hcompounds, -, -⟩ := hgrows q r hq hr
  obtain ⟨-, -, hstop⟩ := @parse_append 3 addressLinesClosed (by decide) "more_names"
  have reached : Reached 3 ["query Address \x7b".toList, "places(id: $place) \x7b".toList,
      "a_b \x7b".toList, "street_name".toList, "zip".toList, "street_name".toList] _ :=
    (((((Reached.start.step "query Address \x7b" (by decide)).step "places(id: $place) \x7b"
      (by decide)).step "a_b \x7b" (by decide)).step "street_name" (by decide +kernel)).step "zip"
      (by decide +kernel)).step "street_name" (by decide +kernel)
  have hends : EndsAfter 3 addressLinesClosed ["query Address \x7b".toList,
      "places(id: $place) \x7b".toList, "a_b \x7b".toList, "street_name".toList, "zip".toList,
      "street_name".toList] :=
    ⟨"\x7d", _, ⟨[], by decide +kernel⟩, reached, by decide +kernel⟩
  exact ⟨q, r, hq, hr, hname, (hheading hmore).1, hfields, hcompounds, hone, htwo,
    (hstop ⟨_, hends⟩).trans hr⟩

end DataSourceGen
