import Mathlib.Data.List.Infix
import DataSourceGen.Proofs.Segment.RoundTrip
import DataSourceGen.Query.Accessor

/-!
# Names that do not matter to a flat name

At each separator the scan of a flat name asks whether a member of the set extends the word so far.
This word is a piece of the flat name: it begins where the flat name does or behind a separator, and
the separator ends it (`IsPiece`). So sets that extend the same pieces give the same segments
(`segments_eq_of_agree`), whatever else they hold.

One more member can add to the pieces that are extended, and each of these is a proper beginning of
it. **Theorem** (`segments_insert_of_unrelated`): a name that no piece properly begins changes no
segment and no accessor. A piece may hold separators itself, since the scan may have kept some; it
is not enough to look at the names between neighbouring separators. -/

namespace DataSourceGen

/-- Whether a text stands in a flat name at its start or just behind a separator, and just before
another one. -/
def IsPiece (piece flatName : Text) : Prop :=
  ∃ before after, flatName = before ++ piece ++ separator :: after ∧
    (before = [] ∨ before.getLast? = some separator)

/-- With one more separator in front, the pieces are what stands between any two. -/
theorem isPiece_iff_exists_eq {piece flatName : Text} :
    IsPiece piece flatName ↔ separator :: piece ++ [separator] <:+: separator :: flatName := by
  constructor
  · rintro ⟨before, after, rfl, rfl | hlast⟩
    · exact ⟨[], after, by simp⟩
    · obtain ⟨init, rfl⟩ := List.getLast?_eq_some_iff.mp hlast
      exact ⟨separator :: init, after, by simp⟩
  · rintro ⟨init, after, hsplit⟩
    rcases init with _ | ⟨c, init⟩
    · refine ⟨[], after, ?_, .inl rfl⟩
      simpa using hsplit.symm
    · refine ⟨init ++ [separator], after, ?_, .inr List.getLast?_concat⟩
      simpa using (List.cons.inj hsplit).2.symm

/-- The scan goes on alike from a word of the flat name, under sets that extend the same pieces. -/
theorem segmentsFrom_eq_of_agree {s s' : NameSet} {flatName : Text}
    (h : ∀ piece, IsPiece piece flatName → s.hasExtension piece = s'.hasExtension piece) :
    (rest : Text) → ∀ before word, flatName = before ++ word ++ rest →
      (before = [] ∨ before.getLast? = some separator) →
      segmentsFrom s word rest = segmentsFrom s' word rest
  | [], _, _, _, _ => rfl
  | c :: rest, before, word, hname, hbefore => by
      have hkept : segmentsFrom s (word ++ [c]) rest = segmentsFrom s' (word ++ [c]) rest :=
        segmentsFrom_eq_of_agree h rest before (word ++ [c]) (by simp [hname]) hbefore
      rw [segmentsFrom, segmentsFrom, hkept]
      by_cases hc : c = separator
      · subst hc
        have hclosed : segmentsFrom s [] rest = segmentsFrom s' [] rest :=
          segmentsFrom_eq_of_agree h rest (before ++ word ++ [separator]) [] (by simp [hname])
            (.inr List.getLast?_concat)
        rw [h word ⟨before, rest, hname, hbefore⟩, hclosed]
      · have hnot : (c == separator) = false := beq_eq_false_iff_ne.mpr hc
        rw [hnot, Bool.false_and, Bool.false_and]
        rfl

/-- **Segments** depend on which pieces of the flat name are extended. -/
theorem segments_eq_of_agree {s s' : NameSet} {flatName : Text}
    (h : ∀ piece, IsPiece piece flatName → s.hasExtension piece = s'.hasExtension piece) :
    segments s flatName = segments s' flatName :=
  segmentsFrom_eq_of_agree h flatName [] [] rfl (.inl rfl)

/-- **Unrelated names**: if no piece of a flat name that begins at its start or just behind a
separator, and ends just before one, is a proper beginning of a name, then adding the name to a set
changes neither the segments of the flat name under the set nor its accessor in a query with these
compounds. -/
theorem segments_insert_of_unrelated (compounds : NameSet) {flatName name : Text}
    (h : ∀ piece, IsPiece piece flatName → ¬ (piece <+: name ∧ piece ≠ name)) :
    segments (compounds.insert name) flatName = segments compounds flatName ∧
      ∀ q : Query, q.compounds = compounds →
        Query.accessor { q with compounds := compounds.insert name } flatName =
          q.accessor flatName := by
  have hsegments : segments (compounds.insert name) flatName = segments compounds flatName :=
    segments_eq_of_agree fun piece hpiece =>
      NameSet.hasExtension_insert_of_not (h piece hpiece) compounds
  refine ⟨hsegments, ?_⟩
  rintro q rfl
  unfold Query.accessor Query.segmentsOf
  rw [hsegments]

/-- `name_tag` is a proper extension of the last word of `edges_node_name`, which no separator ends,
and of no piece. Under a set that keeps `node_name` whole it changes nothing. -/
theorem segments_insert_of_unrelated_node_name :
    let compounds := NameSet.ofList ["node_type".toList]
    let flatName : Text := "edges_node_name"
    (∀ piece, IsPiece piece flatName → ¬ (piece <+: "name_tag".toList ∧ piece ≠ "name_tag")) ∧
      segments (compounds.insert "name_tag") flatName = ["edges".toList, "node_name".toList] := by
  have unrelated : ∀ piece, IsPiece piece "edges_node_name" →
      ¬ (piece <+: "name_tag".toList ∧ piece ≠ "name_tag") := by
    rintro piece hpiece ⟨hbegins, hne⟩
    have hnone : ∀ p ∈ "name_tag".toList.inits,
        separator :: p ++ [separator] <:+: separator :: "edges_node_name".toList → False := by
      decide
    exact hnone piece ((List.mem_inits _ _).mpr hbegins) (isPiece_iff_exists_eq.mp hpiece)
  exact ⟨unrelated, (segments_insert_of_unrelated _ unrelated).1.trans (by decide)⟩

end DataSourceGen
