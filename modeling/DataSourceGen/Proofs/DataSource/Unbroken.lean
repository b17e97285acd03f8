import DataSourceGen.Proofs.DataSource.Binding
import DataSourceGen.Proofs.DataSource.Spliced
import DataSourceGen.Proofs.Reading.Characters
import DataSourceGen.Proofs.Text.LetterCase
import DataSourceGen.Proofs.Text.Layout

/-!
# The lines of a source are lines of its text

The source of a data source is made of lines that are ended one by one. If no line has a line feed
in it, cutting the text gives them back (`pieces_source`), so that the text tells as much as the
list. The texts spliced into the lines have no line feed when the data source is that of a parsed
query (`Query.isOnOneLine_dataSource`), since each was cut out of a line of the document. -/

namespace DataSourceGen

open Text

/-! ### Bodies without line feeds -/

/-- Whether no line of a body has a line feed in it. -/
def Unbroken (body : List Text) : Prop :=
  ∀ line ∈ body, '\n' ∉ line

theorem unbroken_cons {line : Text} {body : List Text} :
    Unbroken (line :: body) ↔ '\n' ∉ line ∧ Unbroken body :=
  List.forall_mem_cons

/-- Lines without line feeds, each ended by one, are the pieces of the text that they make. -/
theorem pieces_flatMap :
    (body : List Text) → Unbroken body →
      pieces (body.flatMap (· ++ ['\n'])) = body.map (· ++ ['\n'])
  | [], _ => rfl
  | line :: body, h => by
      obtain ⟨hline, hbody⟩ := unbroken_cons.mp h
      rw [List.flatMap_cons, List.append_assoc, List.singleton_append,
        pieces_append_cons _ line hline, pieces_flatMap body hbody, List.map_cons]

/-- A text that is given by its characters has no line feed if none of them is one. -/
theorem not_mem_toList_ofList {c : Char} {cs : List Char} (h : cs.contains c = false) :
    c ∉ (String.ofList cs).toList := by
  rw [String.toList_ofList]
  intro hmem
  rw [List.contains_iff_mem.mpr hmem] at h
  cases h

namespace DataSource

/-- Whether no text of a data source has a line feed in it. -/
structure IsOnOneLine (d : DataSource) : Prop where
  queryName : '\n' ∉ d.queryName
  objectName : '\n' ∉ d.objectName
  parameter : ∀ p, d.parameter? = some p → '\n' ∉ p
  structName : '\n' ∉ d.structName
  attributes : ∀ a ∈ d.attributes, '\n' ∉ a.name ∧ '\n' ∉ a.expression

/-- No line of a source has a line feed in it, if no text of the data source has. -/
theorem IsOnOneLine.lines {d : DataSource} (h : d.IsOnOneLine) : Unbroken d.lines := by
  intro line hline
  apply (d.spliced_lines line hline).of_append (P := ('\n' ∉ ·))
  · intro t u ht hu
    exact List.not_mem_append ht hu
  · intro t hfixed hmem
    rw [isFixed, List.contains_iff_mem.mpr hmem] at hfixed
    cases hfixed
  · apply (forall_mem_texts (P := ('\n' ∉ ·))).mpr
    refine ⟨⟨h.queryName, not_mem_capitalizeFirst (by decide) h.queryName, h.objectName,
      h.structName⟩, ?_, ?_⟩
    · intro p hp
      exact ⟨h.parameter p hp, not_mem_capitalizeFirst (by decide) (h.parameter p hp)⟩
    · intro a ha
      obtain ⟨hname, hexpression⟩ := h.attributes a ha
      exact ⟨hname, not_mem_capitalizeFirst (by decide) hname, hexpression⟩

/-- **The lines of a source** are the pieces of its text, less their line feeds. -/
theorem pieces_source {d : DataSource} (h : d.IsOnOneLine) :
    pieces d.source = d.lines.map (· ++ ['\n']) :=
  pieces_flatMap d.lines h.lines

end DataSource

/-! ### The texts of a query -/

/-- A character that is neither of a segment nor of an index is not of its component, unless it is a
letter or beyond ASCII. -/
theorem LookupShape.not_mem_component {shape : LookupShape} {segment : Text} {x : Char}
    (hx : x.toNat < 65 ∨ 90 < x.toNat ∧ x.toNat < 128) (hindex : x ∉ shape.edgesAccessor)
    (h : x ∉ segment) : x ∉ shape.component segment := by
  unfold component
  dsimp only
  split
  · exact hindex
  · exact not_mem_capitalizeFirst hx h

namespace Query

/-- The segments of a flat name have only its characters. -/
theorem subset_of_mem_segmentsOf {q : Query} {flatName segment : Text}
    (h : segment ∈ q.segmentsOf flatName) {c : Char} (hc : c ≠ separator) (hmem : c ∈ segment) :
    c ∈ flatName := by
  have hjoined : c ∈ flatten (q.segmentsOf flatName) :=
    (mem_joinWith (List.mem_singleton.not.mpr hc) _).mpr ⟨segment, h, hmem⟩
  rwa [segmentsOf, flatten_segments] at hjoined

/-- A character that is no separator is in no segment, if it is not in the flat name. -/
theorem not_mem_segment {q : Query} {flatName : Text} {c : Char} (hc : c ≠ separator)
    (hname : c ∉ flatName) : ∀ s ∈ q.segmentsOf flatName, c ∉ s :=
  fun _ hs hmem => hname (subset_of_mem_segmentsOf hs hc hmem)

/-- An accessor has no line feed, if the root object and the flat name have none. -/
theorem not_mem_expression {q : Query} (hroot : '\n' ∉ q.rootName) {flatName : Text}
    (hname : '\n' ∉ flatName) : '\n' ∉ (q.accessor flatName).expression := by
  have hindex : '\n' ∉ q.shape.edgesAccessor := by
    cases q.shape
    all_goals exact not_mem_toList_ofList rfl
  have hpath : '\n' ∉ joinWith "." ((q.segmentsOf flatName).map q.shape.component) := by
    rw [mem_joinWith (not_mem_toList_ofList rfl)]
    rintro ⟨part, hpart, hmem⟩
    obtain ⟨segment, hsegment, rfl⟩ := List.mem_map.mp hpart
    have hplain := not_mem_segment (by decide) hname segment hsegment
    exact LookupShape.not_mem_component (by decide) hindex hplain hmem
  simp only [accessor, List.mem_append, not_or]
  exact ⟨⟨hroot, not_mem_toList_ofList rfl⟩, hpath⟩

/-- A query with a parameter looks up one entity by it. -/
theorem shape_eq_single {q : Query} {p : Text} (h : q.parameter? = some p) :
    q.shape = .single p := by
  unfold parameter? at h
  rcases hshape : q.shape with p' | _
  · rw [hshape] at h
    rw [← Option.some.inj h]
  · rw [hshape] at h
    cases h

/-- What a parsed query has to say fits on one line. -/
theorem isOnOneLine_dataSource {depth : Nat} {document : Text} {q : Query}
    (h : parse depth document = .ok q) : q.dataSource.IsOnOneLine := by
  obtain ⟨hroot, hparameter, hfields⟩ :=
    lacks_of_parse h (c := '\n') (by decide) fun line hline => not_mem_trimmedLines hline
  have hname : '\n' ∉ q.operationName := not_mem_of_isName (isName_operationName h) rfl
  refine ⟨hname, hroot, ?_, ?_, ?_⟩
  · intro p hp
    obtain ⟨hsome, -⟩ := Option.filter_eq_some_iff.mp hp
    exact (hparameter p (shape_eq_single hsome)).2
  · exact List.not_mem_append hname (not_mem_toList_ofList rfl)
  · intro a ha
    obtain ⟨f, hf, rfl⟩ := List.mem_map.mp ha
    exact ⟨hfields f hf, not_mem_expression hroot (hfields f hf)⟩

end Query

end DataSourceGen
