import DataSourceGen.Proofs.Reading.Characters

/-!
# Which documents are accepted

A document is accepted iff its first line is the word `query`, blanks and a word that is a name up
to its first parenthesis. `NamesOperation` says so of a line without reading it, and
`ofLine_eq_named_iff` that the reader of lines finds exactly these. The rest of the document decides
neither whether it is accepted nor under which name (`Query.exists_parse_iff_declares`,
`Query.exists_parse_of_declares`). -/

namespace DataSourceGen

open Text

/-- Whether a line names an operation: it is the word `query`, blanks, and a word whose part before
any parenthesis is the name. -/
def NamesOperation (line name : Text) : Prop :=
  ∃ gap word rest, line = "query".toList ++ gap ++ word ++ rest ∧
    gap ≠ [] ∧ (∀ c ∈ gap, isBlank c = true) ∧
    (∀ c ∈ word, isBlank c = false) ∧ (∀ c ∈ rest.head?, isBlank c = true) ∧
    upTo '(' word = name ∧ isName name = true

/-- Whether the first line of a document, trimmed, names an operation. -/
def Declares (document name : Text) : Prop :=
  ∃ first ∈ (lines document).head?, NamesOperation (trim first) name

/-! ### The first line -/

/-- The first word of a text is what stands between blanks at its start and the next blank. -/
theorem firstWord?_eq_some_iff {t word : Text} :
    firstWord? t = some word ↔
      ∃ gap rest, t = gap ++ word ++ rest ∧ (∀ c ∈ gap, isBlank c = true) ∧ word ≠ [] ∧
        (∀ c ∈ word, isBlank c = false) ∧ ∀ c ∈ rest.head?, isBlank c = true := by
  constructor
  · intro h
    have hsplit : t.takeWhile isBlank ++ trimStart t = t := List.takeWhile_append_dropWhile
    unfold firstWord? at h
    split at h
    · cases h
    · next c r hstart =>
      obtain rfl := Option.some.inj h
      have hword : ((c :: r).takeWhile fun x => !isBlank x) ++
          ((c :: r).dropWhile fun x => !isBlank x) = c :: r := List.takeWhile_append_dropWhile
      have hc : isBlank c = false := by
        have hhead := List.head?_dropWhile_not isBlank t
        rw [← trimStart, hstart] at hhead
        simpa using hhead
      refine ⟨t.takeWhile isBlank, (c :: r).dropWhile fun x => !isBlank x, ?_, ?_, ?_, ?_, ?_⟩
      · rw [List.append_assoc, hword, ← hstart, hsplit]
      · exact fun x hx => List.all_eq_true.mp List.all_takeWhile x hx
      · rw [List.takeWhile_cons_of_pos (by simp [hc])]
        exact List.cons_ne_nil _ _
      · intro x hx
        simpa using List.all_eq_true.mp List.all_takeWhile x hx
      · intro x hx
        have hhead := List.head?_dropWhile_not (fun x => !isBlank x) (c :: r)
        rw [Option.mem_def.mp hx] at hhead
        simpa using hhead
  · rintro ⟨gap, rest, rfl, hgap, hne, hword, hrest⟩
    obtain ⟨d, w, rfl⟩ := List.exists_cons_of_ne_nil hne
    have hstart : trimStart (gap ++ (d :: w) ++ rest) = d :: (w ++ rest) := by
      rw [List.append_assoc, trimStart_append hgap]
      exact trimStart_eq_self ⟨d, rfl, hword d List.mem_cons_self⟩
    have htake : ((d :: w) ++ rest).takeWhile (fun x => !isBlank x) = d :: w :=
      takeWhile_append_of_head? (fun c hc => by simp [hword c hc]) fun c hc => by simp [hrest c hc]
    rw [firstWord?, hstart]
    exact congrArg some htake

/-- The keyword is at the start of a line, with a blank after it. -/
theorem afterQueryKeyword?_eq_some_iff {line rest : Text} :
    afterQueryKeyword? line = some rest ↔
      line = "query".toList ++ rest ∧ ∃ c ∈ rest.head?, isBlank c = true := by
  unfold afterQueryKeyword?
  constructor
  · intro h
    split at h
    · next c r hkeyword =>
      split at h
      · next hblank =>
        obtain rfl := Option.some.inj h
        exact ⟨(List.isPrefixOf?_eq_some_iff_append_eq.mp hkeyword).symm, c, rfl, hblank⟩
      · cases h
    · cases h
  · rintro ⟨rfl, c, hc, hblank⟩
    obtain ⟨r, rfl⟩ := List.head?_eq_some_iff.mp hc
    have hkeyword : "query".toList.isPrefixOf? ("query".toList ++ c :: r) = some (c :: r) :=
      List.isPrefixOf?_eq_some_iff_append_eq.mpr rfl
    rw [hkeyword]
    exact if_pos hblank

/-- A word follows the keyword and a blank iff the line is made of the keyword, blanks and the word,
with a blank or nothing after it. -/
theorem exists_afterQueryKeyword?_iff {line word : Text} :
    (∃ rest, afterQueryKeyword? line = some rest ∧ firstWord? rest = some word) ↔
      ∃ gap rest, line = "query".toList ++ gap ++ word ++ rest ∧ gap ≠ [] ∧
        (∀ c ∈ gap, isBlank c = true) ∧ word ≠ [] ∧ (∀ c ∈ word, isBlank c = false) ∧
        ∀ c ∈ rest.head?, isBlank c = true := by
  simp only [afterQueryKeyword?_eq_some_iff, firstWord?_eq_some_iff]
  constructor
  · rintro ⟨_, ⟨rfl, c, hc, hblank⟩, gap, rest, rfl, hgap, hne, hword, hrest⟩
    refine ⟨gap, rest, by simp only [List.append_assoc], ?_, hgap, hne, hword, hrest⟩
    -- Without blanks the word itself would follow the keyword.
    rintro rfl
    obtain ⟨d, w, rfl⟩ := List.exists_cons_of_ne_nil hne
    obtain rfl := Option.some.inj hc
    rw [hword d List.mem_cons_self] at hblank
    cases hblank
  · rintro ⟨gap, rest, rfl, hne, hgap, hword⟩
    obtain ⟨c, g, rfl⟩ := List.exists_cons_of_ne_nil hne
    exact ⟨_, ⟨by simp only [List.append_assoc], c, rfl, hgap c List.mem_cons_self⟩, c :: g, rest,
      rfl, hgap, hword⟩

/-- **Operation lines** are those that name an operation. -/
theorem ofLine_eq_named_iff {line operation : Text} :
    OperationLine.ofLine line = .named operation ↔
      ∃ name, NamesOperation line name ∧ operation = lowercaseFirst name := by
  have hword : OperationLine.ofLine line = .named operation ↔
      ∃ word, (∃ rest, afterQueryKeyword? line = some rest ∧ firstWord? rest = some word) ∧
        isName (callee word) = true ∧ operation = lowercaseFirst (callee word) := by
    unfold OperationLine.ofLine
    constructor
    · intro h
      split at h
      · cases h
      · next rest hrest =>
        split at h
        · cases h
        · next word hfirst =>
          split at h
          · next hname => exact ⟨word, ⟨rest, hrest, hfirst⟩, hname, (OperationLine.named.inj h).symm⟩
          · cases h
    · rintro ⟨word, ⟨rest, hrest, hfirst⟩, hname, rfl⟩
      simp only [hrest, hfirst, if_pos hname]
  rw [hword]
  constructor
  · rintro ⟨word, hline, hname, rfl⟩
    obtain ⟨gap, rest, rfl, hne, hgap, -, hsolid, hrest⟩ := exists_afterQueryKeyword?_iff.mp hline
    exact ⟨callee word, ⟨gap, word, rest, rfl, hne, hgap, hsolid, hrest, rfl, hname⟩, rfl⟩
  · rintro ⟨_, ⟨gap, word, rest, rfl, hne, hgap, hsolid, hrest, rfl, hname⟩, rfl⟩
    have hword : word ≠ [] := by
      rintro rfl
      cases hname
    exact ⟨word, exists_afterQueryKeyword?_iff.mpr ⟨gap, rest, rfl, hne, hgap, hword, hsolid, hrest⟩,
      hname, rfl⟩

/-- The first line of a document gives the names that it declares, in lower case at their start. -/
theorem headingName?_eq_some_iff {document operation : Text} :
    Reading.headingName? (trimmedLines document) = some operation ↔
      ∃ name, Declares document name ∧ operation = lowercaseFirst name := by
  have hfirst (line : Text) : Reading.operationName? line = some operation ↔
      OperationLine.ofLine line = .named operation := by
    unfold Reading.operationName?
    split
    · next name hname => rw [hname, Option.some.injEq, OperationLine.named.injEq]
    · next hother =>
      constructor
      · intro h
        cases h
      · exact fun h => absurd h (hother operation)
  unfold Reading.headingName? Declares
  rw [trimmedLines, List.head?_map]
  rcases (lines document).head? with _ | first
  · constructor
    · intro h
      cases h
    · rintro ⟨name, ⟨first, hnone, -⟩, -⟩
      cases hnone
  · rw [Option.map_some, Option.bind_some, hfirst, ofLine_eq_named_iff]
    constructor
    · rintro ⟨name, hline, rfl⟩
      exact ⟨name, ⟨first, rfl, hline⟩, rfl⟩
    · rintro ⟨name, ⟨_, hmem, hline⟩, rfl⟩
      obtain rfl := Option.some.inj hmem
      exact ⟨name, hline, rfl⟩

/-! ### The document -/

namespace Query

variable {depth : Nat} {document name : Text}

/-- **Acceptance**: a document is accepted iff its first line names an operation. -/
theorem exists_parse_iff_declares :
    (∃ q, parse depth document = .ok q) ↔ ∃ name, Declares document name := by
  simp only [exists_parse_iff, headingName?_eq_some_iff]
  constructor
  · rintro ⟨operation, name, hname, -⟩
    exact ⟨name, hname⟩
  · rintro ⟨name, hname⟩
    exact ⟨_, name, hname, rfl⟩

/-- A document that names an operation has a query with this operation, in lower case at its start.
-/
theorem exists_parse_of_declares (depth : Nat) (h : Declares document name) :
    ∃ q, parse depth document = .ok q ∧ q.operationName = lowercaseFirst name := by
  obtain ⟨q, hq⟩ := exists_parse_iff_declares.mpr ⟨name, h⟩
  refine ⟨q, hq, ?_⟩
  obtain ⟨hoperation, -⟩ := parse_eq_ok_iff.mp hq
  rw [Reading.operationName_ofDocument, headingName?_eq_some_iff.mpr ⟨name, h, rfl⟩] at hoperation
  exact (Option.some.inj hoperation).symm

end Query

end DataSourceGen
