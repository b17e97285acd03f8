import Mathlib.Data.List.Basic
import DataSourceGen.Proofs.Query.Heading
import DataSourceGen.Proofs.Reading.Heading
import DataSourceGen.Proofs.Text.Splitting

/-!
# The characters of what is read

Reading only cuts texts out of lines and joins them with separators. So a character that no line
has, other than the separator, is in none of the texts of the query (`Query.lacks_of_parse`). The
line feed is such a character (`not_mem_trimmedLines`), so that whatever a query mentions fits on
one line. -/

namespace DataSourceGen

namespace Text

/-! ### Pieces of texts -/

/-- Trimming adds no characters. -/
theorem trim_subset (t : Text) : trim t ⊆ t := by
  intro c hc
  have hstart : c ∈ trimStart t :=
    List.mem_reverse.mp ((List.dropWhile_suffix isBlank).subset (List.mem_reverse.mp hc))
  exact (List.dropWhile_suffix isBlank).subset hstart

/-- The part before a mark has no other characters than the text. -/
theorem upTo_subset (mark : Char) (t : Text) : upTo mark t ⊆ t :=
  (List.takeWhile_prefix _).subset

/-- Dropping marks at the end adds no characters. -/
theorem dropEnd_subset (mark : Char) (t : Text) : dropEnd mark t ⊆ t := by
  intro c hc
  exact List.mem_reverse.mp ((List.dropWhile_suffix _).subset (List.mem_reverse.mp hc))

/-- The parts of a cut have no other characters than the text. -/
theorem subset_of_cutAt {mark : Char} {t a b : Text} (h : cutAt mark t = some (a, b)) :
    a ⊆ t ∧ b ⊆ t := by
  obtain ⟨rfl, -⟩ := cutAt_eq_some_iff.mp h
  exact ⟨List.subset_append_left _ _,
    fun c hc => List.mem_append_right _ (List.mem_cons_of_mem _ hc)⟩

/-- Cutting a text down adds no characters. -/
theorem truncate_subset : (t : Text) → ∀ size, truncate size t ⊆ t
  | [], _ => List.Subset.refl _
  | c :: t, size => by
      unfold truncate
      split
      · exact List.cons_subset_cons c (truncate_subset t _)
      · exact List.nil_subset _

/-- A piece of a text has a line feed only at its end. -/
theorem exists_of_mem_pieces :
    (t : Text) → ∀ piece ∈ pieces t, ∃ line, '\n' ∉ line ∧ (piece = line ∨ piece = line ++ ['\n'])
  | [], _, hpiece => absurd hpiece List.not_mem_nil
  | c :: t, piece, hpiece => by
      unfold pieces at hpiece
      by_cases hc : c = '\n'
      · rw [if_pos hc] at hpiece
        rcases List.mem_cons.mp hpiece with rfl | hrest
        · exact ⟨[], List.not_mem_nil, .inr (by rw [hc]; rfl)⟩
        · exact exists_of_mem_pieces t piece hrest
      · rw [if_neg hc] at hpiece
        have first {line : Text} (hline : '\n' ∉ line) : '\n' ∉ c :: line :=
          List.not_mem_cons_of_ne_of_not_mem (Ne.symm hc) hline
        rcases hpieces : pieces t with _ | ⟨p, ps⟩
        · rw [hpieces] at hpiece
          exact ⟨[c], first List.not_mem_nil, .inl (List.mem_singleton.mp hpiece)⟩
        · rw [hpieces] at hpiece
          rcases List.mem_cons.mp hpiece with rfl | hrest
          · obtain ⟨line, hline, hp⟩ := exists_of_mem_pieces t p (by simp [hpieces])
            refine ⟨c :: line, first hline, ?_⟩
            rcases hp with rfl | rfl
            · exact .inl rfl
            · exact .inr rfl
          · exact exists_of_mem_pieces t piece (by simp [hpieces, hrest])

/-- A trimmed line has only characters of the text. -/
theorem subset_of_mem_trimmedLines {t line : Text} (h : line ∈ trimmedLines t) : line ⊆ t := by
  obtain ⟨l, hl, rfl⟩ := List.mem_map.mp h
  obtain ⟨piece, hpiece, rfl⟩ := List.mem_map.mp hl
  rw [trim_dropLineEnd]
  intro c hc
  rw [← flatten_pieces t]
  exact List.mem_flatten_of_mem hpiece (trim_subset piece hc)

/-- A trimmed line has no line feed. -/
theorem not_mem_trimmedLines {t line : Text} (h : line ∈ trimmedLines t) : '\n' ∉ line := by
  obtain ⟨l, hl, rfl⟩ := List.mem_map.mp h
  obtain ⟨piece, hpiece, rfl⟩ := List.mem_map.mp hl
  rw [trim_dropLineEnd]
  obtain ⟨content, hcontent, rfl | rfl⟩ := exists_of_mem_pieces t piece hpiece
  · exact fun hfeed => hcontent (trim_subset _ hfeed)
  · rw [trim_append_blanks content (by simp [isBlank])]
    exact fun hfeed => hcontent (trim_subset _ hfeed)

end Text

open Text

/-! ### The heading -/

/-- The parameter of a root line is named, and cut out of an argument. -/
theorem boundVariable?_eq_some {argument name : Text} (h : boundVariable? argument = some name) :
    name ≠ [] ∧ name ⊆ argument := by
  unfold boundVariable? at h
  split at h
  · cases h
  · next head rest hcut =>
    dsimp only at h
    split at h
    · cases h
    · next hne =>
      obtain rfl := Option.some.inj h
      refine ⟨by simpa using hne, ?_⟩
      exact fun c hc => (subset_of_cutAt hcut).2 (upTo_subset ' ' rest (dropEnd_subset ')' _ hc))

/-- What a root line says is cut out of it, and a parameter is named. -/
theorem RootLine.subset (line : Text) :
    (RootLine.ofLine line).name ⊆ line ∧
      ∀ p ∈ (RootLine.ofLine line).parameter, p ≠ [] ∧ p ⊆ line := by
  unfold RootLine.ofLine
  split
  · exact ⟨upTo_subset ' ' line, fun p hp => absurd hp (by simp)⟩
  · next head tail hcut =>
    obtain ⟨hhead, htail⟩ := subset_of_cutAt hcut
    refine ⟨fun c hc => hhead (upTo_subset '(' head (trim_subset _ hc)), fun p hp => ?_⟩
    obtain ⟨hne, hsub⟩ := boundVariable?_eq_some hp
    exact ⟨hne, fun c hc => htail (upTo_subset ':' tail (hsub hc))⟩

/-- A name keeps its characters in the range of names when its first letter is put in lower case. -/
theorem isName_lowercaseFirst {name : Text} (h : isName name = true) :
    isName (lowercaseFirst name) = true := by
  rcases name with _ | ⟨c, r⟩
  · cases h
  · have hletter : ∀ n < 123, isNameStart (Char.ofNat n) = true →
        isNameStart (Char.ofNat n).toLower = true := by decide
    obtain ⟨-, hbound⟩ := toNat_of_isNameChar (isNameChar_of_isName h c List.mem_cons_self)
    simp only [isName, lowercaseFirst, Bool.and_eq_true] at h ⊢
    refine ⟨?_, h.2⟩
    rw [← Char.ofNat_toNat c] at h ⊢
    exact hletter c.toNat (by omega) h.1

/-- The operation name that a line gives is a name. -/
theorem isName_of_operationName? {line name : Text} (h : Reading.operationName? line = some name) :
    isName name = true := by
  have hnamed : OperationLine.ofLine line = .named name := by
    unfold Reading.operationName? at h
    split at h
    · next n hline => rw [hline, Option.some.inj h]
    · cases h
  unfold OperationLine.ofLine at hnamed
  split at hnamed
  · cases hnamed
  · split at hnamed
    · cases hnamed
    · split at hnamed
      · next word hname =>
        obtain rfl := OperationLine.named.inj hnamed
        exact isName_lowercaseFirst hname
      · cases hnamed

/-! ### The selections -/

namespace Reading

/-- Whether a character is in none of the flat names of a reading, nor in the lead of the next. -/
structure Lacks (c : Char) (s : Reading) : Prop where
  lead : c ∉ s.lead
  fields : ∀ f ∈ s.fields, c ∉ f.flatName

/-- A block that a line opens is cut out of it. -/
theorem subset_of_openedBlock? {line block : Text} (h : openedBlock? line = some block) :
    block ⊆ line := by
  rw [openedBlock?, List.isSuffixOf?_eq_some_iff_append_eq] at h
  rw [← h]
  exact List.subset_append_left _ _

/-- A word that a line selects is cut out of it. -/
theorem subset_of_selectedWord? {line name : Text} (h : selectedWord? line = some name) :
    name ⊆ line := by
  obtain ⟨word, hword, rfl⟩ := Option.map_eq_some_iff.mp h
  have hsub : word ⊆ line := by
    unfold firstWord? at hword
    split at hword
    · cases hword
    · next c r hstart =>
      obtain rfl := Option.some.inj hword
      intro x hx
      have htrimmed : x ∈ trimStart line := hstart ▸ (List.takeWhile_prefix _).subset hx
      exact (List.dropWhile_suffix isBlank).subset htrimmed
  exact fun c hc => hsub (upTo_subset '(' word hc)

/-- A change joins what its line has to what is there. -/
theorem Change.lacks {depth index : Nat} {line : Text} {s t : Reading} {c : Char}
    (h : Change depth index line s t) (hc : c ≠ separator) (hline : c ∉ line) (hs : Lacks c s) :
    Lacks c t := by
  cases h with
  | operation | nameless | root | passed => exact ⟨hs.lead, hs.fields⟩
  | opened sel opens =>
    refine ⟨?_, hs.fields⟩
    simp only [List.mem_append, List.mem_singleton, not_or]
    exact ⟨⟨hs.lead, fun hmem => hline (subset_of_openedBlock? opens hmem)⟩, hc⟩
  | closed => exact ⟨fun hmem => hs.lead (truncate_subset _ _ hmem), hs.fields⟩
  | recorded sel plain stays inside selects =>
    refine ⟨hs.lead, fun f hf => ?_⟩
    rcases List.mem_append.mp hf with hold | hnew
    · exact hs.fields f hold
    · obtain rfl := List.mem_singleton.mp hnew
      simp only [List.mem_append, not_or]
      exact ⟨hs.lead, fun hmem => hline (subset_of_selectedWord? selects hmem)⟩

/-- The readings reached lack what their lines lack. -/
theorem Reached.lacks {depth : Nat} {before : List Text} {s : Reading} {c : Char}
    (h : Reached depth before s) (hc : c ≠ separator) (hlines : ∀ line ∈ before, c ∉ line) :
    Lacks c s := by
  induction h with
  | start => exact ⟨List.not_mem_nil, fun f hf => absurd hf List.not_mem_nil⟩
  | @step before s line reached goesOn ih =>
    have hold : Lacks c s := ih fun l hl => hlines l (List.mem_append_left _ hl)
    have hnew : c ∉ line := hlines line (List.mem_append_right _ (List.mem_singleton.mpr rfl))
    exact (change_of_next goesOn).lacks hc hnew hold

end Reading

open Reading

namespace Query

/-- **Characters of a query**: besides the separator, the root object, the parameter and the flat
names have only characters of the lines; and the parameter has a name. -/
theorem lacks_of_parse {depth : Nat} {document : Text} {q : Query} {c : Char}
    (h : parse depth document = .ok q) (hc : c ≠ separator)
    (hlines : ∀ line ∈ trimmedLines document, c ∉ line) :
    c ∉ q.rootName ∧ (∀ p, q.shape = .single p → p ≠ [] ∧ c ∉ p) ∧
      ∀ f ∈ q.fields, c ∉ f.flatName := by
  obtain ⟨-, hroot, hshape, hfields, -⟩ := parse_eq_ok_iff.mp h
  obtain ⟨hrootLine, hparameterLine⟩ := root_ofDocument depth (hasKeyword_of_parse h)
  have hrootOf : c ∉ (rootLineOf (trimmedLines document)).name ∧
      ∀ p ∈ (rootLineOf (trimmedLines document)).parameter, p ≠ [] ∧ c ∉ p := by
    unfold rootLineOf
    split
    · next line hline =>
      have hnot : c ∉ line := hlines line (List.mem_of_getElem? hline)
      obtain ⟨hname, hparameter⟩ := RootLine.subset line
      refine ⟨fun hmem => hnot (hname hmem), fun p hp => ?_⟩
      exact ⟨(hparameter p hp).1, fun hmem => hnot ((hparameter p hp).2 hmem)⟩
    · exact ⟨List.not_mem_nil, fun p hp => absurd hp (by simp)⟩
  refine ⟨?_, ?_, ?_⟩
  · rw [hroot, hrootLine]
    exact hrootOf.1
  · intro p hp
    apply hrootOf.2 p
    rw [hshape, hparameterLine] at hp
    rcases hparameter : (rootLineOf (trimmedLines document)).parameter with _ | p'
    · rw [hparameter] at hp
      cases hp
    · rw [hparameter] at hp
      cases hp
      rfl
  · rw [hfields]
    obtain ⟨before, s, lead, hbefore, hs, hdoc⟩ := exists_reached_ofDocument depth document
    rw [hdoc]
    exact (hs.lacks hc fun line hline => hlines line (hbefore.subset hline)).fields

/-- The operation name of an accepted document is a name. -/
theorem isName_operationName {depth : Nat} {document : Text} {q : Query}
    (h : parse depth document = .ok q) : isName q.operationName = true := by
  obtain ⟨hname, -⟩ := parse_eq_ok_iff.mp h
  rw [operationName_ofDocument] at hname
  obtain ⟨first, -, hfirst⟩ := Option.bind_eq_some_iff.mp hname
  exact isName_of_operationName? hfirst

end Query

end DataSourceGen
