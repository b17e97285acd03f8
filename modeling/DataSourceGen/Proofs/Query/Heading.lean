import DataSourceGen.Proofs.Text.Layout

/-!
# Reading names and the heading of a lookup

A name has no blanks and no punctuation, so each cut that reads a line stops where a name ends: at
the blank or the parenthesis after it (`selectedWord?_append`). From this the two lines of the
heading are read back as they were written (`ofLine_operationLine`, `ofLine_rootLine`). -/

namespace DataSourceGen

open Text

/-! ### The characters of names -/

/-- The characters of names lie between the digits and the small letters of ASCII. -/
theorem toNat_of_isNameChar {c : Char} (h : isNameChar c = true) :
    48 ≤ c.toNat ∧ c.toNat ≤ 122 := by
  by_cases hunderscore : c = '_'
  · subst hunderscore
    decide
  · have hval : c.toNat = c.val.toNat := rfl
    have hclass : (decide (65 ≤ c.val ∧ c.val ≤ 90) ||
        decide (97 ≤ c.val) && decide (c.val ≤ 122) ||
        decide (48 ≤ c.val) && decide (c.val ≤ 57) || c == '_') = true := h
    simp only [hunderscore, Bool.or_eq_true, Bool.and_eq_true, decide_eq_true_eq, beq_iff_eq,
      or_false, UInt32.le_iff_toNat_le, UInt32.reduceToNat] at hclass
    omega

/-- Blank characters lie outside the letters and punctuation of ASCII. -/
theorem toNat_of_isBlank {c : Char} (h : isBlank c = true) : c.toNat ≤ 32 ∨ 133 ≤ c.toNat := by
  simp only [isBlank, Bool.or_eq_true, Bool.and_eq_true, decide_eq_true_eq, beq_iff_eq, Char.le_def,
    UInt32.le_iff_toNat_le] at h
  change (((((((((c = ' ' ∨ (9 ≤ c.toNat ∧ c.toNat ≤ 13)) ∨ c = _) ∨ c = _) ∨ c = _) ∨
    (0x2000 ≤ c.toNat ∧ c.toNat ≤ 0x200a)) ∨ c = _) ∨ c = _) ∨ c = _) ∨ c = _) ∨ c = _ at h
  rcases h with (((((((((rfl | h) | rfl) | rfl) | rfl) | h) | rfl) | rfl) | rfl) | rfl) | rfl
  all_goals first
    | omega
    | decide

/-- A character of a name is not blank. -/
theorem isBlank_of_isNameChar {c : Char} (h : isNameChar c = true) : isBlank c = false := by
  rw [← Bool.not_eq_true]
  intro hblank
  have hname := toNat_of_isNameChar h
  have := toNat_of_isBlank hblank
  omega

/-- A name consists of characters of names. -/
theorem isNameChar_of_isName {name : Text} (h : isName name = true) :
    ∀ c ∈ name, isNameChar c = true := by
  rcases name with _ | ⟨c, r⟩
  · cases h
  · obtain ⟨hc, hr⟩ : isNameStart c = true ∧ ∀ d ∈ r, isNameChar d = true := by
      simpa [isName] using h
    intro d hd
    rcases List.mem_cons.mp hd with rfl | hd
    · simp only [isNameStart, isNameChar, Char.isAlphanum, Bool.or_eq_true] at hc ⊢
      exact hc.imp_left .inl
    · exact hr d hd

/-- What is no character of a name is not in one. -/
theorem not_mem_of_isName {name : Text} (h : isName name = true) {c : Char}
    (hc : isNameChar c = false) : c ∉ name := by
  intro hmem
  rw [isNameChar_of_isName h c hmem] at hc
  cases hc

/-- A name begins with a character of names. -/
theorem head?_of_isName {name : Text} (h : isName name = true) :
    ∃ c ∈ name.head?, isNameChar c = true := by
  rcases name with _ | ⟨c, r⟩
  · cases h
  · exact ⟨c, rfl, isNameChar_of_isName h c List.mem_cons_self⟩

/-- A name ends with a character of names. -/
theorem getLast?_of_isName {name : Text} (h : isName name = true) :
    ∃ c ∈ name.getLast?, isNameChar c = true := by
  have hne : name ≠ [] := by
    rintro rfl
    cases h
  exact ⟨name.getLast hne, List.getLast?_eq_some_getLast hne,
    isNameChar_of_isName h _ (List.getLast_mem hne)⟩

/-! ### Cutting behind a name -/

/-- What is taken from a text ends where the property first fails. -/
theorem takeWhile_append_of_head? {p : Char → Bool} {t rest : Text} (ht : ∀ c ∈ t, p c = true)
    (hrest : ∀ c ∈ rest.head?, p c = false) : (t ++ rest).takeWhile p = t := by
  rw [List.takeWhile_append_of_pos ht]
  rcases rest with _ | ⟨c, r⟩
  · simp
  · rw [List.takeWhile_cons_of_neg (by simp [hrest c rfl]), List.append_nil]

/-- What comes before the first mark, if the mark is the first character that is not taken. -/
theorem Text.upTo_append {mark : Char} {t rest : Text} (ht : mark ∉ t)
    (hrest : ∀ c ∈ rest.head?, c = mark) : upTo mark (t ++ rest) = t := by
  refine takeWhile_append_of_head? (fun c hc => ?_) (fun c hc => by simp [hrest c hc])
  rw [bne_iff_ne]
  rintro rfl
  exact ht hc

/-- A text without the mark is all before it. -/
theorem Text.upTo_eq_self {mark : Char} {t : Text} (h : mark ∉ t) : upTo mark t = t := by
  have hnone : ∀ c ∈ ([] : Text).head?, c = mark := fun c hc => nomatch hc
  simpa using upTo_append h hnone

/-- The marks at the end of a text are dropped, and no more. -/
theorem Text.dropEnd_concat {mark : Char} {t : Text} (h : mark ∉ t) :
    dropEnd mark (t ++ [mark]) = t := by
  have hself : t.reverse.dropWhile (· == mark) = t.reverse := by
    rcases hrev : t.reverse with _ | ⟨c, r⟩
    · rfl
    · have hc : c ≠ mark := by
        rintro rfl
        exact h (List.mem_reverse.mp (hrev ▸ List.mem_cons_self))
      rw [List.dropWhile_cons_of_neg (by simpa using hc)]
  rw [dropEnd, List.reverse_append, List.reverse_singleton, List.singleton_append,
    List.dropWhile_cons_of_pos (by simp), hself, List.reverse_reverse]

/-- The word that a line selects is a name at its start, if a blank or a parenthesis follows. -/
theorem selectedWord?_append {name rest : Text} (h : isName name = true)
    (hrest : ∀ c ∈ rest.head?, isBlank c = true ∨ c = '(') :
    selectedWord? (name ++ rest) = some name := by
  have hblank : ∀ c ∈ name, (!isBlank c) = true := fun c hc => by
    rw [isBlank_of_isNameChar (isNameChar_of_isName h c hc)]
    rfl
  have hstart : trimStart (name ++ rest) = name ++ rest := by
    apply trimStart_eq_self
    obtain ⟨c, hc, hchar⟩ := head?_of_isName h
    refine ⟨c, ?_, isBlank_of_isNameChar hchar⟩
    simp [Option.mem_def.mp hc]
  have hword : firstWord? (name ++ rest) =
      some ((name ++ rest).takeWhile fun c => !isBlank c) := by
    obtain ⟨c, hc, -⟩ := head?_of_isName h
    rcases name with _ | ⟨d, name⟩
    · cases hc
    · rw [firstWord?, hstart]
      rfl
  have hcallee : callee (name ++ rest.takeWhile fun c => !isBlank c) = name := by
    refine Text.upTo_append (not_mem_of_isName h (by decide)) fun c hc => ?_
    rcases rest with _ | ⟨d, r⟩
    · cases hc
    · by_cases hd : isBlank d = true
      · rw [List.takeWhile_cons_of_neg (by simp [hd])] at hc
        cases hc
      · rw [List.takeWhile_cons_of_pos (by simpa using hd)] at hc
        obtain rfl : d = c := by simpa using hc
        exact (hrest d rfl).resolve_left hd
  rw [selectedWord?, hword, List.takeWhile_append_of_pos hblank, Option.map_some, hcallee]

/-- Blanks in front of a word are passed over. -/
theorem selectedWord?_cons {c : Char} (h : isBlank c = true) (t : Text) :
    selectedWord? (c :: t) = selectedWord? t := by
  rw [selectedWord?, selectedWord?, firstWord?, firstWord?, trimStart, trimStart,
    List.dropWhile_cons_of_pos h]

/-! ### The heading of a lookup -/

/-- A line that starts with the keyword, a blank and a word that is a name gives this name. -/
theorem ofLine_of_selectedWord? {rest name : Text} (hword : selectedWord? rest = some name)
    (hname : isName name = true) :
    OperationLine.ofLine ("query ".toList ++ rest) = .named (lowercaseFirst name) := by
  have hkeyword : afterQueryKeyword? ("query ".toList ++ rest) = some (' ' :: rest) := by
    rfl
  rw [← selectedWord?_cons (c := ' ') rfl, selectedWord?, Option.map_eq_some_iff] at hword
  obtain ⟨word, hfirst, hcallee⟩ := hword
  simp only [OperationLine.ofLine, hkeyword, hfirst, hcallee, hname, if_true]

/-- A name has nothing to trim. -/
theorem isTrimmed_of_isName {name : Text} (h : isName name = true) : IsTrimmed name := by
  obtain ⟨c, hc, hchar⟩ := head?_of_isName h
  obtain ⟨d, hd, hchar'⟩ := getLast?_of_isName h
  exact ⟨⟨c, hc, isBlank_of_isNameChar hchar⟩, d, hd, isBlank_of_isNameChar hchar'⟩

/-- The variable of an argument is read back. -/
theorem boundVariable?_eq {parameter : Text} (h : isName parameter = true) :
    boundVariable? (" $".toList ++ parameter ++ ") \x7b".toList) = some parameter := by
  have hcut : cutAt '$' (" $".toList ++ parameter ++ ") \x7b".toList) =
      some (" ".toList, parameter ++ ") \x7b".toList) :=
    cutAt_eq_some_iff.mpr ⟨by simp, by decide⟩
  have hblank : ' ' ∉ parameter ++ [')'] := by
    simpa using not_mem_of_isName h (c := ' ') (by decide)
  have hword : upTo ' ' (parameter ++ ") \x7b".toList) = parameter ++ [')'] := by
    have hsplit : parameter ++ ") \x7b".toList = (parameter ++ [')']) ++ " \x7b".toList := by simp
    rw [hsplit]
    exact upTo_append hblank (by simp)
  have hname : dropEnd ')' (parameter ++ [')']) = parameter :=
    dropEnd_concat (not_mem_of_isName h (by decide))
  have hne : parameter.isEmpty = false := by
    rcases parameter with _ | ⟨c, r⟩
    · cases h
    · rfl
  simp only [boundVariable?, hcut, hword, hname, hne]
  rfl

namespace Lookup

/-- The first line of a lookup gives its operation, in lower case at its start. -/
theorem ofLine_operationLine {l : Lookup} (h : l.IsWellFormed) :
    OperationLine.ofLine l.operationLine = .named (lowercaseFirst l.operation) := by
  have named (rest : Text) (hrest : ∀ c ∈ rest.head?, isBlank c = true ∨ c = '(') :
      OperationLine.ofLine ("query ".toList ++ (l.operation ++ rest)) =
        .named (lowercaseFirst l.operation) :=
    ofLine_of_selectedWord? (selectedWord?_append h.operation hrest) h.operation
  rcases hb : l.binding with _ | ⟨argument, parameter⟩
  · rw [operationLine, hb]
    simpa using named " \x7b" (by simp [isBlank])
  · rw [operationLine, hb]
    simpa using named ("($".toList ++ parameter ++ ": String!) \x7b".toList) (by simp)

/-- The second line of a lookup gives its root and the variable, if an argument is bound to one. -/
theorem ofLine_rootLine {l : Lookup} (h : l.IsWellFormed) :
    RootLine.ofLine l.rootLine = ⟨l.root, l.binding.map (·.2), false⟩ := by
  have hroot : ∀ {c}, isNameChar c = false → c ∉ l.root := not_mem_of_isName h.root
  rcases hb : l.binding with _ | ⟨argument, parameter⟩
  · have hcolon : ':' ∉ l.root ++ " \x7b".toList := by
      simpa using hroot (c := ':') (by decide)
    rw [rootLine, hb]
    simp only [RootLine.ofLine, cutAt_eq_none_iff.mpr hcolon]
    rw [upTo_append (hroot (by decide)) (by simp)]
    rfl
  · obtain ⟨hargument, hparameter⟩ := h.binding (argument, parameter) (by simp [hb])
    have hline : l.rootLine = (l.root ++ '(' :: argument) ++
        ':' :: (" $".toList ++ parameter ++ ") \x7b".toList) := by
      rw [rootLine, hb]
      simp
    have hhead : ':' ∉ l.root ++ '(' :: argument := by
      simp [hroot (c := ':') (by decide), not_mem_of_isName hargument (c := ':') (by decide)]
    have htail : ':' ∉ " $".toList ++ parameter ++ ") \x7b".toList := by
      simp [not_mem_of_isName hparameter (c := ':') (by decide)]
    have hname : trim (upTo '(' (l.root ++ '(' :: argument)) = l.root := by
      rw [upTo_append (hroot (by decide)) (by simp), trim_eq_self (isTrimmed_of_isName h.root)]
    have hargumentText : upTo ':' (" $".toList ++ parameter ++ ") \x7b".toList) =
        " $".toList ++ parameter ++ ") \x7b".toList := upTo_eq_self htail
    simp only [hline, RootLine.ofLine, cutAt_eq_some_iff.mpr ⟨rfl, hhead⟩, hname, hargumentText,
      boundVariable?_eq hparameter]
    rfl

end Lookup

end DataSourceGen
