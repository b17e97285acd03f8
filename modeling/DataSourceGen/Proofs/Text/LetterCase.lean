import DataSourceGen.Text.LetterCase

/-!
# The characters of upper-case forms

An upper-case form is made of capital letters: those of ASCII, or characters beyond it. So putting
the first character of a text in upper case brings in no punctuation, digit, blank or control
character of ASCII (`mem_of_mem_capitalizeFirst`), and no small letter of ASCII is left in front
(`not_isSmall_head?_capitalizeFirst`). In front, few capital letters come from beyond ASCII
(`exists_uppercaseForm_eq_cons`), and `E` does not (`capitalizeFirst_eq_cons_iff`). -/

namespace DataSourceGen.Text

/-- Whether a code point is that of a character beyond ASCII or of a capital letter. -/
def isCapitalPoint (n : Nat) : Bool :=
  (65 ≤ n && n ≤ 90) || (128 ≤ n && n < 0xd800) || (0xe000 ≤ n && n < 0x110000)

/-- Whether all images of a run are capital letters or characters beyond ASCII. -/
def UppercaseRun.isCapital (r : UppercaseRun) : Bool :=
  let final := r.image + (r.last - r.first)
  (65 ≤ r.image && final ≤ 90) || (128 ≤ r.image && final < 0xd800) ||
    (0xe000 ≤ r.image && final < 0x110000)

/-- The code points of the letters of ASCII that an upper-case form of a character beyond it may
begin with: `A`, `F`, `H`, `I`, `J`, `S`, `T`, `W` and `Y`. -/
def formHeads : List Nat :=
  [65, 70, 72, 73, 74, 83, 84, 87, 89]

/-- Whether an upper-case form of a character beyond ASCII may begin with a code point. -/
def isFormHead (n : Nat) : Bool :=
  isCapitalPoint n && (128 ≤ n || formHeads.contains n)

/-- Whether all images of a run begin upper-case forms, or the single one does. -/
def UppercaseRun.isFormHead (r : UppercaseRun) : Bool :=
  128 ≤ r.image || (r.first == r.last && formHeads.contains r.image)

/-- A code point of this kind is that of its character. -/
theorem toNat_ofNat_of_isCapitalPoint {n : Nat} (h : isCapitalPoint n = true) :
    (Char.ofNat n).toNat = n := by
  simp only [isCapitalPoint, Bool.or_eq_true, Bool.and_eq_true, decide_eq_true_eq] at h
  have hvalid : n.isValidChar := by
    unfold Nat.isValidChar
    omega
  rw [Char.ofNat, dif_pos hvalid]
  rfl

/-- The characters that an upper-case form may have. -/
theorem toNat_of_isCapitalPoint {n : Nat} (h : isCapitalPoint n = true) :
    65 ≤ (Char.ofNat n).toNat ∧ (Char.ofNat n).toNat ≤ 90 ∨ 128 ≤ (Char.ofNat n).toNat := by
  rw [toNat_ofNat_of_isCapitalPoint h]
  simp only [isCapitalPoint, Bool.or_eq_true, Bool.and_eq_true, decide_eq_true_eq] at h
  omega

/-- An upper-case form beyond ASCII is the character itself or comes from the table, whose entries
are checked here. -/
theorem uppercaseForm_cases (c : Char) :
    uppercaseForm c = [c] ∨
      ∃ n ns, uppercaseForm c = (n :: ns).map Char.ofNat ∧ isFormHead n = true ∧
        (n :: ns).all isCapitalPoint = true := by
  have expansions : ∀ e ∈ uppercaseExpansions,
      (e.2.head?.any isFormHead && e.2.all isCapitalPoint) = true := by decide
  have runs : ∀ r ∈ uppercaseRuns, (r.isCapital && r.isFormHead) = true := by decide +kernel
  unfold uppercaseForm
  split
  · next e hfind =>
    obtain ⟨hhead, hall⟩ := (Bool.and_eq_true _ _).mp
      (expansions e (List.mem_of_find?_eq_some hfind))
    obtain ⟨n, hn, hhead⟩ := (Option.any_eq_true _ _).mp hhead
    obtain ⟨ns, he⟩ := List.head?_eq_some_iff.mp hn
    exact .inr ⟨n, ns, by rw [he], hhead, he ▸ hall⟩
  · split
    · next r hfind =>
      have hrun := runs r (List.mem_of_find?_eq_some hfind)
      have hinside := List.find?_some hfind
      simp only [UppercaseRun.isCapital, UppercaseRun.isFormHead, Bool.or_eq_true,
        Bool.and_eq_true, decide_eq_true_eq, beq_iff_eq] at hrun
      simp only [Bool.and_eq_true, decide_eq_true_eq] at hinside
      have hpoint : isCapitalPoint (r.image + (c.toNat - r.first)) = true := by
        simp only [isCapitalPoint, Bool.or_eq_true, Bool.and_eq_true, decide_eq_true_eq]
        omega
      refine .inr ⟨_, [], rfl, ?_, by rw [List.all_cons, hpoint, List.all_nil, Bool.and_true]⟩
      rw [isFormHead, hpoint, Bool.true_and, Bool.or_eq_true, decide_eq_true_eq]
      rcases hrun.2 with hbeyond | ⟨hsingle, hletter⟩
      · exact .inl (by omega)
      · -- a run of one letter has its one image, with nothing added
        have himage : r.image + (c.toNat - r.first) = r.image := by omega
        rw [himage]
        exact .inr hletter
    · exact .inl rfl

/-- Beyond ASCII, an upper-case form is the character itself or has capital letters only. -/
theorem toNat_of_mem_uppercaseForm {x c : Char} (h : x ∈ uppercaseForm c) :
    x = c ∨ 65 ≤ x.toNat ∧ x.toNat ≤ 90 ∨ 128 ≤ x.toNat := by
  rcases uppercaseForm_cases c with hself | ⟨n, ns, hform, -, hall⟩
  · rw [hself] at h
    exact .inl (List.mem_singleton.mp h)
  · rw [hform] at h
    obtain ⟨m, hm, rfl⟩ := List.mem_map.mp h
    exact .inr (toNat_of_isCapitalPoint (List.all_eq_true.mp hall m hm))

/-- In ASCII, the upper-case form is the character itself or a capital letter. -/
theorem toUpper_eq_or {c : Char} (h : c.toNat < 128) :
    c.toUpper = c ∨ 65 ≤ c.toUpper.toNat ∧ c.toUpper.toNat ≤ 90 := by
  have all : ∀ n < 128, (Char.ofNat n).toUpper = Char.ofNat n ∨
      65 ≤ (Char.ofNat n).toUpper.toNat ∧ (Char.ofNat n).toUpper.toNat ≤ 90 := by decide
  have hc := all c.toNat h
  rwa [Char.ofNat_toNat] at hc

/-- **Upper case brings in letters only**: another character of ASCII was there before. -/
theorem mem_of_mem_capitalizeFirst {x : Char} {t : Text}
    (hx : x.toNat < 65 ∨ 90 < x.toNat ∧ x.toNat < 128) (h : x ∈ capitalizeFirst t) : x ∈ t := by
  rcases t with _ | ⟨c, r⟩
  · exact h
  · rcases List.mem_append.mp h with hform | hrest
    · have hself : x = c := by
        unfold uppercase at hform
        split at hform
        · next hascii =>
          obtain rfl := List.mem_singleton.mp hform
          rcases toUpper_eq_or hascii with hsame | hcapital
          · exact hsame
          · omega
        · rcases toNat_of_mem_uppercaseForm hform with hsame | hcapital
          · exact hsame
          · omega
      exact hself ▸ List.mem_cons_self
    · exact List.mem_cons_of_mem c hrest

/-- Upper case brings in no character that is neither a letter nor beyond ASCII. -/
theorem not_mem_capitalizeFirst {x : Char} {t : Text}
    (hx : x.toNat < 65 ∨ 90 < x.toNat ∧ x.toNat < 128) (h : x ∉ t) : x ∉ capitalizeFirst t :=
  mt (mem_of_mem_capitalizeFirst hx) h

/-- Whether a character is a small letter of ASCII. -/
def IsSmall (c : Char) : Prop :=
  97 ≤ c.toNat ∧ c.toNat ≤ 122

theorem toNat_ofNat_of_isFormHead {n : Nat} (h : isFormHead n = true) :
    128 ≤ (Char.ofNat n).toNat ∨ (Char.ofNat n).toNat ∈ formHeads := by
  simp only [isFormHead, Bool.and_eq_true, Bool.or_eq_true, decide_eq_true_eq,
    List.contains_iff_mem] at h
  rw [toNat_ofNat_of_isCapitalPoint h.1]
  exact h.2

/-- Upper case leaves no letter away, and beyond ASCII its forms begin with few letters of ASCII. -/
theorem exists_uppercaseForm_eq_cons {c : Char} (h : 128 ≤ c.toNat) :
    ∃ x form, uppercaseForm c = x :: form ∧ (128 ≤ x.toNat ∨ x.toNat ∈ formHeads) := by
  rcases uppercaseForm_cases c with hself | ⟨n, ns, hform, hhead, -⟩
  · exact ⟨c, [], hself, .inl h⟩
  · exact ⟨Char.ofNat n, ns.map Char.ofNat, hform, toNat_ofNat_of_isFormHead hhead⟩

/-- Upper case leaves no text empty that has characters. -/
theorem capitalizeFirst_ne_nil {t : Text} (h : t ≠ []) : capitalizeFirst t ≠ [] := by
  rcases t with _ | ⟨c, r⟩
  · exact absurd rfl h
  · rw [capitalizeFirst, uppercase]
    split
    · exact List.cons_ne_nil _ _
    · next hbeyond =>
      obtain ⟨x, form, hform, -⟩ := exists_uppercaseForm_eq_cons (Nat.not_lt.mp hbeyond)
      rw [hform]
      exact List.cons_ne_nil _ _

/-- **No small letter in front**: a text in upper case at its start does not begin with a small
letter of ASCII. -/
theorem not_isSmall_head?_capitalizeFirst (t : Text) :
    ∀ x ∈ (capitalizeFirst t).head?, ¬ IsSmall x := by
  intro x hx
  rcases t with _ | ⟨c, r⟩
  · cases hx
  · rw [capitalizeFirst, uppercase] at hx
    split at hx
    · next hascii =>
      have all : ∀ n < 128, ¬ (97 ≤ (Char.ofNat n).toUpper.toNat ∧
          (Char.ofNat n).toUpper.toNat ≤ 122) := by decide
      have hc := all c.toNat hascii
      rw [Char.ofNat_toNat] at hc
      rw [← Option.mem_some.mp hx]
      exact hc
    · next hbeyond =>
      have heads : ∀ n ∈ formHeads, n < 97 := by decide
      obtain ⟨first, form, hform, hhead⟩ := exists_uppercaseForm_eq_cons (Nat.not_lt.mp hbeyond)
      rw [hform] at hx
      rw [← Option.mem_some.mp hx]
      rintro ⟨hlow, hhigh⟩
      rcases hhead with hlarge | hletter
      · omega
      · have := heads _ hletter
        omega

/-- **Capitalized to `E`**: only the two letters `e` and `E` become a capital `E` in front. -/
theorem capitalizeFirst_eq_cons_iff {t r : Text} :
    capitalizeFirst t = 'E' :: r ↔ t = 'e' :: r ∨ t = 'E' :: r := by
  have ascii : ∀ n < 128, (Char.ofNat n).toUpper = 'E' →
      Char.ofNat n = 'e' ∨ Char.ofNat n = 'E' := by decide
  constructor
  · intro h
    rcases t with _ | ⟨c, rest⟩
    · cases h
    · rw [capitalizeFirst, uppercase] at h
      split at h
      · next hascii =>
        obtain ⟨hupper, rfl⟩ := List.cons.inj h
        have hc := ascii c.toNat hascii
        rw [Char.ofNat_toNat] at hc
        rcases hc hupper with rfl | rfl
        · exact .inl rfl
        · exact .inr rfl
      · next hbeyond =>
        obtain ⟨x, form, hform, hhead⟩ := exists_uppercaseForm_eq_cons (Nat.not_lt.mp hbeyond)
        rw [hform] at h
        rw [(List.cons.inj h).1] at hhead
        exact absurd hhead (by decide)
  · rintro (rfl | rfl)
    · rfl
    · rfl

end DataSourceGen.Text
