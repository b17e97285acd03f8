import Mathlib.Data.List.Basic
import DataSourceGen.Text.Utf8

/-!
# Encoded text is decoded

A character is encoded with a lead byte, whose class says how many bytes follow, and continuation
bytes with six bits of the code point each. Decoding takes the lead byte for what it is in each of
the four forms and puts the bits together again (`decodeChar_utf8EncodeChar`); it never looks past
the character, so that a text is decoded character by character, whatever follows its bytes
(`decodeFrom_encode_append`). -/

namespace DataSourceGen.Text

/-! ### Classes of bytes as bounds -/

theorem isContinuation_iff {b : UInt8} :
    isContinuation b = true ↔ 128 ≤ b.toNat ∧ b.toNat ≤ 191 := by
  simp [isContinuation, UInt8.le_iff_toNat_le]

theorem leadsTwo_iff {b : UInt8} : leadsTwo b = true ↔ 194 ≤ b.toNat ∧ b.toNat ≤ 223 := by
  simp [leadsTwo, UInt8.le_iff_toNat_le]

theorem leadsThree_iff {b : UInt8} : leadsThree b = true ↔ 224 ≤ b.toNat ∧ b.toNat ≤ 239 := by
  simp [leadsThree, UInt8.le_iff_toNat_le]

theorem leadsFour_iff {b : UInt8} : leadsFour b = true ↔ 240 ≤ b.toNat ∧ b.toNat ≤ 244 := by
  simp [leadsFour, UInt8.le_iff_toNat_le]

/-- The least and the greatest byte that may follow a lead byte. -/
theorem maySecond_iff {lead b : UInt8} :
    maySecond lead b = true ↔
      128 ≤ b.toNat ∧ b.toNat ≤ 191 ∧ (lead.toNat = 224 → 160 ≤ b.toNat) ∧
        (lead.toNat = 237 → b.toNat ≤ 159) ∧ (lead.toNat = 240 → 144 ≤ b.toNat) ∧
        (lead.toNat = 244 → b.toNat ≤ 143) := by
  unfold maySecond
  have := isContinuation_iff (b := b)
  split_ifs <;> simp_all [UInt8.le_iff_toNat_le, ← UInt8.toNat_inj] <;> omega

/-! ### The four forms of a character -/

variable {index : Nat} {a b c d : UInt8} {rest : List UInt8}

theorem decodeChar_one (ha : a.toNat ≤ 127) :
    decodeChar index a rest = .ok (Char.ofNat a.toNat, rest) := by
  have hascii : a < 0x80 := UInt8.lt_iff_toNat_lt.mpr (Nat.lt_succ_of_le ha)
  unfold decodeChar
  rw [if_pos hascii]

/-- The longer forms are told by the class of the lead byte. -/
theorem not_lt_of_lead (ha : 128 ≤ a.toNat) : ¬ a < 0x80 := fun h =>
  absurd (UInt8.lt_iff_toNat_lt.mp h) (Nat.not_lt.mpr ha)

theorem decodeChar_two (ha : leadsTwo a = true) (hb : isContinuation b = true) :
    decodeChar index a (b :: rest) =
      .ok (Char.ofNat (a.toNat % 32 * 64 + payload b), rest) := by
  have hlead := leadsTwo_iff.mp ha
  unfold decodeChar
  rw [if_neg (not_lt_of_lead (by omega)), if_pos ha]
  dsimp only
  rw [if_pos hb]

theorem decodeChar_three (ha : leadsThree a = true) (hb : maySecond a b = true)
    (hc : isContinuation c = true) :
    decodeChar index a (b :: c :: rest) =
      .ok (Char.ofNat (a.toNat % 16 * 4096 + payload b * 64 + payload c), rest) := by
  have hlead := leadsThree_iff.mp ha
  have htwo : ¬ leadsTwo a = true := fun h => by
    have := leadsTwo_iff.mp h
    omega
  unfold decodeChar
  rw [if_neg (not_lt_of_lead (by omega)), if_neg htwo, if_pos ha]
  dsimp only
  rw [hb, if_neg (by decide), if_pos hc]

theorem decodeChar_four (ha : leadsFour a = true) (hb : maySecond a b = true)
    (hc : isContinuation c = true) (hd : isContinuation d = true) :
    decodeChar index a (b :: c :: d :: rest) =
      .ok (Char.ofNat
        (a.toNat % 8 * 262144 + payload b * 4096 + payload c * 64 + payload d), rest) := by
  have hlead := leadsFour_iff.mp ha
  have htwo : ¬ leadsTwo a = true := fun h => by
    have := leadsTwo_iff.mp h
    omega
  have hthree : ¬ leadsThree a = true := fun h => by
    have := leadsThree_iff.mp h
    omega
  unfold decodeChar
  rw [if_neg (not_lt_of_lead (by omega)), if_neg htwo, if_neg hthree, if_pos ha]
  dsimp only
  rw [hb, if_neg (by decide), hc, if_neg (by decide), if_pos hd]

/-! ### Bytes of a code point -/

theorem toNat_byte {n : Nat} (h : n ≤ 255) : (UInt8.ofNat n).toNat = n :=
  UInt8.toNat_ofNat_of_lt' (Nat.lt_succ_of_le h)

/-- Six bits of a code point, in a continuation byte. -/
theorem isContinuation_ofNat (n : Nat) : isContinuation (UInt8.ofNat (n % 64 + 128)) = true := by
  rw [isContinuation_iff, toNat_byte (by omega)]
  omega

theorem payload_ofNat (n : Nat) : payload (UInt8.ofNat (n % 64 + 128)) = n % 64 := by
  rw [payload, toNat_byte (by omega)]
  omega

/-! ### Characters -/

variable {n : Nat}

theorem decodeChar_ofNat_one (hn : n ≤ 127) :
    decodeChar index (UInt8.ofNat n) rest = .ok (Char.ofNat n, rest) := by
  have ha : (UInt8.ofNat n).toNat = n := toNat_byte (by omega)
  rw [decodeChar_one (by omega), ha]

theorem decodeChar_ofNat_two (hlow : 128 ≤ n) (hhigh : n ≤ 2047) :
    decodeChar index (UInt8.ofNat (n / 64 % 32 + 192)) (UInt8.ofNat (n % 64 + 128) :: rest) =
      .ok (Char.ofNat n, rest) := by
  have ha : (UInt8.ofNat (n / 64 % 32 + 192)).toNat = n / 64 % 32 + 192 := toNat_byte (by omega)
  have hcode : (n / 64 % 32 + 192) % 32 * 64 + n % 64 = n := by omega
  rw [decodeChar_two (leadsTwo_iff.mpr (by omega)) (isContinuation_ofNat _), payload_ofNat, ha,
    hcode]

/-- The second byte is in bounds since the code point is no surrogate. -/
theorem decodeChar_ofNat_three (hlow : 2048 ≤ n) (hhigh : n ≤ 65535)
    (hscalar : n < 55296 ∨ 57343 < n) :
    decodeChar index (UInt8.ofNat (n / 4096 % 16 + 224))
        (UInt8.ofNat (n / 64 % 64 + 128) :: UInt8.ofNat (n % 64 + 128) :: rest) =
      .ok (Char.ofNat n, rest) := by
  have ha : (UInt8.ofNat (n / 4096 % 16 + 224)).toNat = n / 4096 % 16 + 224 := toNat_byte (by omega)
  have hb : (UInt8.ofNat (n / 64 % 64 + 128)).toNat = n / 64 % 64 + 128 := toNat_byte (by omega)
  have hcode : (n / 4096 % 16 + 224) % 16 * 4096 + n / 64 % 64 * 64 + n % 64 = n := by omega
  rw [decodeChar_three (leadsThree_iff.mpr (by omega)) (maySecond_iff.mpr (by omega))
      (isContinuation_ofNat _),
    payload_ofNat, payload_ofNat, ha, hcode]

/-- The second byte is in bounds since the code point is not too large. -/
theorem decodeChar_ofNat_four (hlow : 65536 ≤ n) (hhigh : n < 1114112) :
    decodeChar index (UInt8.ofNat (n / 262144 % 8 + 240))
        (UInt8.ofNat (n / 4096 % 64 + 128) :: UInt8.ofNat (n / 64 % 64 + 128) ::
          UInt8.ofNat (n % 64 + 128) :: rest) =
      .ok (Char.ofNat n, rest) := by
  have ha : (UInt8.ofNat (n / 262144 % 8 + 240)).toNat = n / 262144 % 8 + 240 :=
    toNat_byte (by omega)
  have hb : (UInt8.ofNat (n / 4096 % 64 + 128)).toNat = n / 4096 % 64 + 128 := toNat_byte (by omega)
  have hcode : (n / 262144 % 8 + 240) % 8 * 262144 + n / 4096 % 64 * 4096 + n / 64 % 64 * 64 +
      n % 64 = n := by omega
  rw [decodeChar_four (leadsFour_iff.mpr (by omega)) (maySecond_iff.mpr (by omega))
      (isContinuation_ofNat _) (isContinuation_ofNat _),
    payload_ofNat, payload_ofNat, payload_ofNat, ha, hcode]

/-- **A character is decoded**, whatever follows its bytes. -/
theorem decodeChar_utf8EncodeChar (x : Char) :
    ∃ lead others, String.utf8EncodeChar x = lead :: others ∧
      ∀ index rest, decodeChar index lead (others ++ rest) = .ok (x, rest) := by
  have hscalar : x.val.toNat < 55296 ∨ 57343 < x.val.toNat ∧ x.val.toNat < 1114112 := x.valid
  have hback : Char.ofNat x.val.toNat = x := Char.ofNat_toNat x
  unfold String.utf8EncodeChar
  dsimp only
  by_cases hone : x.val.toNat ≤ 127
  · rw [if_pos hone]
    exact ⟨_, _, rfl, fun _ _ => (decodeChar_ofNat_one hone).trans (by rw [hback]; rfl)⟩
  rw [if_neg hone]
  by_cases htwo : x.val.toNat ≤ 2047
  · rw [if_pos htwo]
    exact ⟨_, _, rfl, fun _ _ => (decodeChar_ofNat_two (by omega) htwo).trans (by rw [hback]; rfl)⟩
  rw [if_neg htwo]
  by_cases hthree : x.val.toNat ≤ 65535
  · rw [if_pos hthree]
    exact ⟨_, _, rfl, fun _ _ =>
      (decodeChar_ofNat_three (by omega) hthree (by omega)).trans (by rw [hback]; rfl)⟩
  · rw [if_neg hthree]
    exact ⟨_, _, rfl, fun _ _ =>
      (decodeChar_ofNat_four (by omega) (by omega)).trans (by rw [hback]; rfl)⟩

/-! ### Texts -/

theorem decodeFrom_cons {index : Nat} {lead : UInt8} {bytes rest : List UInt8} {x : Char}
    (h : decodeChar index lead bytes = .ok (x, rest)) :
    decodeFrom index (lead :: bytes) =
      (decodeFrom (index + (bytes.length + 1 - rest.length)) rest).map (x :: ·) := by
  rw [decodeFrom]
  split
  · rename_i reason hreason
    rw [h] at hreason
    cases hreason
  · rename_i y other hother
    rw [h] at hother
    cases hother
    rfl

theorem encode_cons (x : Char) (t : Text) :
    encode (x :: t) = String.utf8EncodeChar x ++ encode t :=
  List.flatMap_cons

/-- **A text in front** is decoded first, whatever follows its bytes. -/
theorem decodeFrom_encode_append (t : Text) (index : Nat) (rest : List UInt8) :
    decodeFrom index (encode t ++ rest) =
      (decodeFrom (index + (encode t).length) rest).map (t ++ ·) := by
  induction t generalizing index with
  | nil =>
    change decodeFrom index rest = (decodeFrom index rest).map id
    rcases decodeFrom index rest with reason | u
    · rfl
    · rfl
  | cons x t ih =>
    obtain ⟨lead, others, hencoded, hdecoded⟩ := decodeChar_utf8EncodeChar x
    have hbytes : encode (x :: t) ++ rest = lead :: (others ++ (encode t ++ rest)) := by
      rw [encode_cons, hencoded, List.cons_append, List.cons_append, List.append_assoc]
    have hindex : index + ((others ++ (encode t ++ rest)).length + 1 - (encode t ++ rest).length) +
        (encode t).length = index + (encode (x :: t)).length := by
      rw [encode_cons, hencoded]
      simp only [List.length_append, List.length_cons]
      omega
    rw [hbytes, decodeFrom_cons (hdecoded index (encode t ++ rest)), ih, hindex]
    rcases decodeFrom _ rest with reason | u
    · rfl
    · rfl

/-- **A text is decoded** from its bytes. -/
theorem decode_encode (t : Text) : decode (encode t) = .ok t := by
  have hall := decodeFrom_encode_append t 0 []
  rw [List.append_nil, decodeFrom] at hall
  rw [decode, hall]
  exact congrArg Except.ok (List.append_nil t)

theorem encode_injective : Function.Injective encode := by
  intro t u h
  have hdecoded := decode_encode t
  rw [h, decode_encode] at hdecoded
  exact (Except.ok.inj hdecoded).symm

/-- The bytes of a text begin those of another iff the text begins the other. -/
theorem encode_prefix_encode_iff {t u : Text} : encode t <+: encode u ↔ t <+: u := by
  constructor
  · rintro ⟨rest, hrest⟩
    have hdecoded := decodeFrom_encode_append t 0 rest
    rw [hrest, ← decode, decode_encode] at hdecoded
    rcases hafter : decodeFrom (0 + (encode t).length) rest with reason | v
    · rw [hafter] at hdecoded
      cases hdecoded
    · rw [hafter] at hdecoded
      exact ⟨v, (Except.ok.inj hdecoded).symm⟩
  · rintro ⟨v, rfl⟩
    rw [encode, encode, List.flatMap_append]
    exact List.prefix_append _ _

/-- A text is a proper beginning of another iff its bytes are fewer, and begin those of the other.
-/
theorem prefix_and_ne_iff_encode {t u : Text} :
    t <+: u ∧ t ≠ u ↔ (encode t).length < (encode u).length ∧ encode t <+: encode u := by
  rw [encode_prefix_encode_iff]
  constructor
  · rintro ⟨hbegins, hne⟩
    have hbytes := encode_prefix_encode_iff.mpr hbegins
    refine ⟨Nat.lt_of_le_of_ne hbytes.length_le fun hlength => ?_, hbegins⟩
    exact hne (encode_injective (hbytes.eq_of_length hlength))
  · rintro ⟨hlength, hbegins⟩
    refine ⟨hbegins, ?_⟩
    rintro rfl
    exact Nat.lt_irrefl _ hlength

end DataSourceGen.Text
