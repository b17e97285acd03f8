import Mathlib.Tactic.SplitIfs
import DataSourceGen.Proofs.Text.Encoding

/-!
# Decoding undoes encoding

Bytes that decode to a character are the bytes of this character, in each of the four forms
(`eq_utf8EncodeChar_of_decodeChar`): the class of the lead byte and the bounds of the second one
leave no other encoding of a code point, and no code point that is no character. So bytes decode to
a text iff they encode it (`decode_eq_ok_iff`).

A text in front of other bytes is decoded first (`decodeFrom_encode_append`). Hence a fault stands
where the longest text that the bytes begin with ends (`exists_isLongestText_of_decode`). -/

namespace DataSourceGen.Text

/-! ### The bytes of a code point -/

variable {n : Nat}

/-- A character has the code point that it is made of, if that is one. -/
theorem toNat_val_ofNat (h : n < 55296 ∨ 57343 < n ∧ n < 1114112) :
    (Char.ofNat n).val.toNat = n := by
  have hvalid : n.isValidChar := h
  rw [Char.ofNat, dif_pos hvalid]
  rfl

theorem utf8EncodeChar_one (hn : n ≤ 127) :
    String.utf8EncodeChar (Char.ofNat n) = [UInt8.ofNat n] := by
  unfold String.utf8EncodeChar
  dsimp only
  rw [toNat_val_ofNat (.inl (by omega)), if_pos hn]

theorem utf8EncodeChar_two (hlow : 128 ≤ n) (hhigh : n ≤ 2047) :
    String.utf8EncodeChar (Char.ofNat n) =
      [UInt8.ofNat (n / 64 % 32 + 192), UInt8.ofNat (n % 64 + 128)] := by
  unfold String.utf8EncodeChar
  dsimp only
  rw [toNat_val_ofNat (.inl (by omega)), if_neg (by omega), if_pos hhigh]

theorem utf8EncodeChar_three (hlow : 2048 ≤ n) (hhigh : n ≤ 65535)
    (hscalar : n < 55296 ∨ 57343 < n) :
    String.utf8EncodeChar (Char.ofNat n) =
      [UInt8.ofNat (n / 4096 % 16 + 224), UInt8.ofNat (n / 64 % 64 + 128),
        UInt8.ofNat (n % 64 + 128)] := by
  unfold String.utf8EncodeChar
  dsimp only
  rw [toNat_val_ofNat (by omega), if_neg (by omega), if_neg (by omega), if_pos hhigh]

theorem utf8EncodeChar_four (hlow : 65536 ≤ n) (hhigh : n < 1114112) :
    String.utf8EncodeChar (Char.ofNat n) =
      [UInt8.ofNat (n / 262144 % 8 + 240), UInt8.ofNat (n / 4096 % 64 + 128),
        UInt8.ofNat (n / 64 % 64 + 128), UInt8.ofNat (n % 64 + 128)] := by
  unfold String.utf8EncodeChar
  dsimp only
  rw [toNat_val_ofNat (by omega), if_neg (by omega), if_neg (by omega), if_neg (by omega)]

/-! ### The four forms of a character -/

variable {index : Nat} {a b c d : UInt8} {rest : List UInt8}

theorem ofNat_eq_of_toNat (h : b.toNat = n) : UInt8.ofNat n = b :=
  h ▸ UInt8.ofNat_toNat

theorem encodes_two (ha : leadsTwo a = true) (hb : isContinuation b = true) :
    String.utf8EncodeChar (Char.ofNat (a.toNat % 32 * 64 + payload b)) = [a, b] := by
  have hlead := leadsTwo_iff.mp ha
  have hsecond := isContinuation_iff.mp hb
  unfold payload
  rw [utf8EncodeChar_two (by omega) (by omega), ofNat_eq_of_toNat (b := a) (by omega),
    ofNat_eq_of_toNat (b := b) (by omega)]

/-- The bounds of the second byte leave out overlong forms and surrogates. -/
theorem encodes_three (ha : leadsThree a = true) (hb : maySecond a b = true)
    (hc : isContinuation c = true) :
    String.utf8EncodeChar (Char.ofNat (a.toNat % 16 * 4096 + payload b * 64 + payload c)) =
      [a, b, c] := by
  have hlead := leadsThree_iff.mp ha
  have hsecond := maySecond_iff.mp hb
  have hthird := isContinuation_iff.mp hc
  unfold payload
  rw [utf8EncodeChar_three (by omega) (by omega) (by omega), ofNat_eq_of_toNat (b := a) (by omega),
    ofNat_eq_of_toNat (b := b) (by omega), ofNat_eq_of_toNat (b := c) (by omega)]

/-- The bounds of the second byte leave out overlong forms and code points that are too large. -/
theorem encodes_four (ha : leadsFour a = true) (hb : maySecond a b = true)
    (hc : isContinuation c = true) (hd : isContinuation d = true) :
    String.utf8EncodeChar (Char.ofNat
        (a.toNat % 8 * 262144 + payload b * 4096 + payload c * 64 + payload d)) =
      [a, b, c, d] := by
  have hlead := leadsFour_iff.mp ha
  have hsecond := maySecond_iff.mp hb
  have hthird := isContinuation_iff.mp hc
  have hfourth := isContinuation_iff.mp hd
  unfold payload
  rw [utf8EncodeChar_four (by omega) (by omega), ofNat_eq_of_toNat (b := a) (by omega),
    ofNat_eq_of_toNat (b := b) (by omega), ofNat_eq_of_toNat (b := c) (by omega),
    ofNat_eq_of_toNat (b := d) (by omega)]

/-- **Bytes that decode to a character** are its bytes, with the rest after them. -/
theorem eq_utf8EncodeChar_of_decodeChar {x : Char} {after : List UInt8}
    (h : decodeChar index a rest = .ok (x, after)) :
    a :: rest = String.utf8EncodeChar x ++ after := by
  unfold decodeChar at h
  by_cases hascii : a < 0x80
  · have hbound : a.toNat < 128 := UInt8.lt_iff_toNat_lt.mp hascii
    rw [if_pos hascii] at h
    cases h
    rw [utf8EncodeChar_one (by omega), ofNat_eq_of_toNat rfl]
    rfl
  rw [if_neg hascii] at h
  by_cases htwo : leadsTwo a = true
  · rw [if_pos htwo] at h
    rcases rest with _ | ⟨b, rest⟩
    · cases h
    · dsimp only at h
      split_ifs at h with hb
      cases h
      rw [encodes_two htwo hb]
      rfl
  rw [if_neg htwo] at h
  by_cases hthree : leadsThree a = true
  · rw [if_pos hthree] at h
    rcases rest with _ | ⟨b, _ | ⟨c, rest⟩⟩
    · cases h
    · dsimp only at h
      split_ifs at h
    · dsimp only at h
      split_ifs at h with hb hc
      cases h
      rw [encodes_three hthree (by simpa using hb) hc]
      rfl
  rw [if_neg hthree] at h
  by_cases hfour : leadsFour a = true
  · rw [if_pos hfour] at h
    rcases rest with _ | ⟨b, _ | ⟨c, _ | ⟨d, rest⟩⟩⟩
    · cases h
    · dsimp only at h
      split_ifs at h
    · dsimp only at h
      split_ifs at h
    · dsimp only at h
      split_ifs at h with hb hc hd
      cases h
      rw [encodes_four hfour (by simpa using hb) (by simpa using hc) hd]
      rfl
  · rw [if_neg hfour] at h
    cases h

/-- Bytes that begin no character are at fault where they stand. -/
theorem index_of_decodeChar {reason : DecodeError} (h : decodeChar index a rest = .error reason) :
    reason.index = index := by
  unfold decodeChar at h
  repeat' split at h
  all_goals cases h
  all_goals rfl

/-! ### Texts -/

variable {bytes : List UInt8} {reason : DecodeError}

theorem decodeFrom_cons_error (h : decodeChar index a rest = .error reason) :
    decodeFrom index (a :: rest) = .error reason := by
  rw [decodeFrom]
  split
  · rename_i other hother
    rw [h] at hother
    cases hother
    rfl
  · rename_i x after hother
    rw [h] at hother
    cases hother

/-- Bytes that decode to a text are its bytes. -/
theorem eq_encode_of_decodeFrom {t : Text} (h : decodeFrom index bytes = .ok t) :
    bytes = encode t := by
  fun_induction decodeFrom index bytes generalizing t with
  | case1 =>
    cases h
    rfl
  | case2 => cases h
  | case3 index a rest x after hchar ih =>
    rcases hafter : decodeFrom (index + (rest.length + 1 - after.length)) after with reason | u
    · rw [hafter] at h
      cases h
    · rw [hafter] at h
      cases h
      rw [eq_utf8EncodeChar_of_decodeChar hchar, ih hafter, encode_cons]

/-- Bytes at fault begin with a text, up to the fault. -/
theorem exists_encode_of_decodeFrom (h : decodeFrom index bytes = .error reason) :
    ∃ t, encode t <+: bytes ∧ reason.index = index + (encode t).length := by
  fun_induction decodeFrom index bytes with
  | case1 => cases h
  | case2 index a rest other hchar =>
    cases h
    exact ⟨[], List.nil_prefix, index_of_decodeChar hchar⟩
  | case3 index a rest x after hchar ih =>
    rcases hafter : decodeFrom (index + (rest.length + 1 - after.length)) after with other | u
    · rw [hafter] at h
      cases h
      obtain ⟨t, ⟨remainder, hbytes⟩, hindex⟩ := ih hafter
      have hfirst := eq_utf8EncodeChar_of_decodeChar hchar
      have hlength := congrArg List.length hfirst
      rw [List.length_cons, List.length_append] at hlength
      refine ⟨x :: t, ⟨remainder, ?_⟩, ?_⟩
      · rw [hfirst, ← hbytes, encode_cons, List.append_assoc]
      · rw [hindex, encode_cons, List.length_append]
        omega
    · rw [hafter] at h
      cases h

/-- **Decoding** gives a text for its bytes and for no others. -/
theorem decode_eq_ok_iff {t : Text} : decode bytes = .ok t ↔ bytes = encode t := by
  constructor
  · exact eq_encode_of_decodeFrom
  · rintro rfl
    exact decode_encode t

/-- Whether some bytes are the longest ones at the beginning of others that encode a text. -/
structure IsLongestText (beginning bytes : List UInt8) : Prop where
  initial : beginning <+: bytes
  encodes : ∃ t, encode t = beginning
  longest : ∀ t, encode t <+: bytes → (encode t).length ≤ beginning.length

/-- **The place of a fault** is the length of the longest text that the bytes begin with. -/
theorem exists_isLongestText_of_decode (h : decode bytes = .error reason) :
    ∃ beginning, IsLongestText beginning bytes ∧ reason.index = beginning.length := by
  obtain ⟨t, hinitial, hindex⟩ := exists_encode_of_decodeFrom h
  rw [Nat.zero_add] at hindex
  refine ⟨encode t, ⟨hinitial, ⟨t, rfl⟩, ?_⟩, hindex⟩
  rintro u ⟨rest, rfl⟩
  rw [decode, decodeFrom_encode_append] at h
  rcases hrest : decodeFrom (0 + (encode u).length) rest with other | v
  · rw [hrest] at h
    cases h
    obtain ⟨v, -, hplace⟩ := exists_encode_of_decodeFrom hrest
    omega
  · rw [hrest] at h
    cases h

end DataSourceGen.Text
