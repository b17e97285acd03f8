import DataSourceGen.Text.Basic

/-!
# UTF-8

Bytes and the text that they encode. Decoding accepts exactly the well-formed sequences and
otherwise says where they stop being well formed: after how many bytes, and whether the bytes
that follow can belong to no character or only end too early.
-/

namespace DataSourceGen.Text

/-- The bytes of a text. -/
def encode (t : Text) : List UInt8 :=
  t.flatMap String.utf8EncodeChar

/-- Where a sequence of bytes stops being a text. -/
inductive DecodeError where
  /-- From `index` on, `count` bytes begin no character. -/
  | invalid (count index : Nat)
  /-- From `index` on, the bytes begin a character and end before it does. -/
  | incomplete (index : Nat)
  deriving DecidableEq, Repr

/-- The number of bytes before the fault, which are a text. -/
def DecodeError.index : DecodeError → Nat
  | .invalid _ index => index
  | .incomplete index => index

/-- The wording of a fault. -/
def DecodeError.message : DecodeError → Text
  | .invalid count index =>
    "invalid utf-8 sequence of " ++ ofNat count ++ " bytes from index " ++ ofNat index
  | .incomplete index => "incomplete utf-8 byte sequence from index " ++ ofNat index

/-! ## Classes of bytes -/

/-- The bytes that continue a character. -/
def isContinuation (b : UInt8) : Bool :=
  0x80 ≤ b && b ≤ 0xbf

/-- The bytes that begin a character of two bytes. -/
def leadsTwo (b : UInt8) : Bool :=
  0xc2 ≤ b && b ≤ 0xdf

/-- The bytes that begin a character of three bytes. -/
def leadsThree (b : UInt8) : Bool :=
  0xe0 ≤ b && b ≤ 0xef

/-- The bytes that begin a character of four bytes. -/
def leadsFour (b : UInt8) : Bool :=
  0xf0 ≤ b && b ≤ 0xf4

/-- Whether `b` may follow the lead byte `lead`: overlong forms, surrogates and code points that
are too large are excluded by the second byte. -/
def maySecond (lead b : UInt8) : Bool :=
  if lead == 0xe0 then 0xa0 ≤ b && b ≤ 0xbf
  else if lead == 0xed then 0x80 ≤ b && b ≤ 0x9f
  else if lead == 0xf0 then 0x90 ≤ b && b ≤ 0xbf
  else if lead == 0xf4 then 0x80 ≤ b && b ≤ 0x8f
  else isContinuation b

/-- The low six bits of a continuation byte. -/
def payload (b : UInt8) : Nat :=
  b.toNat % 64

/-! ## Decoding -/

/-- The first character of a non-empty sequence and the bytes after it; `index` is where the
sequence stands. -/
def decodeChar (index : Nat) (b : UInt8) (rest : List UInt8) :
    Except DecodeError (Char × List UInt8) :=
  if b < 0x80 then .ok (Char.ofNat b.toNat, rest)
  else if leadsTwo b then
    match rest with
    | [] => .error (.incomplete index)
    | c :: r =>
      if isContinuation c then .ok (Char.ofNat (b.toNat % 32 * 64 + payload c), r)
      else .error (.invalid 1 index)
  else if leadsThree b then
    match rest with
    | [] => .error (.incomplete index)
    | c :: r =>
      if !maySecond b c then .error (.invalid 1 index)
      else match r with
        | [] => .error (.incomplete index)
        | d :: r =>
          if isContinuation d then
            .ok (Char.ofNat (b.toNat % 16 * 4096 + payload c * 64 + payload d), r)
          else .error (.invalid 2 index)
  else if leadsFour b then
    match rest with
    | [] => .error (.incomplete index)
    | c :: r =>
      if !maySecond b c then .error (.invalid 1 index)
      else match r with
        | [] => .error (.incomplete index)
        | d :: r =>
          if !isContinuation d then .error (.invalid 2 index)
          else match r with
            | [] => .error (.incomplete index)
            | e :: r =>
              if isContinuation e then
                .ok (Char.ofNat
                  (b.toNat % 8 * 262144 + payload c * 4096 + payload d * 64 + payload e), r)
              else .error (.invalid 3 index)
  else .error (.invalid 1 index)

/-- What follows a character is no longer than what followed its first byte. -/
theorem decodeChar_length {index : Nat} {b : UInt8} {rest r : List UInt8} {c : Char}
    (h : decodeChar index b rest = .ok (c, r)) : r.length ≤ rest.length := by
  unfold decodeChar at h
  repeat' split at h
  all_goals simp_all
  all_goals omega

/-- The text that the bytes encode; `index` bytes came before them. -/
def decodeFrom (index : Nat) : List UInt8 → Except DecodeError Text
  | [] => .ok []
  | b :: rest =>
    match h : decodeChar index b rest with
    | .error e => .error e
    | .ok (c, r) => (decodeFrom (index + (rest.length + 1 - r.length)) r).map (c :: ·)
  termination_by bytes => bytes.length
  decreasing_by have := decodeChar_length h; simp; omega

/-- The text that the bytes encode. -/
def decode (bytes : List UInt8) : Except DecodeError Text :=
  decodeFrom 0 bytes

end DataSourceGen.Text
