import ArkadeSdk.Lib.WireFormat

namespace HexCodec

open WireFormat

/-- A hexadecimal text codec that reads back what it wrote. What it makes of
any other text, and the case it writes, are left to the implementation. -/
structure Codec where
  encode : Bytes → String
  decode : String → Option Bytes
  decode_encode : ∀ b, decode (encode b) = some b
  length_encode : ∀ b, (encode b).toList.length = 2 * b.length

namespace Codec

attribute [simp] decode_encode

theorem encode_eq_empty (hex : Codec) {b : Bytes} : hex.encode b = "" ↔ b = [] := by
  have hlen := hex.length_encode b
  constructor
  · intro h
    rw [h] at hlen
    exact List.length_eq_zero_iff.mp (by simpa using hlen.symm)
  · rintro rfl
    simpa using hlen

theorem encode_injective (hex : Codec) {b c : Bytes} (h : hex.encode b = hex.encode c) : b = c := by
  have hd := congrArg hex.decode h
  simpa using hd

end Codec

def digit (n : ℕ) : Char := if n < 10 then Char.ofNat (48 + n) else Char.ofNat (87 + n)

def digitValue (c : Char) : Option ℕ :=
  let n := c.toNat
  if 48 ≤ n ∧ n ≤ 57 then some (n - 48)
  else if 97 ≤ n ∧ n ≤ 102 then some (n - 87)
  else if 65 ≤ n ∧ n ≤ 70 then some (n - 55)
  else none

theorem digitValue_digit : ∀ n < 16, digitValue (digit n) = some n := by decide

def encodeChars (b : Bytes) : List Char :=
  b.flatMap fun x ↦ [digit (x.toNat / 16), digit (x.toNat % 16)]

def decodeChars : List Char → Option Bytes
  | [] => some []
  | [_] => none
  | c :: d :: l => do
    let hi ← digitValue c
    let lo ← digitValue d
    let rest ← decodeChars l
    return UInt8.ofNat (16 * hi + lo) :: rest

theorem decodeChars_encodeChars (b : Bytes) : decodeChars (encodeChars b) = some b := by
  induction b with
  | nil => rfl
  | cons x b ih =>
    have hx := x.toNat_lt
    have hhi := digitValue_digit (x.toNat / 16) (by omega)
    have hlo := digitValue_digit (x.toNat % 16) (by omega)
    have hsplit : 16 * (x.toNat / 16) + x.toNat % 16 = x.toNat := by omega
    have henc : encodeChars (x :: b) =
        digit (x.toNat / 16) :: digit (x.toNat % 16) :: encodeChars b := rfl
    rw [henc]
    simp only [decodeChars, hhi, hlo, ih, Option.bind_eq_bind, Option.bind_some, hsplit,
      UInt8.ofNat_toNat]
    rfl

theorem length_encodeChars (b : Bytes) : (encodeChars b).length = 2 * b.length := by
  induction b with
  | nil => rfl
  | cons x b ih =>
    simp only [encodeChars, List.flatMap_cons, List.length_append, List.length_cons,
      List.length_nil] at ih ⊢
    omega

/-- Lower-case base 16, reading either case. -/
def base16 : Codec where
  encode b := String.ofList (encodeChars b)
  decode s := decodeChars s.toList
  decode_encode b := by rw [String.toList_ofList, decodeChars_encodeChars]
  length_encode b := by rw [String.toList_ofList, length_encodeChars]

end HexCodec
