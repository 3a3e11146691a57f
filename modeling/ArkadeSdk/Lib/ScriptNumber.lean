import ArkadeSdk.Lib.WireFormat
import Mathlib.Data.Nat.Digits.Lemmas

namespace ScriptNumber

open WireFormat JsNumber

/-! Script numbers: little-endian magnitudes with the sign in the top bit. -/

/-- Set the sign on the last byte, or in a byte of its own when the top bit is taken. -/
def signed (negative : Bool) : List ℕ → Bytes
  | [] => []
  | [d] =>
    if 128 ≤ d then [UInt8.ofNat d, if negative then 0x80 else 0]
    else [UInt8.ofNat (d + if negative then 128 else 0)]
  | d :: d' :: ds => UInt8.ofNat d :: signed negative (d' :: ds)

/-- `ScriptNum().encode(value)`. -/
def encode (z : ℤ) : Bytes := signed (decide (z < 0)) (Nat.digits 256 z.natAbs)

/-- The sign and the magnitude of a byte string. -/
def parts : Bytes → Bool × ℕ
  | [] => (false, 0)
  | [b] => (decide (128 ≤ b.toNat), b.toNat % 128)
  | b :: b' :: bs => ((parts (b' :: bs)).1, b.toNat + 256 * (parts (b' :: bs)).2)

def value (bs : Bytes) : ℤ := if (parts bs).1 then -((parts bs).2 : ℤ) else (parts bs).2

/-- No last byte that carries nothing but a sign, unless the one before it needs it. -/
def isMinimal : Bytes → Bool
  | [] => true
  | [b] => b.toNat % 128 ≠ 0
  | [a, b] => b.toNat % 128 ≠ 0 || 128 ≤ a.toNat
  | _ :: b :: c :: bs => isMinimal (b :: c :: bs)

/-- `ScriptNum(bytesLimit, true).decode(bytes)`. -/
def decode (bytesLimit : ℕ) (bs : Bytes) : Except Message ℤ := do
  rejectIf (bytesLimit < bs.length) (message "ScriptNum: number is too long")
  rejectIf (!isMinimal bs) (message "Non-minimally encoded ScriptNum")
  return value bs

/-- The digits of a magnitude: bytes, the last one not zero. -/
structure Digits (ds : List ℕ) : Prop where
  lt : ∀ d ∈ ds, d < 256
  last : ∀ h : ds ≠ [], ds.getLast h ≠ 0

theorem digits_digits (n : ℕ) : Digits (Nat.digits 256 n) where
  lt _ hd := Nat.digits_lt_base (by decide) hd
  last h := Nat.getLast_digit_ne_zero 256 (by rintro rfl; simp at h)

theorem Digits.tail {d d' : ℕ} {ds : List ℕ} (h : Digits (d :: d' :: ds)) : Digits (d' :: ds) where
  lt e he := h.lt e (List.mem_cons_of_mem d he)
  last hne := by simpa using h.last (by simp)

theorem signed_ne_nil (negative : Bool) (d : ℕ) (ds : List ℕ) : signed negative (d :: ds) ≠ [] := by
  cases ds with
  | nil =>
    unfold signed
    split <;> simp
  | cons d' ds => simp [signed]

theorem parts_cons {b : UInt8} {bs : Bytes} (h : bs ≠ []) :
    parts (b :: bs) = ((parts bs).1, b.toNat + 256 * (parts bs).2) := by
  cases bs with
  | nil => exact absurd rfl h
  | cons b' bs => rfl

theorem isMinimal_cons {b : UInt8} {bs : Bytes} (hne : bs ≠ []) (h : isMinimal bs = true) :
    isMinimal (b :: bs) = true := by
  match bs, hne with
  | [c], _ =>
    simp only [isMinimal] at h ⊢
    rw [h, Bool.true_or]
  | c :: c' :: cs, _ => exact h

theorem toNat_sign {d : ℕ} (negative : Bool) (h : ¬128 ≤ d) :
    (UInt8.ofNat (d + if negative then 128 else 0)).toNat = d + if negative then 128 else 0 :=
  toNat_byte (by cases negative <;> simp <;> omega)

theorem parts_signed (negative : Bool) {ds : List ℕ} (h : Digits ds) (hne : ds ≠ []) :
    parts (signed negative ds) = (negative, Nat.ofDigits 256 ds) := by
  induction ds with
  | nil => exact absurd rfl hne
  | cons d ds ih =>
    have hd : d < 256 := h.lt d List.mem_cons_self
    cases ds with
    | nil =>
      have hone : Nat.ofDigits 256 [d] = d := by simp
      rw [hone]
      by_cases htop : 128 ≤ d
      · cases negative <;> simp [signed, htop, parts, toNat_byte hd]
      · simp only [signed, if_neg htop, parts, toNat_sign negative htop]
        cases negative <;> simp <;> omega
    | cons d' ds =>
      rw [signed, parts_cons (signed_ne_nil negative d' ds), ih h.tail (by simp), toNat_byte hd]
      simp only [Nat.ofDigits_cons]

theorem isMinimal_signed (negative : Bool) {ds : List ℕ} (h : Digits ds) :
    isMinimal (signed negative ds) = true := by
  induction ds with
  | nil => rfl
  | cons d ds ih =>
    have hd : d < 256 := h.lt d List.mem_cons_self
    cases ds with
    | nil =>
      have h0 : d ≠ 0 := by simpa using h.last (by simp)
      by_cases htop : 128 ≤ d
      · cases negative <;> simp [signed, htop, isMinimal, toNat_byte hd]
      · simp only [signed, if_neg htop, isMinimal, toNat_sign negative htop]
        cases negative <;> simp <;> omega
    | cons d' ds => exact isMinimal_cons (signed_ne_nil negative d' ds) (ih h.tail)

theorem length_signed (negative : Bool) (ds : List ℕ) :
    (signed negative ds).length ≤ ds.length + 1 := by
  induction ds with
  | nil => simp [signed]
  | cons d ds ih =>
    cases ds with
    | nil =>
      unfold signed
      split <;> simp
    | cons d' ds =>
      simp only [signed, List.length_cons] at ih ⊢
      omega

@[simp] theorem encode_zero : encode 0 = [] := by simp [encode, signed]

theorem encode_ne_nil {z : ℤ} (h : z ≠ 0) : encode z ≠ [] := by
  have hpos : 0 < z.natAbs := Int.natAbs_pos.mpr h
  unfold encode
  rw [Nat.digits_def' (by decide) hpos]
  exact signed_ne_nil _ _ _

theorem value_encode (z : ℤ) : value (encode z) = z := by
  by_cases hz : z = 0
  · simp [hz, value, parts]
  · have hne : Nat.digits 256 z.natAbs ≠ [] := Nat.digits_ne_nil_iff_ne_zero.mpr (by omega)
    simp only [value, encode, parts_signed _ (digits_digits _) hne, Nat.ofDigits_digits,
      decide_eq_true_eq]
    split <;> omega

theorem isMinimal_encode (z : ℤ) : isMinimal (encode z) = true :=
  isMinimal_signed _ (digits_digits _)

theorem encode_injective {z w : ℤ} (h : encode z = encode w) : z = w := by
  rw [← value_encode z, h, value_encode]

theorem decode_encode {bytesLimit : ℕ} {z : ℤ} (h : (encode z).length ≤ bytesLimit) :
    decode bytesLimit (encode z) = .ok z := by
  simp only [decode, then_ok, rejectIf_ok, pure_ok, isMinimal_encode, value_encode]
  exact ⟨by omega, by simp, trivial⟩

theorem length_encode_le {z : ℤ} {k : ℕ} (h : z.natAbs < 256 ^ k) : (encode z).length ≤ k + 1 := by
  have hdigits : (Nat.digits 256 z.natAbs).length ≤ k :=
    (Nat.digits_length_le_iff (by decide) _).mpr h
  have hsigned := length_signed (decide (z < 0)) (Nat.digits 256 z.natAbs)
  unfold encode
  omega

/-- A number below 128 is the single byte that holds it. -/
theorem encode_of_lt {n : ℕ} (h0 : 0 < n) (h : n < 128) : encode n = [UInt8.ofNat n] := by
  have hdigits : Nat.digits 256 n = [n] := Nat.digits_of_lt 256 n (by omega) (by omega)
  have hneg : ¬((n : ℤ) < 0) := by omega
  simp [encode, hdigits, signed, hneg, not_le.mpr h]

end ScriptNumber
