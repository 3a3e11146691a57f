import Mathlib.Data.Rat.Defs
import Mathlib.Data.Rat.Floor
import Mathlib.Algebra.Order.Ring.Rat
import Mathlib.Tactic.Linarith

namespace JsNumber

/-- An ECMAScript Number. Finite doubles are the rationals they denote, so
arithmetic on integers below `2 ^ 53` is exact, as it is in the language. -/
inductive Number
  | nan
  | posInf
  | negInf
  | finite (q : ℚ)
  deriving DecidableEq, Repr

namespace Number

def ofInt (z : ℤ) : Number := .finite z

def ofNat (n : ℕ) : Number := .finite n

theorem ofNat_injective {n m : ℕ} (h : ofNat n = ofNat m) : n = m := by
  simpa [ofNat] using h

theorem ofInt_injective {z w : ℤ} (h : ofInt z = ofInt w) : z = w := by
  simpa [ofInt] using h

/-- `a < b`, false as soon as either side is `NaN`. -/
def lt : Number → Number → Bool
  | .nan, _ | _, .nan => false
  | .posInf, _ => false
  | _, .posInf => true
  | _, .negInf => false
  | .negInf, .finite _ => true
  | .finite p, .finite q => decide (p < q)

/-- `a <= b`, which is not the negation of `b < a` on `NaN`. -/
def le : Number → Number → Bool
  | .nan, _ | _, .nan => false
  | .negInf, _ => true
  | _, .posInf => true
  | _, .negInf => false
  | .posInf, .finite _ => false
  | .finite p, .finite q => decide (p ≤ q)

@[simp] theorem lt_finite (p q : ℚ) : lt (.finite p) (.finite q) = decide (p < q) := rfl

@[simp] theorem le_finite (p q : ℚ) : le (.finite p) (.finite q) = decide (p ≤ q) := rfl

@[simp] theorem lt_nan_left (a : Number) : lt .nan a = false := rfl

@[simp] theorem lt_nan_right (a : Number) : lt a .nan = false := by cases a <;> rfl

/-- `Number.isFinite`. -/
def isFinite : Number → Bool
  | .finite _ => true
  | _ => false

/-- `Number.isInteger`. -/
def isInteger : Number → Bool
  | .finite q => q.den = 1
  | _ => false

theorem isFinite_iff {a : Number} : a.isFinite = true ↔ ∃ q, a = .finite q := by
  cases a <;> simp [isFinite]

theorem isInteger_iff {a : Number} : a.isInteger = true ↔ ∃ z : ℤ, a = ofInt z := by
  cases a with
  | nan | posInf | negInf => simp [isInteger, ofInt]
  | finite q =>
    simp only [isInteger, decide_eq_true_eq, ofInt, Number.finite.injEq]
    constructor
    · intro h
      exact ⟨q.num, (Rat.den_eq_one_iff q |>.mp h).symm⟩
    · rintro ⟨z, rfl⟩
      exact Rat.den_intCast z

@[simp] theorem isInteger_ofInt (z : ℤ) : (ofInt z).isInteger = true := isInteger_iff.mpr ⟨z, rfl⟩

@[simp] theorem isInteger_ofNat (n : ℕ) : (ofNat n).isInteger = true :=
  isInteger_iff.mpr ⟨n, by simp [ofNat, ofInt]⟩

/-- Addition, with the language's rules for the non-finite operands. -/
def add : Number → Number → Number
  | .nan, _ | _, .nan => .nan
  | .posInf, .negInf | .negInf, .posInf => .nan
  | .posInf, _ | _, .posInf => .posInf
  | .negInf, _ | _, .negInf => .negInf
  | .finite p, .finite q => .finite (p + q)

@[simp] theorem add_finite (p q : ℚ) : add (.finite p) (.finite q) = .finite (p + q) := rfl

/-- The integer part, rounded toward zero; `ToIntegerOrInfinity` on finite values. -/
def trunc (q : ℚ) : ℤ := q.num.tdiv q.den

@[simp] theorem trunc_natCast (n : ℕ) : trunc n = n := by simp [trunc]

@[simp] theorem trunc_intCast (z : ℤ) : trunc z = z := by simp [trunc]

/-- `ToUint16`, the conversion `DataView.setUint16` applies to its argument. -/
def toUint16 : Number → ℕ
  | .finite q => (trunc q % 65536).toNat
  | _ => 0

/-- `ToUint8`, the conversion a `Uint8Array` element applies. -/
def toUint8 : Number → ℕ
  | .finite q => (trunc q % 256).toNat
  | _ => 0

theorem toUint16_ofNat {n : ℕ} (h : n < 65536) : (ofNat n).toUint16 = n := by
  simp only [ofNat, toUint16, trunc_natCast]
  omega

theorem toUint8_ofNat {n : ℕ} (h : n < 256) : (ofNat n).toUint8 = n := by
  simp only [ofNat, toUint8, trunc_natCast]
  omega

/-- The values that `n` bits hold exactly, as a check in the language would say it:
an integer that is neither negative nor above `max`. -/
def inRange (max : ℕ) (a : Number) : Bool :=
  a.isInteger && !(a.lt (ofNat 0)) && !((ofNat max).lt a)

theorem inRange_iff {max : ℕ} {a : Number} : a.inRange max = true ↔ ∃ n ≤ max, a = ofNat n := by
  simp only [inRange, Bool.and_eq_true, isInteger_iff, Bool.not_eq_true']
  constructor
  · rintro ⟨⟨⟨z, rfl⟩, h0⟩, hmax⟩
    simp only [ofInt, ofNat, lt_finite, decide_eq_false_iff_not, not_lt, Nat.cast_zero] at h0 hmax
    have hz : 0 ≤ z := by exact_mod_cast h0
    obtain ⟨n, rfl⟩ := Int.eq_ofNat_of_zero_le hz
    exact ⟨n, by exact_mod_cast hmax, by simp [ofNat, ofInt]⟩
  · rintro ⟨n, hn, rfl⟩
    refine ⟨⟨⟨n, by simp [ofNat, ofInt]⟩, ?_⟩, ?_⟩
    · simp [ofNat]
    · simp only [ofNat, lt_finite, decide_eq_false_iff_not, not_lt]
      exact_mod_cast hn

@[simp] theorem inRange_ofNat {max n : ℕ} : (ofNat n).inRange max = true ↔ n ≤ max := by
  rw [inRange_iff]
  constructor
  · rintro ⟨m, hm, h⟩
    rwa [ofNat_injective h]
  · exact fun h ↦ ⟨n, h, rfl⟩

end Number

/-- A template literal's parts. Values stay values: how a Number prints is never
looked at again. -/
inductive Part
  | text (s : String)
  | value (a : Number)
  deriving DecidableEq, Repr

abbrev Message := List Part

def message (s : String) : Message := [.text s]

/-- A `bigint | number` argument. -/
inductive Numeric
  | bigint (z : ℤ)
  | number (a : Number)
  deriving DecidableEq, Repr

/-- `BigInt(a)` on a Number: an integer, or a `RangeError`. -/
def Number.toBigInt (a : Number) : Except Message ℤ :=
  let error : Message :=
    [.text "The number ", .value a,
      .text " cannot be converted to a BigInt because it is not an integer"]
  match a with
  | .finite q => if q.den = 1 then .ok q.num else .error error
  | _ => .error error

/-- The common coercion `typeof x === "number" ? BigInt(x) : x`. -/
def Numeric.toBigInt : Numeric → Except Message ℤ
  | .bigint z => .ok z
  | .number a => a.toBigInt

@[simp] theorem Number.toBigInt_ofInt (z : ℤ) : (Number.ofInt z).toBigInt = .ok z := by
  simp [Number.ofInt, Number.toBigInt]

@[simp] theorem Number.toBigInt_ofNat (n : ℕ) : (Number.ofNat n).toBigInt = .ok (n : ℤ) := by
  simp [Number.ofNat, Number.toBigInt]

theorem Number.toBigInt_eq_ok {a : Number} {z : ℤ} (h : a.toBigInt = .ok z) : a = .ofInt z := by
  cases a with
  | nan | posInf | negInf => simp [Number.toBigInt] at h
  | finite q =>
    simp only [Number.toBigInt] at h
    split at h
    · rename_i hq
      cases h
      simp [Number.ofInt, Rat.den_eq_one_iff q |>.mp hq]
    · cases h

end JsNumber
