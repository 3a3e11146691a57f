import ArkadeSdk.Lib.Double
import ArkadeSdk.Lib.JsNumber

/-! Products, quotients and ceilings of ECMAScript numbers. -/

namespace JsNumber.Number

/-- The sign, zero for `NaN`. -/
def sign : Number → ℤ
  | .nan => 0
  | .posInf => 1
  | .negInf => -1
  | .finite q => q.num.sign

/-- The number without finite magnitude that has the sign `s`; a product of an infinity and zero
is `NaN`. -/
def infinite (s : ℤ) : Number :=
  if 0 < s then .posInf else if s < 0 then .negInf else .nan

def mul : Number → Number → Number
  | .nan, _ | _, .nan => .nan
  | .finite p, .finite q => .finite (p * q)
  | a, b => infinite (a.sign * b.sign)

def neg : Number → Number
  | .nan => .nan
  | .posInf => .negInf
  | .negInf => .posInf
  | .finite q => .finite (-q)

def sub (a b : Number) : Number := a.add b.neg

/-- The quotient by a positive integer. -/
def divNat : Number → ℕ → Number
  | .finite q, n => .finite (q / n)
  | a, _ => a

/-- The quotient, with the language's rules for the non-finite operands and for zero. -/
def div : Number → Number → Number
  | .nan, _ | _, .nan => .nan
  | .finite p, .finite q => if q = 0 then infinite p.num.sign else .finite (p / q)
  | .finite _, _ => .finite 0
  | a, .finite q => infinite (if q < 0 then -a.sign else a.sign)
  | _, _ => .nan

/-- What is kept of a result, away from the ends of the range. -/
def toDouble : Number → Number
  | .finite q => .finite (Double.ofRat q)
  | a => a

/-- `Math.ceil`. -/
def ceil : Number → Number
  | .finite q => ofInt ⌈q⌉
  | a => a

/-- `Number.isFinite(a) && a > 0`. -/
def isPositive (a : Number) : Bool := a.isFinite && (ofNat 0).lt a

@[simp] theorem mul_finite (p q : ℚ) : mul (.finite p) (.finite q) = .finite (p * q) := rfl

@[simp] theorem sub_finite (p q : ℚ) : sub (.finite p) (.finite q) = .finite (p - q) := by
  simp [sub, neg, sub_eq_add_neg]

@[simp] theorem divNat_finite (q : ℚ) (n : ℕ) : divNat (.finite q) n = .finite (q / n) := rfl

@[simp] theorem ceil_finite (q : ℚ) : ceil (.finite q) = ofInt ⌈q⌉ := rfl

/-- Two numbers are ordered, unless one of them is `NaN`. -/
theorem le_of_not_lt {a b : Number} (ha : a ≠ .nan) (hb : b ≠ .nan) (h : b.lt a = false) :
    a.le b = true := by
  cases a <;> cases b <;> simp_all [lt, le]

theorem isPositive_of_not_le {a : Number} (hfinite : a.isFinite = true)
    (h : a.le (ofNat 0) = false) : a.isPositive = true := by
  obtain ⟨q, rfl⟩ := isFinite_iff.mp hfinite
  simp_all [isPositive, ofNat]

theorem ne_nan_of_le {a b : Number} (h : a.le b = true) : b ≠ .nan := by
  rintro rfl
  cases a <;> simp [le] at h

end JsNumber.Number
