import ArkadeSdk.Lib.Decimal
import ArkadeSdk.Lib.Json

/-! What becomes of a parsed value, or of a missing one, where the language wants a number. -/

namespace JsCoercion

open JsNumber
open Json (Value)

/-- A finite result, or the infinity that takes its place past the largest double. -/
def ofRat (q : ℚ) : Number :=
  if q ≥ 2 ^ 1024 - 2 ^ 970 then .posInf
  else if q ≤ -(2 ^ 1024 - 2 ^ 970) then .negInf
  else .finite q

theorem ofRat_ne_nan (q : ℚ) : ofRat q ≠ .nan := by
  unfold ofRat
  split
  · simp
  · split <;> simp

/-- Digits with an optional point among them: their value and how many follow the point. -/
def readMantissa (cs : List Char) : Option (ℕ × ℕ) :=
  let whole := cs.takeWhile (· ≠ '.')
  let fraction := (cs.dropWhile (· ≠ '.')).drop 1
  (Decimal.readDigits 10 (whole ++ fraction)).map fun n ↦ (n, fraction.length)

def isExponentMark (c : Char) : Bool := c = 'e' || c = 'E'

/-- An unsigned decimal literal. -/
def readDecimal (cs : List Char) : Option ℚ := do
  let (digits, places) ← readMantissa (cs.takeWhile (!isExponentMark ·))
  let exponent ← match cs.dropWhile (!isExponentMark ·) with
    | [] => some 0
    | _ :: cs => Decimal.readSigned cs
  return digits * (10 : ℚ) ^ (exponent - places)

def readUnsigned (cs : List Char) : Number :=
  if cs = "Infinity".toList then .posInf
  else match readDecimal cs with
    | some q => ofRat q
    | none => .nan

def negate : Number → Number
  | .nan => .nan
  | .posInf => .negInf
  | .negInf => .posInf
  | .finite q => .finite (-q)

/-- `Number(s)`. What `BigInt` reads has the same value here. -/
def stringToNumber (s : String) : Number :=
  match Decimal.ofText s with
  | some z => ofRat z
  | none => match Decimal.trim s.toList with
    | '-' :: cs => negate (readUnsigned cs)
    | '+' :: cs => readUnsigned cs
    | cs => readUnsigned cs

/-- A number with a safe integer part is far below the largest double. -/
theorem ofRat_eq_finite {q : ℚ} (hzero : 0 ≤ q) (h : q < 2 ^ 53) : ofRat q = .finite q := by
  have hmax : (2 ^ 53 : ℚ) < 2 ^ 1024 - 2 ^ 970 := by
    have hone : (1 : ℚ) ≤ 2 ^ 970 := one_le_pow₀ (by norm_num)
    have hsplit : (2 : ℚ) ^ 1024 = 2 ^ 970 * 2 ^ 54 := by rw [← pow_add]
    rw [hsplit]
    generalize (2 : ℚ) ^ 970 = x at hone
    linarith
  unfold ofRat
  generalize (2 : ℚ) ^ 1024 - 2 ^ 970 = max at hmax
  rw [if_neg (by linarith), if_neg (by linarith)]

theorem ofRat_natCast {n : ℕ} (h : n < 2 ^ 53) : ofRat n = .ofNat n :=
  ofRat_eq_finite (Nat.cast_nonneg n) (by exact_mod_cast h)

theorem stringToNumber_toText {n : ℕ} (h : n < 2 ^ 53) :
    stringToNumber (Decimal.toText n) = .ofNat n := by
  rw [stringToNumber, Decimal.ofText_toText]
  exact_mod_cast ofRat_natCast h

/-- The language has a text for the value: a property that hides `toString` takes it away. -/
def printable : Value → Bool
  | .object l => (l.lookup "toString").isNone
  | .array l => printableItems l
  | .null | .bool _ | .number _ | .string _ => true
where
  printableItems : List Value → Bool
    | [] => true
    | v :: l => printable v && printableItems l

/-- A number read from the text of an array: nothing is zero, and a comma is no number. -/
def itemsToNumber : List Value → Number
  | [] => .finite 0
  | [v] => itemToNumber v
  | _ :: _ :: _ => .nan
where
  itemToNumber : Value → Number
    | .null => .finite 0
    | .number a => a
    | .string s => stringToNumber s
    | .array l => itemsToNumber l
    | .bool _ | .object _ => .nan

def noPrimitive : Message := message "Cannot convert object to primitive value"

/-- `ToNumber`, where `none` is undefined. -/
def toNumber : Option Value → Except Message Number
  | none => .ok .nan
  | some .null => .ok (.finite 0)
  | some (.bool b) => .ok (.finite (if b then 1 else 0))
  | some (.number a) => .ok a
  | some (.string s) => .ok (stringToNumber s)
  | some (.array l) =>
    if printable (.array l) then .ok (itemsToNumber l) else .error noPrimitive
  | some (.object l) => if printable (.object l) then .ok .nan else .error noPrimitive

@[simp] theorem toNumber_number (a : Number) : toNumber (some (.number a)) = .ok a := rfl

def notBigInt : Message := message "Cannot convert value to a BigInt"

def textToBigInt (s : String) : Except Message ℤ :=
  match Decimal.ofText s with
  | some z => .ok z
  | none => .error notBigInt

/-- Numbers from `10 ^ 21` on are printed with an exponent, which no integer has. -/
def printsDigits (a : Number) : Bool :=
  a.isInteger && a.lt (.finite (10 ^ 21)) && (Number.finite (-(10 ^ 21))).lt a

def itemsToBigInt : List Value → Except Message ℤ
  | [] => .ok 0
  | [v] => itemToBigInt v
  | _ :: _ :: _ => .error notBigInt
where
  itemToBigInt : Value → Except Message ℤ
    | .null => .ok 0
    | .number a => if printsDigits a then a.toBigInt else .error notBigInt
    | .string s => textToBigInt s
    | .array l => itemsToBigInt l
    | .bool _ | .object _ => .error notBigInt

/-- `BigInt(v)`. -/
def toBigInt : Option Value → Except Message ℤ
  | none | some .null => .error notBigInt
  | some (.bool b) => .ok (if b then 1 else 0)
  | some (.number a) => a.toBigInt
  | some (.string s) => textToBigInt s
  | some (.array l) =>
    if printable (.array l) then itemsToBigInt l else .error noPrimitive
  | some (.object l) => if printable (.object l) then .error notBigInt else .error noPrimitive

theorem stringToNumber_ne_nan {s : String} {z : ℤ} (h : textToBigInt s = .ok z) :
    stringToNumber s ≠ .nan := by
  unfold textToBigInt at h
  split at h
  · rename_i w hw
    rw [stringToNumber, hw]
    exact ofRat_ne_nan w
  · cases h

theorem ne_nan_of_toBigInt {a : Number} {z : ℤ} (h : a.toBigInt = .ok z) : a ≠ .nan := by
  rw [Number.toBigInt_eq_ok h]
  simp [Number.ofInt]

mutual

theorem itemsToNumber_ne_nan {z : ℤ} :
    ∀ l : List Value, itemsToBigInt l = .ok z → itemsToNumber l ≠ .nan
  | [], _ => by simp [itemsToNumber]
  | [v], h => itemToNumber_ne_nan v h
  | _ :: _ :: _, h => by cases h

theorem itemToNumber_ne_nan {z : ℤ} :
    ∀ v : Value, itemsToBigInt.itemToBigInt v = .ok z → itemsToNumber.itemToNumber v ≠ .nan
  | .null, _ => by simp [itemsToNumber.itemToNumber]
  | .number a, h => by
    rw [itemsToBigInt.itemToBigInt] at h
    split at h
    · exact ne_nan_of_toBigInt h
    · cases h
  | .string s, h => stringToNumber_ne_nan h
  | .array l, h => itemsToNumber_ne_nan l h
  | .bool _, h => by cases h
  | .object _, h => by cases h

end

end JsCoercion
