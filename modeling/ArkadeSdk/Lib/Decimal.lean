import ArkadeSdk.Lib.HexCodec
import Mathlib.Data.Nat.Digits.Lemmas

/-! Integers as text: how the language prints them and what it reads as one. -/

namespace Decimal

open HexCodec

/-- The decimal digits of a natural number, the most significant first. -/
def digits (n : ℕ) : List Char :=
  if n = 0 then ['0'] else ((Nat.digits 10 n).map digit).reverse

/-- `z.toString()`. -/
def toText (z : ℤ) : String :=
  String.ofList (if z < 0 then '-' :: digits z.natAbs else digits z.natAbs)

def readDigits (base : ℕ) (cs : List Char) : Option ℕ :=
  if cs = [] then none
  else match cs.mapM digitValue with
    | none => none
    | some ds => if ds.all (· < base) then some (Nat.ofDigits base ds.reverse) else none

/-- White space and line terminators. -/
def isSpace (c : Char) : Bool :=
  c.toNat ∈ [0x9, 0xa, 0xb, 0xc, 0xd, 0x20, 0xa0, 0x1680, 0x2028, 0x2029, 0x202f, 0x205f, 0x3000,
    0xfeff] || 0x2000 ≤ c.toNat && c.toNat ≤ 0x200a

def trim (cs : List Char) : List Char := ((cs.dropWhile isSpace).reverse.dropWhile isSpace).reverse

/-- The base that a prefix announces. -/
def radix : List Char → Option (ℕ × List Char)
  | '0' :: c :: cs =>
    if c = 'x' ∨ c = 'X' then some (16, cs)
    else if c = 'o' ∨ c = 'O' then some (8, cs)
    else if c = 'b' ∨ c = 'B' then some (2, cs)
    else none
  | _ => none

def readSigned : List Char → Option ℤ
  | [] => none
  | c :: cs =>
    if c = '-' then (readDigits 10 cs).map fun n : ℕ ↦ -(n : ℤ)
    else if c = '+' then (readDigits 10 cs).map Int.ofNat
    else (readDigits 10 (c :: cs)).map Int.ofNat

/-- `BigInt(s)`, where nothing but white space is zero. -/
def ofText (s : String) : Option ℤ :=
  let cs := trim s.toList
  if cs = [] then some 0
  else match radix cs with
    | some (base, cs) => (readDigits base cs).map Int.ofNat
    | none => readSigned cs

def IsDigit (c : Char) : Prop := ∃ d < 10, c = digit d

theorem digits_isDigit (n : ℕ) : ∀ c ∈ digits n, IsDigit c := by
  unfold digits
  split
  · intro c hc
    obtain rfl := List.mem_singleton.mp hc
    exact ⟨0, by decide, rfl⟩
  · intro c hc
    obtain ⟨d, hd, rfl⟩ := List.mem_map.mp (List.mem_reverse.mp hc)
    exact ⟨d, Nat.digits_lt_base (by decide) hd, rfl⟩

theorem digits_ne_nil (n : ℕ) : digits n ≠ [] := by
  unfold digits
  split
  · simp
  · rename_i hn
    simpa using Nat.digits_ne_nil_iff_ne_zero.mpr hn

theorem mapM_digitValue {ds : List ℕ} (h : ∀ d ∈ ds, d < 10) :
    (ds.map digit).mapM digitValue = some ds := by
  induction ds with
  | nil => rfl
  | cons d ds ih =>
    obtain ⟨hd, hds⟩ := List.forall_mem_cons.mp h
    rw [List.map_cons, List.mapM_cons, digitValue_digit d (by omega), ih hds]
    rfl

theorem readDigits_digits (n : ℕ) : readDigits 10 (digits n) = some n := by
  by_cases hn : n = 0
  · subst hn
    rfl
  · have hlt : ∀ d ∈ (Nat.digits 10 n).reverse, d < 10 := fun d hd ↦
      Nat.digits_lt_base (by decide) (List.mem_reverse.mp hd)
    rw [readDigits, if_neg (digits_ne_nil n), digits, if_neg hn, ← List.map_reverse,
      mapM_digitValue hlt]
    have hall : (Nat.digits 10 n).reverse.all (· < 10) = true := by simpa using hlt
    simp only [hall, if_true, List.reverse_reverse, Nat.ofDigits_digits]

theorem IsDigit.not_space {c : Char} (h : IsDigit c) : isSpace c = false := by
  obtain ⟨d, hd, rfl⟩ := h
  have hall : ∀ d < 10, isSpace (digit d) = false := by decide
  exact hall d hd

theorem IsDigit.not_mark {c : Char} (h : IsDigit c) :
    c ∉ ['x', 'X', 'o', 'O', 'b', 'B', '-', '+', '$'] := by
  obtain ⟨d, hd, rfl⟩ := h
  have hall : ∀ d < 10, digit d ∉ ['x', 'X', 'o', 'O', 'b', 'B', '-', '+', '$'] := by decide
  exact hall d hd

theorem dropWhile_isSpace {cs : List Char} (h : ∀ c ∈ cs, isSpace c = false) :
    cs.dropWhile isSpace = cs := by
  cases cs with
  | nil => rfl
  | cons c cs => simp [h c (by simp)]

theorem trim_eq {cs : List Char} (h : ∀ c ∈ cs, isSpace c = false) : trim cs = cs := by
  have hrev : ∀ c ∈ cs.reverse, isSpace c = false := fun c hc ↦ h c (List.mem_reverse.mp hc)
  rw [trim, dropWhile_isSpace h, dropWhile_isSpace hrev, List.reverse_reverse]

theorem radix_eq_none {c : Char} {cs : List Char} (h : ∀ d ∈ cs, IsDigit d) :
    radix (c :: cs) = none := by
  unfold radix
  split
  · rename_i d ds heq
    cases heq
    have hd := (h d (by simp)).not_mark
    simp only [List.mem_cons, not_or] at hd
    obtain ⟨hx, hX, ho, hO, hb, hB, -⟩ := hd
    simp [hx, hX, ho, hO, hb, hB]
  · rfl

@[simp] theorem ofText_toText (z : ℤ) : ofText (toText z) = some z := by
  have hd := digits_isDigit z.natAbs
  have hread := readDigits_digits z.natAbs
  obtain ⟨c, cs, hcs⟩ := List.exists_cons_of_ne_nil (digits_ne_nil z.natAbs)
  unfold ofText toText
  rw [String.toList_ofList]
  by_cases hz : z < 0
  · have hspace : ∀ c ∈ '-' :: digits z.natAbs, isSpace c = false := by
      intro c hc
      rcases List.mem_cons.mp hc with rfl | hc
      · decide
      · exact (hd c hc).not_space
    rw [if_pos hz, trim_eq hspace]
    simp only [reduceCtorEq, if_false, radix_eq_none hd, readSigned, if_true, hread, Option.map_some]
    congr 1
    omega
  · rw [if_neg hz, trim_eq fun c hc ↦ (hd c hc).not_space, hcs]
    rw [hcs] at hd hread
    have hmark := (hd c (by simp)).not_mark
    simp only [List.mem_cons, not_or] at hmark
    obtain ⟨-, -, -, -, -, -, hminus, hplus, -⟩ := hmark
    simp only [reduceCtorEq, if_false, radix_eq_none fun d hd' ↦ hd d (List.mem_cons_of_mem c hd'),
      readSigned, if_neg hminus, if_neg hplus, hread, Option.map_some, Option.some.injEq]
    simp only [Int.ofNat_eq_natCast]
    omega

/-- What is printed starts with a sign or a digit, and goes on in digits. -/
theorem toText_chars (z : ℤ) : ∃ c cs, (toText z).toList = c :: cs ∧ (c = '-' ∨ IsDigit c) ∧
    ∀ d ∈ cs, IsDigit d := by
  have hd := digits_isDigit z.natAbs
  obtain ⟨c, cs, hcs⟩ := List.exists_cons_of_ne_nil (digits_ne_nil z.natAbs)
  rw [toText, String.toList_ofList]
  by_cases hz : z < 0
  · exact ⟨'-', digits z.natAbs, by rw [if_pos hz], .inl rfl, hd⟩
  · rw [hcs] at hd
    exact ⟨c, cs, by rw [if_neg hz, hcs], .inr (hd c (by simp)),
      fun d hd' ↦ hd d (List.mem_cons_of_mem c hd')⟩

end Decimal
