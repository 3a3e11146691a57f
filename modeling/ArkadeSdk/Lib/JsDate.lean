import ArkadeSdk.Lib.JsNumber

/-! The language's `Date`: a number of milliseconds in its range, or an invalid date. -/

namespace JsDate

open JsNumber

theorem abs_trunc_le (q : ℚ) : |(Number.trunc q : ℚ)| ≤ |q| := by
  have hden : (0 : ℚ) < q.den := by exact_mod_cast q.pos
  have hnat : (Number.trunc q).natAbs * q.den ≤ q.num.natAbs := by
    rw [Number.trunc, Int.natAbs_tdiv]
    exact Nat.div_mul_le_self _ _
  have hmul : |(Number.trunc q : ℚ)| * q.den ≤ |(q.num : ℚ)| := by
    rw [← Int.cast_abs, ← Int.cast_abs, Int.abs_eq_natAbs, Int.abs_eq_natAbs]
    exact_mod_cast hnat
  rw [← Rat.num_div_den q, abs_div, abs_of_pos hden, le_div_iff₀ hden]
  simpa [Rat.num_div_den] using hmul

theorem le_trunc {m : ℤ} {q : ℚ} (hm : 0 ≤ m) (h : (m : ℚ) ≤ q) : m ≤ Number.trunc q := by
  have hq : 0 ≤ q := le_trans (by exact_mod_cast hm) h
  have hmul : m * q.den ≤ q.num := by
    rw [← Rat.num_div_den q, le_div_iff₀ (by exact_mod_cast q.pos)] at h
    exact_mod_cast h
  rw [Number.trunc, Int.tdiv_eq_ediv_of_nonneg (Rat.num_nonneg.mpr hq)]
  exact Int.le_ediv_of_mul_le (by exact_mod_cast q.pos) hmul

/-- A hundred million days around 1970. -/
def maxTime : ℤ := 8640000000000000

structure Date where
  time : Option ℤ
  inRange : ∀ t ∈ time, |t| ≤ maxTime

namespace Date

def invalid : Date := ⟨none, nofun⟩

/-- `new Date(ms)`: fractions are cut off, and what lies out of range is invalid. -/
def ofNumber : Number → Date
  | .finite q =>
    if h : |q| ≤ maxTime then
      ⟨some (Number.trunc q), fun t ht ↦ by
        obtain rfl := Option.some.inj ht
        have habs := (abs_trunc_le q).trans h
        exact_mod_cast habs⟩
    else invalid
  | _ => invalid

def getTime (d : Date) : Number := match d.time with
  | some t => .ofInt t
  | none => .nan

theorem ofNumber_getTime (d : Date) : ofNumber d.getTime = d := by
  obtain ⟨time, hrange⟩ := d
  cases time with
  | none => rfl
  | some t =>
    have ht : |(t : ℚ)| ≤ maxTime := by exact_mod_cast hrange t rfl
    simp [ofNumber, getTime, Number.ofInt, ht]

end Date

end JsDate
