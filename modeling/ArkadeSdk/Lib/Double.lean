import Mathlib.Algebra.Order.Round
import Mathlib.Data.Int.Log
import Mathlib.Data.Rat.Floor
import Mathlib.Tactic.FieldSimp
import Mathlib.Tactic.Linarith
import Mathlib.Tactic.NormNum

/-! Rounding to the 53 bits of a double, away from the ends of its range. -/

namespace Double

/-- The nearest integer, the even one of two. -/
def roundEven (x : ℚ) : ℤ :=
  let k := ⌊x⌋
  if x - k < 1 / 2 then k
  else if 1 / 2 < x - k then k + 1
  else k + k % 2

theorem abs_roundEven_sub_le (x : ℚ) : |(roundEven x : ℚ) - x| ≤ 1 / 2 := by
  have hlow := Int.floor_le x
  have hhigh := Int.lt_floor_add_one x
  have hmod : 0 ≤ ⌊x⌋ % 2 ∧ ⌊x⌋ % 2 ≤ 1 := by omega
  have hmod₀ : (0 : ℚ) ≤ (⌊x⌋ % 2 : ℤ) := by exact_mod_cast hmod.1
  have hmod₁ : ((⌊x⌋ % 2 : ℤ) : ℚ) ≤ 1 := by exact_mod_cast hmod.2
  unfold roundEven
  dsimp only
  rw [abs_le]
  split
  · constructor <;> linarith
  · split
    · push_cast
      constructor <;> linarith
    · push_cast
      constructor <;> linarith

/-- An integer that is nearer than half a unit is the nearest one. -/
theorem roundEven_eq {x : ℚ} {z : ℤ} (h : |x - z| < 1 / 2) : roundEven x = z := by
  have hle := abs_roundEven_sub_le x
  have hlt : |((roundEven x - z : ℤ) : ℚ)| < 1 := by
    push_cast
    have htri := abs_sub_le (roundEven x : ℚ) x z
    linarith
  have hint : |roundEven x - z| < 1 := by exact_mod_cast hlt
  exact sub_eq_zero.mp (Int.abs_lt_one_iff.mp hint)

/-- The weight of the last of the 53 bits of a number. -/
def ulp (x : ℚ) : ℚ := 2 ^ (Int.log 2 |x| - 52)

theorem ulp_pos (x : ℚ) : 0 < ulp x := zpow_pos (by norm_num) _

/-- The double nearest to a number. -/
def ofRat (x : ℚ) : ℚ := if x = 0 then 0 else roundEven (x / ulp x) * ulp x

@[simp] theorem ofRat_zero : ofRat 0 = 0 := rfl

theorem ulp_le {x : ℚ} (hx : x ≠ 0) : ulp x ≤ |x| / 2 ^ 52 := by
  have hlog := Int.zpow_log_le_self (b := 2) (r := |x|) (by norm_num) (abs_pos.mpr hx)
  rw [ulp, zpow_sub₀ (by norm_num)]
  refine (div_le_div_iff_of_pos_right (by norm_num)).mpr ?_
  exact_mod_cast hlog

/-- Rounding changes a number by one part in `2 ^ 53` at most. -/
theorem abs_ofRat_sub_le (x : ℚ) : |ofRat x - x| ≤ |x| / 2 ^ 53 := by
  by_cases hx : x = 0
  · simp [hx]
  · have hulp := ulp_pos x
    have hround := abs_roundEven_sub_le (x / ulp x)
    have hscale : ofRat x - x = (roundEven (x / ulp x) - x / ulp x) * ulp x := by
      rw [ofRat, if_neg hx, sub_mul, div_mul_cancel₀ x hulp.ne']
    rw [hscale, abs_mul, abs_of_pos hulp]
    have hle := mul_le_mul_of_nonneg_right hround hulp.le
    have hsmall := ulp_le hx
    calc |(roundEven (x / ulp x) : ℚ) - x / ulp x| * ulp x ≤ 1 / 2 * ulp x := hle
      _ ≤ 1 / 2 * (|x| / 2 ^ 52) := by linarith
      _ = |x| / 2 ^ 53 := by ring

/-- Bounds on the rounding of a number that is not negative. -/
theorem ofRat_bounds {x : ℚ} (hx : 0 ≤ x) :
    x * (1 - 1 / 2 ^ 53) ≤ ofRat x ∧ ofRat x ≤ x * (1 + 1 / 2 ^ 53) := by
  have h := abs_ofRat_sub_le x
  rw [abs_of_nonneg hx, abs_le] at h
  constructor
  · have hsplit : x * (1 - 1 / 2 ^ 53) = x - x / 2 ^ 53 := by ring
    rw [hsplit]
    linarith
  · have hsplit : x * (1 + 1 / 2 ^ 53) = x + x / 2 ^ 53 := by ring
    rw [hsplit]
    linarith

theorem ofRat_nonneg {x : ℚ} (hx : 0 ≤ x) : 0 ≤ ofRat x :=
  le_trans (mul_nonneg hx (by norm_num)) (ofRat_bounds hx).1

theorem roundEven_intCast (z : ℤ) : roundEven z = z := roundEven_eq (by simp)

theorem roundEven_le_floor_add_one (x : ℚ) : roundEven x ≤ ⌊x⌋ + 1 := by
  have hmod : ⌊x⌋ % 2 ≤ 1 := by omega
  unfold roundEven
  dsimp only
  split_ifs <;> omega

theorem floor_le_roundEven (x : ℚ) : ⌊x⌋ ≤ roundEven x := by
  have hmod : 0 ≤ ⌊x⌋ % 2 := by omega
  unfold roundEven
  dsimp only
  split_ifs <;> omega

theorem roundEven_mono {x y : ℚ} (h : x ≤ y) : roundEven x ≤ roundEven y := by
  have hx := roundEven_le_floor_add_one x
  have hy := floor_le_roundEven y
  obtain hlt | heq := (Int.floor_le_floor h).lt_or_eq
  · omega
  · have hmod : 0 ≤ ⌊y⌋ % 2 ∧ ⌊y⌋ % 2 ≤ 1 := by omega
    unfold roundEven
    dsimp only
    rw [heq]
    split_ifs <;> first | omega | (exfalso; linarith)

theorem ulp_eq {x : ℚ} (hx : 0 ≤ x) : ulp x = 2 ^ (Int.log 2 x - 52) := by
  rw [ulp, abs_of_nonneg hx]

/-- The power of two below a number, and the one above it, in units of its last bit. -/
theorem ulp_mul (x : ℚ) : 2 ^ 52 * ulp x = 2 ^ Int.log 2 |x| := by
  rw [ulp, ← zpow_natCast, ← zpow_add₀ (by norm_num)]
  congr 1
  omega

theorem zpow_log_le_ofRat {x : ℚ} (hx : 0 < x) : 2 ^ Int.log 2 x ≤ ofRat x := by
  have hulp := ulp_pos x
  have hlog := Int.zpow_log_le_self (b := 2) (r := x) (by norm_num) hx
  have hscale := ulp_mul x
  rw [abs_of_pos hx] at hscale
  have hround : ((2 ^ 52 : ℤ) : ℚ) ≤ x / ulp x := by
    rw [le_div_iff₀ hulp]
    rw [Int.cast_pow, Int.cast_ofNat, hscale]
    exact_mod_cast hlog
  have hmono := roundEven_mono hround
  rw [roundEven_intCast] at hmono
  rw [ofRat, if_neg hx.ne', ← hscale]
  refine mul_le_mul_of_nonneg_right ?_ hulp.le
  exact_mod_cast hmono

theorem ofRat_le_zpow_log {x : ℚ} (hx : 0 < x) : ofRat x ≤ 2 ^ (Int.log 2 x + 1) := by
  have hulp := ulp_pos x
  have hlog := Int.lt_zpow_succ_log_self (b := 2) (r := x) (by norm_num)
  have hscale := ulp_mul x
  rw [abs_of_pos hx] at hscale
  have hpow : (2 : ℚ) ^ (Int.log 2 x + 1) = 2 ^ 53 * ulp x := by
    rw [zpow_add₀ (by norm_num), ← hscale]
    ring
  have hround : x / ulp x ≤ ((2 ^ 53 : ℤ) : ℚ) := by
    rw [div_le_iff₀ hulp]
    rw [Int.cast_pow, Int.cast_ofNat, ← hpow]
    exact_mod_cast hlog.le
  have hmono := roundEven_mono hround
  rw [roundEven_intCast] at hmono
  rw [ofRat, if_neg hx.ne', hpow]
  refine mul_le_mul_of_nonneg_right ?_ hulp.le
  exact_mod_cast hmono

theorem ofRat_mono {x y : ℚ} (hx : 0 ≤ x) (h : x ≤ y) : ofRat x ≤ ofRat y := by
  obtain rfl | hx := hx.eq_or_lt
  · exact ofRat_nonneg h
  have hy := hx.trans_le h
  obtain hlt | heq := (Int.log_mono_right (b := 2) hx h).lt_or_eq
  · -- a power of two lies between them
    calc ofRat x ≤ 2 ^ (Int.log 2 x + 1) := ofRat_le_zpow_log hx
      _ ≤ 2 ^ Int.log 2 y := zpow_le_zpow_right₀ (by norm_num) hlt
      _ ≤ ofRat y := zpow_log_le_ofRat hy
  · have hulp : ulp x = ulp y := by rw [ulp_eq hx.le, ulp_eq hy.le, heq]
    rw [ofRat, ofRat, if_neg hx.ne', if_neg hy.ne', hulp]
    refine mul_le_mul_of_nonneg_right ?_ (ulp_pos y).le
    exact_mod_cast roundEven_mono (div_le_div_of_nonneg_right h (ulp_pos y).le)

/-- An integer of 53 bits in any unit is a double. -/
theorem ofRat_eq_self {x : ℚ} {m : ℤ} {e : ℤ} (hx : x = m * 2 ^ e) (hm : |m| ≤ 2 ^ 53) :
    ofRat x = x := by
  by_cases hzero : x = 0
  · rw [hzero, ofRat_zero]
  have hne : m ≠ 0 := by
    rintro rfl
    exact hzero (by simp [hx])
  have habs : |x| = (|m| : ℤ) * 2 ^ e := by
    rw [hx, abs_mul, abs_of_pos (zpow_pos (by norm_num : (0 : ℚ) < 2) e), Int.cast_abs]
  have hlog := Int.zpow_log_le_self (b := 2) (r := |x|) (by norm_num) (abs_pos.mpr hzero)
  have hunits : ∃ z : ℤ, x = z * ulp x := by
    -- the unit of the last bit divides that of `m`, or is twice it and `|m|` is `2 ^ 53`
    obtain hle | hlt := le_or_gt (Int.log 2 |x| - 52) e
    · obtain ⟨k, hk⟩ := Int.eq_ofNat_of_zero_le (sub_nonneg.mpr hle)
      have hexp : (k : ℤ) + (Int.log 2 |x| - 52) = e := by omega
      refine ⟨m * 2 ^ k, ?_⟩
      push_cast
      rw [ulp, mul_assoc, ← zpow_natCast, ← zpow_add₀ (by norm_num), hexp, ← hx]
    · have hpow : (0 : ℚ) < 2 ^ e := zpow_pos (by norm_num) e
      have hlarge : (2 : ℚ) ^ 53 * 2 ^ e ≤ (|m| : ℤ) * 2 ^ e := by
        rw [← habs]
        refine le_trans ?_ hlog
        rw [← zpow_natCast, ← zpow_add₀ (by norm_num)]
        exact zpow_le_zpow_right₀ (by norm_num) (by push_cast; omega)
      have habsm : |m| = 2 ^ 53 := by
        refine le_antisymm hm ?_
        exact_mod_cast le_of_mul_le_mul_right hlarge hpow
      have hulp : ulp x = 2 * 2 ^ e := by
        have hval : |x| = 2 ^ (e + 53) := by
          rw [habs, habsm, zpow_add₀ (by norm_num)]
          push_cast
          ring
        have hlogval : Int.log 2 ((2 : ℚ) ^ (e + 53)) = e + 53 := by
          exact_mod_cast Int.log_zpow (R := ℚ) (b := 2) (by norm_num) (e + 53)
        rw [ulp, hval, hlogval, ← zpow_one_add₀ (by norm_num)]
        congr 1
        omega
      obtain hm | hm := abs_eq_abs.mp (habsm.trans (abs_of_pos (by norm_num)).symm)
      · exact ⟨2 ^ 52, by rw [hulp, hx, hm]; push_cast; ring⟩
      · exact ⟨-2 ^ 52, by rw [hulp, hx, hm]; push_cast; ring⟩
  obtain ⟨z, hz⟩ := hunits
  have hdiv : x / ulp x = z := by
    rw [div_eq_iff (ulp_pos x).ne']
    exact hz
  rw [ofRat, if_neg hzero, hdiv, roundEven_intCast, ← hz]

theorem abs_roundEven_le {x : ℚ} {n : ℕ} (h : |x| ≤ n) : |roundEven x| ≤ n := by
  obtain ⟨hlow, hhigh⟩ := abs_le.mp h
  have hlow' := roundEven_mono (x := ((-n : ℤ) : ℚ)) (by push_cast; exact hlow)
  have hhigh' := roundEven_mono (y := ((n : ℤ) : ℚ)) (by push_cast; exact hhigh)
  rw [roundEven_intCast] at hlow' hhigh'
  exact abs_le.mpr ⟨hlow', hhigh'⟩

theorem ofRat_ofRat (x : ℚ) : ofRat (ofRat x) = ofRat x := by
  by_cases hx : x = 0
  · simp [hx]
  have hlog := Int.lt_zpow_succ_log_self (b := 2) (r := |x|) (by norm_num)
  have hsmall : |x / ulp x| ≤ (2 ^ 53 : ℕ) := by
    rw [abs_div, abs_of_pos (ulp_pos x), div_le_iff₀ (ulp_pos x), Nat.cast_pow]
    have hscale := ulp_mul x
    rw [zpow_add₀ (by norm_num)] at hlog
    push_cast at hlog ⊢
    linarith
  refine ofRat_eq_self (m := roundEven (x / ulp x)) (e := Int.log 2 |x| - 52) ?_ ?_
  · rw [ofRat, if_neg hx]
    rfl
  · exact_mod_cast abs_roundEven_le hsmall

/-- Multiples of one number by integers of less than 52 bits have different roundings. -/
theorem ofRat_mul_inj {m n : ℕ} {c : ℚ} (hc : 0 < c) (hn : n ≤ 21 * 10 ^ 14)
    (h : ofRat (m * c) = ofRat (n * c)) : m = n := by
  have hn' : (n : ℚ) ≤ 21 * 10 ^ 14 := by exact_mod_cast hn
  obtain ⟨hlow, hhigh⟩ := ofRat_bounds (mul_nonneg (Nat.cast_nonneg m) hc.le)
  obtain ⟨hlow', hhigh'⟩ := ofRat_bounds (mul_nonneg (Nat.cast_nonneg n) hc.le)
  rw [h] at hlow hhigh
  have hle : (m : ℚ) * (1 - 1 / 2 ^ 53) ≤ n * (1 + 1 / 2 ^ 53) := by
    refine le_of_mul_le_mul_right ?_ hc
    linarith
  have hge : (n : ℚ) * (1 - 1 / 2 ^ 53) ≤ m * (1 + 1 / 2 ^ 53) := by
    refine le_of_mul_le_mul_right ?_ hc
    linarith
  have hlt : (m : ℚ) < n + 1 := by linarith
  have hgt : (n : ℚ) < m + 1 := by linarith
  exact le_antisymm (Nat.lt_succ_iff.mp (by exact_mod_cast hlt))
    (Nat.lt_succ_iff.mp (by exact_mod_cast hgt))

/-- Dividing an integer by a number and multiplying again gives the integer back, if it has fewer
than 52 bits. -/
theorem round_mul_div {n : ℕ} {c : ℚ} (hc : 0 < c) (hn : n ≤ 21 * 10 ^ 14) :
    ⌊ofRat (ofRat (n / c) * c) + 1 / 2⌋ = n := by
  have hn' : (n : ℚ) ≤ 21 * 10 ^ 14 := by exact_mod_cast hn
  have hn₀ : (0 : ℚ) ≤ n := Nat.cast_nonneg n
  obtain ⟨hlow, hhigh⟩ := ofRat_bounds (div_nonneg hn₀ hc.le)
  have hlow' : n * (1 - 1 / 2 ^ 53) ≤ ofRat (n / c) * c := by
    have h := mul_le_mul_of_nonneg_right hlow hc.le
    have hcancel : (n : ℚ) / c * (1 - 1 / 2 ^ 53) * c = n * (1 - 1 / 2 ^ 53) := by
      field_simp
    rwa [hcancel] at h
  have hhigh' : ofRat (n / c) * c ≤ n * (1 + 1 / 2 ^ 53) := by
    have h := mul_le_mul_of_nonneg_right hhigh hc.le
    have hcancel : (n : ℚ) / c * (1 + 1 / 2 ^ 53) * c = n * (1 + 1 / 2 ^ 53) := by
      field_simp
    rwa [hcancel] at h
  have hproduct : 0 ≤ ofRat (n / c) * c :=
    mul_nonneg (ofRat_nonneg (div_nonneg hn₀ hc.le)) hc.le
  obtain ⟨hlow₂, hhigh₂⟩ := ofRat_bounds hproduct
  rw [Int.floor_eq_iff]
  push_cast
  constructor
  · linarith
  · linarith

end Double
