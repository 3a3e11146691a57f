import ArkadeSdk.Lib.Double
import ArkadeSdk.Lib.JsCoercion
import Mathlib.Data.List.TakeWhile
import Mathlib.Tactic.Positivity

/-! How the language prints a number: the shortest decimal that rounds to it. -/

namespace NumberText

open HexCodec

/-- The value of some digits with an exponent. -/
def value (s : ℕ) (e : ℤ) : ℚ := s * 10 ^ e

/-- The exponent of a decimal with `k` digits near the number. -/
def exponent (v : ℚ) (k : ℕ) : ℤ := Int.log 10 v + 1 - k

/-- The digits of the nearest such decimal. -/
def digitsOf (v : ℚ) (k : ℕ) : ℕ := (Double.roundEven (v / 10 ^ exponent v k)).toNat

def roundsTo (v : ℚ) (k : ℕ) : Bool := Double.ofRat (value (digitsOf v k) (exponent v k)) = v

/-- The least number of digits that is enough; 17 always are. -/
def digitCount (v : ℚ) : ℕ :=
  match (List.range 17).find? fun i ↦ roundsTo v (i + 1) with
  | some i => i + 1
  | none => 17

/-- Zeros at the end go into the exponent. -/
def strip : ℕ → ℕ → ℤ → ℕ × ℤ
  | 0, s, e => (s, e)
  | fuel + 1, s, e => if s % 10 = 0 then strip fuel (s / 10) (e + 1) else (s, e)

theorem strip_value (fuel s : ℕ) (e : ℤ) :
    value (strip fuel s e).1 (strip fuel s e).2 = value s e := by
  induction fuel generalizing s e with
  | zero => rfl
  | succ fuel ih =>
    unfold strip
    split
    · next hs =>
      rw [ih]
      have hsplit : (s : ℚ) = (s / 10 : ℕ) * 10 := by
        exact_mod_cast (Nat.div_mul_cancel (Nat.dvd_of_mod_eq_zero hs)).symm
      rw [value, value, hsplit, zpow_add_one₀ (by norm_num)]
      ring
    · rfl

theorem strip_pos {fuel s : ℕ} {e : ℤ} (hs : 0 < s) : 0 < (strip fuel s e).1 := by
  induction fuel generalizing s e with
  | zero => exact hs
  | succ fuel ih =>
    unfold strip
    split
    · exact ih (by omega)
    · exact hs

/-- One digit, and the others after a point. -/
def mantissa : List Char → List Char
  | d :: d' :: ds => d :: '.' :: d' :: ds
  | ds => ds

def signed (z : ℤ) : List Char := (if z < 0 then '-' else '+') :: Decimal.digits z.natAbs

/-- The text for digits and an exponent. -/
def layout (s : ℕ) (e : ℤ) : List Char :=
  let ds := Decimal.digits s
  let n := e + ds.length
  if 0 ≤ e ∧ n ≤ 21 then ds ++ List.replicate e.toNat '0'
  else if 0 < n ∧ n ≤ 21 then ds.take n.toNat ++ '.' :: ds.drop n.toNat
  else if -6 < n ∧ n ≤ 0 then '0' :: '.' :: (List.replicate (-n).toNat '0' ++ ds)
  else mantissa ds ++ 'e' :: signed (n - 1)

/-- `String(v)` of a positive number. -/
def positiveText (v : ℚ) : List Char :=
  let stripped := strip 17 (digitsOf v (digitCount v)) (exponent v (digitCount v))
  layout stripped.1 stripped.2

/-- `String(v)`. -/
def text (v : ℚ) : List Char :=
  if v = 0 then ['0'] else if v < 0 then '-' :: positiveText (-v) else positiveText v

def pointed : List ℕ → List Char
  | [] => []
  | d :: ds => '.' :: digit d :: ds.map digit

def plainText (whole fraction : List ℕ) : List Char := whole.map digit ++ pointed fraction

theorem plainText_of_ne_nil {fraction : List ℕ} (h : fraction ≠ []) (whole : List ℕ) :
    plainText whole fraction = whole.map digit ++ '.' :: fraction.map digit := by
  cases fraction with
  | nil => exact absurd rfl h
  | cons d ds => rfl

/-- Such a text with a value. -/
def Plain (cs : List Char) (q : ℚ) : Prop :=
  ∃ whole fraction : List ℕ, whole ≠ [] ∧ (∀ d ∈ whole ++ fraction, d < 10) ∧
    cs = plainText whole fraction ∧
    q = (Nat.ofDigits 10 (whole ++ fraction).reverse : ℕ) / 10 ^ fraction.length

theorem digits_eq {s : ℕ} (hs : 0 < s) :
    Decimal.digits s = (Nat.digits 10 s).reverse.map digit := by
  rw [Decimal.digits, if_neg hs.ne', List.map_reverse]

theorem digit_lt {s : ℕ} : ∀ d ∈ (Nat.digits 10 s).reverse, d < 10 :=
  fun _ hd ↦ Nat.digits_lt_base (by decide) (List.mem_reverse.mp hd)

theorem map_replicate_zero (n : ℕ) : (List.replicate n 0).map digit = List.replicate n '0' := by
  rw [List.map_replicate]
  rfl

theorem length_digits_bounds {s : ℕ} (hs : 0 < s) :
    10 ^ ((Nat.digits 10 s).length - 1) ≤ s ∧ s < 10 ^ (Nat.digits 10 s).length := by
  refine ⟨?_, Nat.lt_base_pow_length_digits (by decide)⟩
  have hle := Nat.base_pow_length_digits_le 10 s (by decide) hs.ne'
  have hlength : 0 < (Nat.digits 10 s).length :=
    List.length_pos_iff.mpr (Nat.digits_ne_nil_iff_ne_zero.mpr hs.ne')
  rw [← Nat.succ_pred_eq_of_pos hlength, pow_succ'] at hle
  simpa using Nat.le_of_mul_le_mul_left hle (by decide)

/-- `n` of the layout is the number of digits before the point. -/
theorem value_bounds {s : ℕ} {e : ℤ} (hs : 0 < s) :
    (10 : ℚ) ^ (e + (Decimal.digits s).length - 1) ≤ value s e ∧
      value s e < 10 ^ (e + (Decimal.digits s).length) := by
  obtain ⟨hlow, hhigh⟩ := length_digits_bounds hs
  have hlength : (Decimal.digits s).length = (Nat.digits 10 s).length := by
    rw [digits_eq hs, List.length_map, List.length_reverse]
  have hpos : 0 < (Nat.digits 10 s).length :=
    List.length_pos_iff.mpr (Nat.digits_ne_nil_iff_ne_zero.mpr hs.ne')
  have hten : (0 : ℚ) < 10 ^ e := zpow_pos (by norm_num) e
  rw [hlength, value]
  constructor
  · have hsplit : e + ((Nat.digits 10 s).length : ℤ) - 1 =
        ((Nat.digits 10 s).length - 1 : ℕ) + e := by omega
    rw [hsplit, zpow_add₀ (by norm_num), zpow_natCast]
    exact mul_le_mul_of_nonneg_right (by exact_mod_cast hlow) hten.le
  · rw [add_comm, zpow_add₀ (by norm_num), zpow_natCast]
    exact mul_lt_mul_of_pos_right (by exact_mod_cast hhigh) hten

theorem ofDigits_replicate_zero (n : ℕ) : Nat.ofDigits 10 (List.replicate n 0) = 0 := by
  induction n with
  | zero => rfl
  | succ n ih => rw [List.replicate_succ, Nat.ofDigits_cons, ih]

/-- A number from a millionth on and not too large is printed without an exponent. -/
theorem plain_layout {s : ℕ} {e : ℤ} (hs : 0 < s) (hlow : 1 / 10 ^ 6 ≤ value s e)
    (hhigh : value s e < 10 ^ 21) : Plain (layout s e) (value s e) := by
  obtain ⟨hn, hn'⟩ := value_bounds (e := e) hs
  have hlength : (Decimal.digits s).length = (Nat.digits 10 s).length := by
    rw [digits_eq hs, List.length_map, List.length_reverse]
  have hne : (Nat.digits 10 s).reverse ≠ [] := by
    simpa using Nat.digits_ne_nil_iff_ne_zero.mpr hs.ne'
  have hn₆ : -6 < e + (Decimal.digits s).length := by
    have hlt : (10 : ℚ) ^ (-6 : ℤ) < 10 ^ (e + ((Decimal.digits s).length : ℤ)) :=
      lt_of_le_of_lt (by norm_num at hlow ⊢; exact hlow) hn'
    exact (zpow_lt_zpow_iff_right₀ (by norm_num)).mp hlt
  have hn₂₁ : e + (Decimal.digits s).length ≤ 21 := by
    have hlt : (10 : ℚ) ^ (e + ((Decimal.digits s).length : ℤ) - 1) < 10 ^ (21 : ℤ) :=
      lt_of_le_of_lt hn (by exact_mod_cast hhigh)
    have := (zpow_lt_zpow_iff_right₀ (by norm_num : (1 : ℚ) < 10)).mp hlt
    omega
  unfold layout
  dsimp only
  by_cases he : 0 ≤ e
  · rw [if_pos ⟨he, hn₂₁⟩]
    refine ⟨(Nat.digits 10 s).reverse ++ List.replicate e.toNat 0, [], ?_, ?_, ?_, ?_⟩
    · simp [hne]
    · intro d hd
      simp only [List.append_nil, List.mem_append, List.mem_replicate] at hd
      rcases hd with hd | ⟨-, rfl⟩
      · exact digit_lt d hd
      · decide
    · rw [plainText, pointed, digits_eq hs, List.map_append, map_replicate_zero,
        List.append_nil]
    · obtain ⟨n, rfl⟩ := Int.eq_ofNat_of_zero_le he
      simp only [List.append_nil, List.reverse_append, List.reverse_reverse, List.reverse_replicate,
        Nat.ofDigits_append, List.length_replicate, ofDigits_replicate_zero, Nat.ofDigits_digits,
        Int.toNat_natCast, List.length_nil, pow_zero, div_one, zero_add,
        value, zpow_natCast]
      push_cast
      ring
  · rw [if_neg fun h ↦ he h.1]
    obtain ⟨m, hm⟩ : ∃ m : ℕ, e = -(m : ℤ) := ⟨(-e).toNat, by omega⟩
    have hvalue : value s e = (s : ℚ) / 10 ^ m := by
      rw [value, hm, zpow_neg, zpow_natCast, div_eq_mul_inv]
    by_cases hn₀ : 0 < e + (Decimal.digits s).length
    · rw [if_pos ⟨hn₀, hn₂₁⟩, hvalue]
      obtain ⟨n, hn⟩ : ∃ n : ℕ, e + (Decimal.digits s).length = (n : ℤ) :=
        ⟨(e + (Decimal.digits s).length).toNat, by omega⟩
      have hdrop : ((Nat.digits 10 s).reverse.drop n).length = m := by
        rw [List.length_drop, List.length_reverse]
        omega
      refine ⟨(Nat.digits 10 s).reverse.take n, (Nat.digits 10 s).reverse.drop n, ?_, ?_, ?_, ?_⟩
      · apply List.ne_nil_of_length_pos
        rw [List.length_take, List.length_reverse]
        omega
      · rw [List.take_append_drop]
        exact digit_lt
      · rw [hn, Int.toNat_natCast, digits_eq hs, ← List.map_take, ← List.map_drop,
          plainText_of_ne_nil]
        apply List.ne_nil_of_length_pos
        omega
      · rw [List.take_append_drop, List.reverse_reverse, Nat.ofDigits_digits, hdrop]
    · rw [if_neg fun h ↦ hn₀ h.1, if_pos ⟨hn₆, by omega⟩, hvalue]
      obtain ⟨n, hn⟩ : ∃ n : ℕ, -(e + (Decimal.digits s).length) = (n : ℤ) :=
        ⟨(-(e + (Decimal.digits s).length)).toNat, by omega⟩
      refine ⟨[0], List.replicate n 0 ++ (Nat.digits 10 s).reverse, by simp, ?_, ?_, ?_⟩
      · intro d hd
        simp only [List.singleton_append, List.mem_cons, List.mem_append, List.mem_replicate] at hd
        rcases hd with rfl | ⟨-, rfl⟩ | hd
        · decide
        · decide
        · exact digit_lt d hd
      · rw [hn, Int.toNat_natCast, digits_eq hs, plainText_of_ne_nil (by simp [hne]),
          List.map_append, map_replicate_zero]
        rfl
      · have hlen : (List.replicate n 0 ++ (Nat.digits 10 s).reverse).length = m := by
          rw [List.length_append, List.length_replicate, List.length_reverse]
          omega
        have hzeros : Nat.ofDigits 10 ([0] ++ (List.replicate n 0 ++
            (Nat.digits 10 s).reverse)).reverse = s := by
          simp [Nat.ofDigits_append, Nat.ofDigits_digits]
        rw [hlen, hzeros]

theorem exponent_layout {s : ℕ} {e : ℤ} (hs : 0 < s) (h : value s e < 1 / 10 ^ 6) :
    'e' ∈ layout s e := by
  obtain ⟨hn, -⟩ := value_bounds (e := e) hs
  have hn₆ : e + (Decimal.digits s).length ≤ -6 := by
    have hlt : (10 : ℚ) ^ (e + ((Decimal.digits s).length : ℤ) - 1) < 10 ^ (-6 : ℤ) :=
      lt_of_le_of_lt hn (by norm_num at h ⊢; exact h)
    have := (zpow_lt_zpow_iff_right₀ (by norm_num : (1 : ℚ) < 10)).mp hlt
    omega
  unfold layout
  dsimp only
  rw [if_neg (by omega), if_neg (by omega), if_neg (by omega)]
  exact List.mem_append_right _ List.mem_cons_self

theorem digitsOf_eq {v : ℚ} {k s : ℕ} (h : |v / 10 ^ exponent v k - s| < 1 / 2) :
    digitsOf v k = s := by
  rw [digitsOf, Double.roundEven_eq (z := s) (by exact_mod_cast h), Int.toNat_natCast]

theorem digitCount_eq {v : ℚ} {i : ℕ} (hi : i < 17) (h : roundsTo v (i + 1)) :
    ∃ j ≤ i, digitCount v = j + 1 ∧ roundsTo v (j + 1) := by
  cases hfind : (List.range 17).find? fun i ↦ roundsTo v (i + 1) with
  | none => exact absurd h (by simpa using List.find?_eq_none.mp hfind i (List.mem_range.mpr hi))
  | some j =>
    obtain ⟨hj, -, hleast⟩ := List.find?_range_eq_some.mp hfind
    refine ⟨j, ?_, by rw [digitCount, hfind], hj⟩
    by_contra hlt
    exact absurd h (by simpa using hleast i (by omega))

theorem value_pos {n : ℕ} (e : ℤ) (hn : 0 < n) : 0 < value n e :=
  mul_pos (by exact_mod_cast hn) (zpow_pos (by norm_num) e)

/-- Such a decimal and its rounding are near each other. -/
theorem abs_rounded_sub_le (n : ℕ) (e : ℤ) :
    |Double.ofRat (value n e) / 10 ^ e - n| ≤ n / 2 ^ 53 := by
  have hten : (0 : ℚ) < 10 ^ e := zpow_pos (by norm_num) e
  have h := Double.abs_ofRat_sub_le (value n e)
  have hsplit : Double.ofRat (value n e) / 10 ^ e - n =
      (Double.ofRat (value n e) - value n e) / 10 ^ e := by
    rw [value]
    field_simp
  have hvalue : |value n e| = n * 10 ^ e := abs_of_nonneg (mul_nonneg (Nat.cast_nonneg n) hten.le)
  rw [hvalue] at h
  rw [hsplit, abs_div, abs_of_pos hten, div_le_iff₀ hten]
  linarith

/-- The shortest decimal for the rounding of a decimal with this few digits is that decimal. -/
theorem shortest_value {n : ℕ} (e : ℤ) (hn : 0 < n) (hn' : n ≤ 21 * 10 ^ 14) :
    value (digitsOf (Double.ofRat (value n e)) (digitCount (Double.ofRat (value n e))))
      (exponent (Double.ofRat (value n e)) (digitCount (Double.ofRat (value n e)))) =
    value n e := by
  have hten : (0 : ℚ) < 10 ^ e := zpow_pos (by norm_num) e
  have hnear := abs_rounded_sub_le n e
  set v := Double.ofRat (value n e) with hv
  have hcast : (n : ℚ) ≤ 21 * 10 ^ 14 := by exact_mod_cast hn'
  have hone : (1 : ℚ) ≤ n := by exact_mod_cast hn
  obtain ⟨hlow, hhigh⟩ := abs_le.mp hnear
  have hv₀ : 0 < v := by
    have hquotient : 0 < v / 10 ^ e := by linarith
    exact (div_pos_iff_of_pos_right hten).mp hquotient
  have hlog := Int.zpow_log_le_self (b := 10) (r := v) (by norm_num) hv₀
  have hlog' := Int.lt_zpow_succ_log_self (b := 10) (by norm_num) v
  push_cast at hlog hlog'
  by_cases hcase : e ≤ Int.log 10 v
  · -- with the exponent of the decimal its own digits are found, so no more are used
    obtain ⟨i, hi⟩ : ∃ i : ℕ, Int.log 10 v = e + i := ⟨(Int.log 10 v - e).toNat, by omega⟩
    have hexponent : exponent v (i + 1) = e := by
      rw [exponent, hi]
      push_cast
      ring
    have hdigits : digitsOf v (i + 1) = n := by
      apply digitsOf_eq
      rw [hexponent]
      exact lt_of_le_of_lt hnear (by linarith)
    have hrounds : roundsTo v (i + 1) = true := by
      rw [roundsTo, hdigits, hexponent]
      exact decide_eq_true hv.symm
    have hi₁₇ : i < 17 := by
      have hpow : (10 : ℚ) ^ i < 10 ^ 17 := by
        have hle : (10 : ℚ) ^ i ≤ v / 10 ^ e := by
          rw [le_div_iff₀ hten, mul_comm, ← zpow_natCast, ← zpow_add₀ (by norm_num), ← hi]
          exact hlog
        linarith
      exact (pow_lt_pow_iff_right₀ (by norm_num)).mp hpow
    obtain ⟨j, hj, hcount, hj'⟩ := digitCount_eq hi₁₇ hrounds
    have hexponent' : exponent v (j + 1) = e + ((i - j : ℕ) : ℤ) := by
      rw [exponent, hi]
      omega
    have hvalue : value (digitsOf v (j + 1)) (exponent v (j + 1)) =
        ((digitsOf v (j + 1) * 10 ^ (i - j) : ℕ) : ℚ) * 10 ^ e := by
      rw [value, hexponent', zpow_add₀ (by norm_num), zpow_natCast]
      push_cast
      ring
    have heq : digitsOf v (j + 1) * 10 ^ (i - j) = n := by
      refine Double.ofRat_mul_inj hten hn' ?_
      rw [← hvalue]
      exact of_decide_eq_true hj'
    rw [hcount, hvalue, heq, value]
  · -- the rounding is below a power of ten, and the decimal is the power
    have hsmall : v / 10 ^ e < 1 := by
      rw [div_lt_one hten]
      exact lt_of_lt_of_le hlog' (zpow_le_zpow_right₀ (by norm_num) (by omega))
    have hn₁ : n = 1 := by
      have hlt : (n : ℚ) < 2 := by linarith
      have : n < 2 := by exact_mod_cast hlt
      omega
    subst hn₁
    have hlogeq : Int.log 10 v = e - 1 := by
      have hlt : (10 : ℚ) ^ (e - 1) < 10 ^ (Int.log 10 v + 1) := by
        refine lt_trans ?_ hlog'
        rw [zpow_sub_one₀ (by norm_num)]
        have hbig : 1 / 10 < v / 10 ^ e := by
          push_cast at hlow
          linarith
        rw [lt_div_iff₀ hten] at hbig
        linarith
      have := (zpow_lt_zpow_iff_right₀ (by norm_num : (1 : ℚ) < 10)).mp hlt
      omega
    have hexponent : exponent v (0 + 1) = e - 1 := by
      rw [exponent, hlogeq]
      push_cast
      ring
    have hdigits : digitsOf v (0 + 1) = 10 := by
      apply digitsOf_eq
      rw [hexponent, zpow_sub_one₀ (by norm_num)]
      have hscale : v / (10 ^ e * 10⁻¹) - (10 : ℕ) = 10 * (v / 10 ^ e - (1 : ℕ)) := by
        push_cast
        field_simp
      rw [hscale, abs_mul]
      push_cast at hnear ⊢
      norm_num at hnear ⊢
      linarith
    have hvalue : value 10 (e - 1) = value 1 e := by
      rw [value, value, zpow_sub_one₀ (by norm_num)]
      push_cast
      ring
    have hrounds : roundsTo v (0 + 1) = true := by
      rw [roundsTo, hdigits, hexponent, hvalue]
      exact decide_eq_true hv.symm
    obtain ⟨j, hj, hcount, -⟩ := digitCount_eq (by decide) hrounds
    obtain rfl := Nat.le_zero.mp hj
    rw [hcount, hdigits, hexponent, hvalue]

/-- What is printed are the digits of that decimal, in some split with the exponent. -/
theorem text_eq_layout {n : ℕ} (e : ℤ) (hn : 0 < n) (hn' : n ≤ 21 * 10 ^ 14) :
    ∃ s e', 0 < s ∧ value s e' = value n e ∧
      text (Double.ofRat (value n e)) = layout s e' := by
  have hshortest := shortest_value e hn hn'
  have hpos : 0 < Double.ofRat (value n e) := by
    have hlow := (Double.ofRat_bounds (value_pos e hn).le).1
    have hscaled : 0 < value n e * (1 - 1 / 2 ^ 53) := mul_pos (value_pos e hn) (by norm_num)
    linarith
  set v := Double.ofRat (value n e)
  have hdigits : 0 < digitsOf v (digitCount v) := by
    refine Nat.pos_of_ne_zero fun hzero ↦ ?_
    rw [hzero, value, Nat.cast_zero, zero_mul] at hshortest
    exact (value_pos e hn).ne hshortest
  have hstripped : 0 < (strip 17 (digitsOf v (digitCount v)) (exponent v (digitCount v))).1 :=
    strip_pos hdigits
  refine ⟨_, (strip 17 (digitsOf v (digitCount v)) (exponent v (digitCount v))).2, hstripped,
    ?_, ?_⟩
  · rw [strip_value, hshortest]
  · rw [text, if_neg hpos.ne', if_neg hpos.le.not_gt, positiveText]

theorem plain_text {n : ℕ} {e : ℤ} (hn : 0 < n) (hn' : n ≤ 21 * 10 ^ 14)
    (hlow : 1 / 10 ^ 6 ≤ value n e) (hhigh : value n e < 10 ^ 21) :
    Plain (text (Double.ofRat (value n e))) (value n e) := by
  obtain ⟨s, e', hs, hvalue, htext⟩ := text_eq_layout e hn hn'
  rw [htext, ← hvalue]
  exact plain_layout hs (hvalue ▸ hlow) (hvalue ▸ hhigh)

theorem exponent_text {n : ℕ} {e : ℤ} (hn : 0 < n) (hn' : n ≤ 21 * 10 ^ 14)
    (h : value n e < 1 / 10 ^ 6) : 'e' ∈ text (Double.ofRat (value n e)) := by
  obtain ⟨s, e', hs, hvalue, htext⟩ := text_eq_layout e hn hn'
  rw [htext]
  exact exponent_layout hs (hvalue ▸ h)

theorem readDigits_map {ds : List ℕ} (hne : ds ≠ []) (hlt : ∀ d ∈ ds, d < 10) :
    Decimal.readDigits 10 (ds.map digit) = some (Nat.ofDigits 10 ds.reverse) := by
  have hmap : ds.map digit ≠ [] := by simpa using hne
  have hall : ds.all (· < 10) = true := by simpa using hlt
  rw [Decimal.readDigits, if_neg hmap, Decimal.mapM_digitValue hlt]
  simp only [hall, if_true]

theorem mapM_digitValue_point {ds : List ℕ} (hlt : ∀ d ∈ ds, d < 10) (cs : List Char) :
    (ds.map digit ++ '.' :: cs).mapM digitValue = none := by
  induction ds with
  | nil => rfl
  | cons d ds ih =>
    obtain ⟨hd, hds⟩ := List.forall_mem_cons.mp hlt
    rw [List.map_cons, List.cons_append, List.mapM_cons, digitValue_digit d (by omega), ih hds]
    rfl

theorem isDigit_of_mem {ds : List ℕ} (hlt : ∀ d ∈ ds, d < 10) :
    ∀ c ∈ ds.map digit, Decimal.IsDigit c := by
  intro c hc
  obtain ⟨d, hd, rfl⟩ := List.mem_map.mp hc
  exact ⟨d, hlt d hd, rfl⟩

theorem Plain.chars {cs : List Char} {q : ℚ} (h : Plain cs q) :
    ∀ c ∈ cs, Decimal.IsDigit c ∨ c = '.' := by
  obtain ⟨whole, fraction, -, hlt, rfl, -⟩ := h
  have hwhole := isDigit_of_mem fun d hd ↦ hlt d (List.mem_append_left _ hd)
  have hfraction := isDigit_of_mem fun d hd ↦ hlt d (List.mem_append_right _ hd)
  intro c hc
  rcases List.mem_append.mp hc with hc | hc
  · exact .inl (hwhole c hc)
  · cases fraction with
    | nil => cases hc
    | cons d ds =>
      rcases List.mem_cons.mp hc with rfl | hc
      · exact .inr rfl
      · exact .inl (hfraction c hc)

theorem ofText_plain {whole : List ℕ} (hne : whole ≠ []) (fraction : List ℕ)
    (hlt : ∀ d ∈ whole ++ fraction, d < 10) :
    Decimal.ofText (String.ofList (plainText whole fraction)) =
      if fraction = [] then some ((Nat.ofDigits 10 whole.reverse : ℕ) : ℤ) else none := by
  have hchars := Plain.chars ⟨whole, fraction, hne, hlt, rfl, rfl⟩
  have hwhole : ∀ d ∈ whole, d < 10 := fun d hd ↦ hlt d (List.mem_append_left _ hd)
  have hspace : ∀ c ∈ plainText whole fraction, Decimal.isSpace c = false := by
    intro c hc
    rcases hchars c hc with hc | rfl
    · exact hc.not_space
    · decide
  have hmarks : ∀ c ∈ plainText whole fraction, c ∉ ['x', 'X', 'o', 'O', 'b', 'B', '-', '+'] := by
    intro c hc
    rcases hchars c hc with hc | rfl
    · have := hc.not_mark
      simp_all
    · decide
  have hread : Decimal.readDigits 10 (plainText whole fraction) =
      if fraction = [] then some (Nat.ofDigits 10 whole.reverse) else none := by
    cases fraction with
    | nil => rw [plainText, pointed, List.append_nil, readDigits_map hne hwhole, if_pos rfl]
    | cons d ds =>
      have hnone : (plainText whole (d :: ds)).mapM digitValue = none :=
        mapM_digitValue_point hwhole _
      rw [if_neg (List.cons_ne_nil d ds), Decimal.readDigits, hnone]
      split <;> rfl
  obtain ⟨c, cs, hcs⟩ : ∃ c cs, plainText whole fraction = c :: cs := by
    obtain ⟨d, ds, rfl⟩ := List.exists_cons_of_ne_nil hne
    exact ⟨_, _, rfl⟩
  rw [Decimal.ofText, String.toList_ofList, Decimal.trim_eq hspace]
  rw [hcs] at hmarks hread ⊢
  have hsign := hmarks c List.mem_cons_self
  simp only [List.mem_cons, not_or] at hsign
  have hradix : Decimal.radix (c :: cs) = none := by
    unfold Decimal.radix
    split
    · next d ds heq =>
      cases heq
      have hd := hmarks d (by simp)
      simp only [List.mem_cons, not_or] at hd
      simp [hd]
    · rfl
  simp only [reduceCtorEq, if_false, hradix, Decimal.readSigned, if_neg hsign.2.2.2.2.2.2.1,
    if_neg hsign.2.2.2.2.2.2.2.1, hread]
  split <;> rfl

theorem readDecimal_plain {whole fraction : List ℕ} (hne : whole ≠ [])
    (hlt : ∀ d ∈ whole ++ fraction, d < 10) :
    JsCoercion.readDecimal (plainText whole fraction) =
      some (((Nat.ofDigits 10 (whole ++ fraction).reverse : ℕ) : ℚ) / 10 ^ fraction.length) := by
  have hchars := Plain.chars ⟨whole, fraction, hne, hlt, rfl, rfl⟩
  have hmark : ∀ c ∈ plainText whole fraction, (!JsCoercion.isExponentMark c) = true := by
    intro c hc
    rcases hchars c hc with ⟨d, hd, rfl⟩ | rfl
    · have hall : ∀ d < 10, (!JsCoercion.isExponentMark (digit d)) = true := by decide
      exact hall d hd
    · rfl
  have hpoint : ∀ c ∈ whole.map digit, decide (c ≠ '.') = true := by
    intro c hc
    obtain ⟨d, hd, rfl⟩ := List.mem_map.mp hc
    have hall : ∀ d < 10, decide (digit d ≠ '.') = true := by decide
    exact hall d (hlt d (List.mem_append_left _ hd))
  have hmantissa : JsCoercion.readMantissa (plainText whole fraction) =
      some (Nat.ofDigits 10 (whole ++ fraction).reverse, fraction.length) := by
    rw [JsCoercion.readMantissa, plainText, List.takeWhile_append_of_pos hpoint,
      List.dropWhile_append_of_pos hpoint]
    cases fraction with
    | nil =>
      simp only [pointed, List.takeWhile_nil, List.dropWhile_nil, List.drop_nil, List.append_nil]
      rw [readDigits_map hne fun d hd ↦ hlt d (List.mem_append_left _ hd)]
      rfl
    | cons d ds =>
      have htake : (pointed (d :: ds)).takeWhile (fun c ↦ decide (c ≠ '.')) = [] := rfl
      have hdrop : ((pointed (d :: ds)).dropWhile (fun c ↦ decide (c ≠ '.'))).drop 1 =
        (d :: ds).map digit := rfl
      rw [htake, hdrop, List.append_nil, ← List.map_append, readDigits_map (by simp) hlt]
      simp
  rw [JsCoercion.readDecimal, List.takeWhile_eq_self_iff.mpr hmark,
    List.dropWhile_eq_nil_iff.mpr hmark, hmantissa]
  simp only [Option.bind_eq_bind, Option.bind_some, zero_sub, zpow_neg, zpow_natCast]
  rw [div_eq_mul_inv]
  rfl

/-- `Number(s)` of a plain text. -/
theorem Plain.stringToNumber {cs : List Char} {q : ℚ} (h : Plain cs q) :
    JsCoercion.stringToNumber (String.ofList cs) = JsCoercion.ofRat q := by
  have hchars := h.chars
  obtain ⟨whole, fraction, hne, hlt, rfl, rfl⟩ := h
  rw [JsCoercion.stringToNumber, ofText_plain hne fraction hlt]
  by_cases hnil : fraction = []
  · subst hnil
    simp
  · have hspace : ∀ c ∈ plainText whole fraction, Decimal.isSpace c = false := by
      intro c hc
      rcases hchars c hc with hc | rfl
      · exact hc.not_space
      · decide
    have hsign : ∀ c ∈ plainText whole fraction, c ≠ '-' ∧ c ≠ '+' ∧ c ≠ 'I' := by
      intro c hc
      rcases hchars c hc with ⟨d, hd, rfl⟩ | rfl
      · have hall : ∀ d < 10, digit d ≠ '-' ∧ digit d ≠ '+' ∧ digit d ≠ 'I' := by decide
        exact hall d hd
      · decide
    rw [if_neg hnil, String.toList_ofList, Decimal.trim_eq hspace]
    have hunsigned : JsCoercion.readUnsigned (plainText whole fraction) = JsCoercion.ofRat
        ((Nat.ofDigits 10 (whole ++ fraction).reverse : ℕ) / 10 ^ fraction.length) := by
      have hinfinity : plainText whole fraction ≠ "Infinity".toList := by
        intro heq
        exact (hsign 'I' (heq ▸ by decide)).2.2 rfl
      rw [JsCoercion.readUnsigned, if_neg hinfinity, readDecimal_plain hne hlt]
    rw [← hunsigned]
    dsimp only
    split
    · next cs hcs => exact absurd rfl (hsign '-' (hcs ▸ List.mem_cons_self)).1
    · next cs hcs => exact absurd rfl (hsign '+' (hcs ▸ List.mem_cons_self)).2.1
    · rfl

end NumberText
