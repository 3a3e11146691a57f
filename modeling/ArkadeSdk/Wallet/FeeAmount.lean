import ArkadeSdk.Lib.Double

/-! Fees in satoshis, which are doubles. -/

namespace ArkadeSdk

structure FeeAmount where
  value : ℚ
  nonneg : 0 ≤ value
  double : Double.ofRat value = value

namespace FeeAmount

def ZERO : FeeAmount := ⟨0, le_rfl, Double.ofRat_zero⟩

variable (fee other : FeeAmount)

/-- Rounded up to whole satoshis. -/
def satoshis : ℤ := ⌈fee.value⌉

/-- The sum is rounded to a double. -/
def add : FeeAmount where
  value := Double.ofRat (fee.value + other.value)
  nonneg := Double.ofRat_nonneg (add_nonneg fee.nonneg other.nonneg)
  double := Double.ofRat_ofRat _

/-- Added up from the left, as the estimator does. -/
def total (fees : List FeeAmount) : FeeAmount := fees.foldl add ZERO

/-- The double nearest to a number, or nought for a negative one. -/
def ofRat (x : ℚ) : FeeAmount where
  value := Double.ofRat (max x 0)
  nonneg := Double.ofRat_nonneg (le_max_right x 0)
  double := Double.ofRat_ofRat _

variable {fee}

theorem satoshis_nonneg : 0 ≤ fee.satoshis := Int.ceil_nonneg fee.nonneg

theorem satoshis_le {n : ℤ} : fee.satoshis ≤ n ↔ fee.value ≤ n := Int.ceil_le

/-- Five fees of 0.84 and one of 0.52 and of 1.28 come to more than the six satoshis of their exact
sum. -/
example : (total (List.replicate 5 (ofRat 0.84) ++ [ofRat 0.52, ofRat 1.28])).satoshis = 7 := by
  decide +kernel

end FeeAmount

end ArkadeSdk
