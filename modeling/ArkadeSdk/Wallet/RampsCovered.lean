import ArkadeSdk.Wallet.Ramps
import Mathlib.Algebra.Order.BigOperators.Group.List

/-! When what a ramp leaves for the operator is the operator's fee, up to rounding. -/

namespace ArkadeSdk.Ramps

open WireFormat JsNumber Vtxo

def Output.offchain? (output : Output) : Option FeeOutput :=
  match output.address with
  | .ark pkScript => some ⟨output.amount, pkScript⟩
  | _ => none

def Output.onchain? (output : Output) : Option FeeOutput :=
  match output.address with
  | .onchain script => some ⟨output.amount, script⟩
  | _ => none

def Output.fee (e : Estimator) (output : Output) : FeeAmount :=
  match output.address with
  | .ark pkScript => e.evalOffchainOutput ⟨output.amount, pkScript⟩
  | .onchain script => e.evalOnchainOutput ⟨output.amount, script⟩
  | .other _ => .ZERO

/-- What the inputs are worth beyond the outputs. -/
def SettleParams.paid {ι : Type} (value : ι → ℤ) (params : SettleParams ι) : ℤ :=
  (params.inputs.map value).sum - (params.outputs.map (·.amount)).sum

def rounded (fees : List FeeAmount) : ℤ := (fees.map FeeAmount.satoshis).sum

def Covers (paid : ℤ) (fee : FeeAmount) (parts : List FeeAmount) : Prop :=
  fee.satoshis ≤ paid ∧ paid ≤ rounded parts

def onboardCovered (e : Estimator) (params : SettleParams ExtendedCoin) : Prop :=
  Covers (params.paid (·.value))
    (e.evaluate [] (params.inputs.map fun utxo ↦ ⟨utxo.value⟩)
      (params.outputs.filterMap Output.offchain?) (params.outputs.filterMap Output.onchain?))
    ((params.inputs.map fun utxo ↦ e.evalOnchainInput ⟨utxo.value⟩) ++
      params.outputs.map (Output.fee e))

def offboardCovered (e : Estimator) (params : SettleParams VirtualCoin) : Prop :=
  Covers (params.paid (·.value))
    (e.evaluate (params.inputs.map toOffchainInputFeeParams) []
      (params.outputs.filterMap Output.offchain?) (params.outputs.filterMap Output.onchain?))
    ((params.inputs.map fun vtxo ↦ e.evalOffchainInput (toOffchainInputFeeParams vtxo)) ++
      params.outputs.map (Output.fee e))

theorem evaluate_eq (e : Estimator) (offchainInputs : List OffchainInput)
    (onchainInputs : List OnchainInput) (offchainOutputs onchainOutputs : List FeeOutput) :
    e.evaluate offchainInputs onchainInputs offchainOutputs onchainOutputs =
      .total (offchainInputs.map e.evalOffchainInput ++ onchainInputs.map e.evalOnchainInput ++
        offchainOutputs.map e.evalOffchainOutput ++ onchainOutputs.map e.evalOnchainOutput) := by
  simp only [Estimator.evaluate, FeeAmount.total, List.foldl_append, List.foldl_map]

theorem rounded_append (fees fees' : List FeeAmount) :
    rounded (fees ++ fees') = rounded fees + rounded fees' := by
  rw [rounded, List.map_append, List.sum_append, rounded, rounded]

theorem rounded_singleton (fee : FeeAmount) : rounded [fee] = fee.satoshis := by
  rw [rounded, List.map_singleton, List.sum_singleton]

variable {ι : Type} {d : Direction ι} {g h : ℤ → FeeAmount} {inputs : List ι} {amount : Option ℤ}
  {r : Ramped ι}

/-- What the output is before its fee is taken from it. -/
def Direction.asked (d : Direction ι) (inputs : List ι) (amount : Option ℤ) : ℤ :=
  amount.getD (d.totalAmount inputs)

theorem ramp_ok (hg : d.outputFee = .ok g) (h : ramp d inputs amount = .ok r) :
    d.filtered inputs ≠ [] ∧ r.inputs = d.filtered inputs ∧
      r.amount = d.asked inputs amount - (g (d.asked inputs amount)).satoshis ∧
      (g (d.asked inputs amount)).satoshis ≤ d.asked inputs amount ∧
      d.changeOf (d.totalAmount inputs) amount = .ok r.change := by
  obtain ⟨hne, h⟩ := then_ok.mp h
  obtain ⟨change, hchange, h⟩ := bind_ok.mp h
  obtain ⟨-, h⟩ := then_ok.mp h
  obtain ⟨g', hg', h⟩ := bind_ok.mp h
  rw [hg] at hg'
  cases hg'
  obtain ⟨hle, h⟩ := then_ok.mp h
  cases h
  exact ⟨mt List.length_eq_zero_iff.mpr (rejectIf_ok.mp hne), rfl, rfl,
    not_lt.mp (rejectIf_ok.mp hle), hchange⟩

theorem change_eq {totalAmount change : ℤ} (hne : amount ≠ some 0)
    (h : d.changeOf totalAmount amount = .ok change) :
    change = totalAmount - amount.getD totalAmount ∧ 0 ≤ change := by
  cases amount with
  | none =>
    cases h
    simp
  | some a =>
    rw [Direction.changeOf, if_neg (by simpa using hne)] at h
    split at h
    · cases h
    · next hle =>
      cases h
      exact ⟨rfl, by omega⟩

theorem totalAmount_eq (d : Direction ι) (inputs : List ι) : d.totalAmount inputs =
    ((d.filtered inputs).map d.value).sum - rounded ((d.filtered inputs).map d.inputFee) := by
  rw [Direction.totalAmount, rounded]
  induction d.filtered inputs with
  | nil => rfl
  | cons input inputs ih =>
    simp only [List.map_cons, List.sum_cons, ih]
    omega

theorem totalAmount_pos (h : d.filtered inputs ≠ []) : 0 < d.totalAmount inputs := by
  have hnet : ∀ input ∈ d.filtered inputs, 0 < d.value input - (d.inputFee input).satoshis := by
    intro input hinput
    have hlt := (List.mem_filter.mp hinput).2
    simp only [Bool.not_eq_eq_eq_not, Bool.not_true, decide_eq_false_iff_not] at hlt
    omega
  rw [Direction.totalAmount]
  refine List.sum_pos _ (fun net hmem ↦ ?_) (by simpa using h)
  obtain ⟨input, hinput, rfl⟩ := List.mem_map.mp hmem
  exact hnet input hinput

def changeFee (h : ℤ → FeeAmount) (change : ℤ) : List FeeAmount :=
  if 0 < change then [h change] else []

/-- The fees of both outputs, in the order in which they are added: offchain outputs first. -/
def outputFees (mainFirst : Bool) (main : FeeAmount) (change : List FeeAmount) : List FeeAmount :=
  if mainFirst then main :: change else change ++ [main]

theorem rounded_outputFees (mainFirst : Bool) (main : FeeAmount) (change : List FeeAmount) :
    rounded (outputFees mainFirst main change) = main.satoshis + rounded change := by
  unfold outputFees
  split
  · exact List.sum_cons
  · rw [rounded_append, rounded_singleton, Int.add_comm]

/-- What the output that is made costs, once the fee of the one that is asked for has been taken
from it. -/
def Direction.mainFee (d : Direction ι) (g : ℤ → FeeAmount) (inputs : List ι) (amount : Option ℤ) :
    FeeAmount :=
  g (d.asked inputs amount - (g (d.asked inputs amount)).satoshis)

def Direction.changeFee (d : Direction ι) (h : ℤ → FeeAmount) (inputs : List ι)
    (amount : Option ℤ) : List FeeAmount :=
  Ramps.changeFee h (d.totalAmount inputs - d.asked inputs amount)

/-- The amount is not nought. The fees of the inputs and of the output that is asked for, each
rounded up, are enough for the sum of all fees that are due; and the latter is no more than the fees
of the outputs that are made, each rounded up. -/
structure Direction.Charged (d : Direction ι) (mainFirst : Bool) (g h : ℤ → FeeAmount)
    (inputs : List ι) (amount : Option ℤ) : Prop where
  nonzero : amount ≠ some 0
  enough : (FeeAmount.total ((d.filtered inputs).map d.inputFee ++
      outputFees mainFirst (d.mainFee g inputs amount) (d.changeFee h inputs amount))).satoshis ≤
    rounded ((d.filtered inputs).map d.inputFee) + (g (d.asked inputs amount)).satoshis
  notMore : (g (d.asked inputs amount)).satoshis ≤
    (d.mainFee g inputs amount).satoshis + rounded (d.changeFee h inputs amount)

def Ramped.fees (d : Direction ι) (r : Ramped ι) (mainFirst : Bool) (g h : ℤ → FeeAmount) :
    List FeeAmount :=
  r.inputs.map d.inputFee ++ outputFees mainFirst (g r.amount) (changeFee h r.change)

theorem rounded_fees (mainFirst : Bool) : rounded (r.fees d mainFirst g h) =
    rounded (r.inputs.map d.inputFee) +
      ((g r.amount).satoshis + rounded (changeFee h r.change)) := by
  rw [Ramped.fees, rounded_append, rounded_outputFees]

theorem ramp_covers_iff (mainFirst : Bool) (hg : d.outputFee = .ok g)
    (hr : ramp d inputs amount = .ok r) :
    Covers ((r.inputs.map d.value).sum - (r.amount + if 0 < r.change then r.change else 0))
        (.total (r.fees d mainFirst g h)) (r.fees d mainFirst g h) ↔
      d.Charged mainFirst g h inputs amount := by
  obtain ⟨hne, hinputs, hamount, hle, hchange⟩ := ramp_ok hg hr
  have htotal := totalAmount_eq d inputs
  rw [Covers, rounded_fees, hinputs]
  by_cases hzero : amount = some 0
  · -- The whole total goes to the operator.
    subst hzero
    have hasked : d.asked inputs (some 0) = 0 := rfl
    have hnone : r.change = 0 := (Except.ok.inj hchange).symm
    have hnonneg : 0 ≤ (g 0).satoshis := FeeAmount.satoshis_nonneg
    have hpos := totalAmount_pos hne
    rw [hasked] at hamount hle
    have hout : r.amount = 0 := by omega
    have hfree : rounded (changeFee h 0) = 0 := rfl
    refine iff_of_false (fun hcovers ↦ ?_) fun hcharged ↦ hcharged.nonzero rfl
    have hmost := hcovers.2
    rw [hout, hnone, hfree, if_neg (lt_irrefl 0)] at hmost
    omega
  · obtain ⟨hrest, hnonneg⟩ := change_eq hzero hchange
    have hrest : r.change = d.totalAmount inputs - d.asked inputs amount := hrest
    have hif : (if 0 < r.change then r.change else 0) = r.change := by
      split <;> omega
    have hpaid : ((d.filtered inputs).map d.value).sum - (r.amount + r.change) =
        rounded ((d.filtered inputs).map d.inputFee) + (g (d.asked inputs amount)).satoshis := by
      omega
    have hmain : g r.amount = d.mainFee g inputs amount := by rw [hamount, Direction.mainFee]
    have hchanged : changeFee h r.change = d.changeFee h inputs amount := by
      rw [hrest, Direction.changeFee]
    rw [Ramped.fees, hif, hpaid, hinputs, hmain, hchanged]
    constructor
    · rintro ⟨henough, hmost⟩
      exact ⟨hzero, henough, by omega⟩
    · rintro ⟨-, henough, hmost⟩
      exact ⟨henough, by omega⟩

variable {e : Estimator}

theorem sum_amounts (r : Ramped ι) (destination changeAddress : Address) :
    ((r.outputs destination changeAddress).map (·.amount)).sum =
      r.amount + if 0 < r.change then r.change else 0 := by
  rw [Ramped.outputs]
  split <;> simp

def sortedFees (e : Estimator) (outputs : List Output) : List FeeAmount :=
  (outputs.filterMap Output.offchain?).map e.evalOffchainOutput ++
    (outputs.filterMap Output.onchain?).map e.evalOnchainOutput

theorem sortedFees_onboard (r : Ramped ι) (pkScript script : String) :
    sortedFees e (r.outputs (.ark pkScript) (.onchain script)) =
      outputFees true (e.evalOffchainOutput ⟨r.amount, pkScript⟩)
        (changeFee (fun change ↦ e.evalOnchainOutput ⟨change, script⟩) r.change) := by
  unfold Ramped.outputs changeFee
  split <;> simp [sortedFees, outputFees, List.filterMap_cons, Output.offchain?, Output.onchain?]

theorem sortedFees_offboard (r : Ramped ι) (script pkScript : String) :
    sortedFees e (r.outputs (.onchain script) (.ark pkScript)) =
      outputFees false (e.evalOnchainOutput ⟨r.amount, script⟩)
        (changeFee (fun change ↦ e.evalOffchainOutput ⟨change, pkScript⟩) r.change) := by
  unfold Ramped.outputs changeFee
  split <;> simp [sortedFees, outputFees, List.filterMap_cons, Output.offchain?, Output.onchain?]

theorem rounded_sortedFees (outputs : List Output) :
    rounded (outputs.map (Output.fee e)) = rounded (sortedFees e outputs) := by
  induction outputs with
  | nil => rfl
  | cons output outputs ih =>
    obtain ⟨address, amount⟩ := output
    rw [sortedFees, rounded_append] at ih ⊢
    rw [List.map_cons, rounded, List.map_cons, List.sum_cons, ← rounded, ih]
    cases address with
    | ark pkScript =>
      simp [List.filterMap_cons, Output.offchain?, Output.onchain?, Output.fee, rounded]
      omega
    | onchain script =>
      simp [List.filterMap_cons, Output.offchain?, Output.onchain?, Output.fee, rounded]
      omega
    | other text =>
      simp [List.filterMap_cons, Output.offchain?, Output.onchain?, Output.fee, rounded,
        FeeAmount.satoshis, FeeAmount.ZERO]

theorem settled_covers_iff {mainFirst : Bool} {destination changeAddress : Address}
    (hsorted : sortedFees e (r.outputs destination changeAddress) =
      outputFees mainFirst (g r.amount) (changeFee h r.change))
    (hg : d.outputFee = .ok g) (hr : ramp d inputs amount = .ok r) :
    Covers ((r.inputs.map d.value).sum -
          ((r.outputs destination changeAddress).map (·.amount)).sum)
        (.total (r.inputs.map d.inputFee ++ sortedFees e (r.outputs destination changeAddress)))
        (r.inputs.map d.inputFee ++ (r.outputs destination changeAddress).map (Output.fee e)) ↔
      d.Charged mainFirst g h inputs amount := by
  have hfees : r.inputs.map d.inputFee ++ sortedFees e (r.outputs destination changeAddress) =
      r.fees d mainFirst g h := by
    rw [hsorted, Ramped.fees]
  have hparts : rounded (r.inputs.map d.inputFee ++
      (r.outputs destination changeAddress).map (Output.fee e)) =
        rounded (r.fees d mainFirst g h) := by
    rw [← hfees, rounded_append, rounded_append, rounded_sortedFees]
  rw [← ramp_covers_iff mainFirst hg hr, sum_amounts, hfees, Covers, Covers, hparts]

/-- What a ramp settles covers the operator's fee up to rounding when the fee is charged for what
the outputs become. -/
theorem ramps_covered_iff (wallet : Wallet) (e : Estimator) :
    (∀ boardingUtxos amount params, onboard wallet e boardingUtxos amount = .ok params →
      (onboardCovered e params ↔ (onboarding e wallet).Charged true
        (fun amount ↦ e.evalOffchainOutput ⟨amount, wallet.pkScript⟩)
        (fun change ↦ e.evalOnchainOutput ⟨change, wallet.boardingScript⟩)
        (boardingUtxos.getD wallet.boardingUtxos) amount)) ∧
    ∀ destination amount params, offboard wallet destination e amount = .ok params →
      ∃ script, destination = .onchain script ∧
        (offboardCovered e params ↔ (offboarding e wallet destination).Charged false
          (fun amount ↦ e.evalOnchainOutput ⟨amount, script⟩)
          (fun change ↦ e.evalOffchainOutput ⟨change, wallet.pkScript⟩)
          wallet.spendableVtxos amount) := by
  constructor
  · intro boardingUtxos amount params h
    obtain ⟨r, hr, h⟩ := bind_ok.mp h
    cases h
    have hsorted := @sortedFees_onboard _ e r wallet.pkScript wallet.boardingScript
    rw [onboardCovered, evaluate_eq, List.map_nil, List.nil_append, List.append_assoc, List.map_map]
    exact @settled_covers_iff _ (onboarding e wallet) _ _ _ _ _ e true _ _ hsorted rfl hr
  · intro destination amount params h
    obtain ⟨r, hr, h⟩ := bind_ok.mp h
    cases h
    obtain ⟨script, rfl⟩ : ∃ script, destination = .onchain script := by
      obtain ⟨-, hr⟩ := then_ok.mp hr
      obtain ⟨change, -, hr⟩ := bind_ok.mp hr
      obtain ⟨-, hr⟩ := then_ok.mp hr
      obtain ⟨g, hg, -⟩ := bind_ok.mp hr
      obtain ⟨script, hscript, -⟩ := bind_ok.mp hg
      cases destination with
      | onchain script => exact ⟨script, rfl⟩
      | ark pkScript => cases hscript
      | other text => cases hscript
    refine ⟨script, rfl, ?_⟩
    have hsorted := @sortedFees_offboard _ e r script wallet.pkScript
    rw [offboardCovered, evaluate_eq, List.map_nil, List.append_nil, List.append_assoc,
      List.map_map]
    exact @settled_covers_iff _ (offboarding e wallet (.onchain script)) _ _ _ _ _ e false _ _
      hsorted rfl hr

def sampleWallet : Wallet where
  boardingUtxos := [⟨"a", 0, 10000⟩]
  spendableVtxos := []
  pkScript := "5120aa"
  boardingScript := "5120bb"
  dustAmount := 330

def onchainOutputFee : Estimator := ⟨none, none, none, some fun _ ↦ .ofRat 100⟩

/-- Of ten thousand, six thousand are onboarded: the fee of the change is not left. -/
theorem change_fee_unpaid : ∃ params,
    onboard sampleWallet onchainOutputFee none (some 6000) = .ok params ∧
    params.outputs = [⟨.ark "5120aa", 6000⟩, ⟨.onchain "5120bb", 4000⟩] ∧
    params.paid (·.value) = 0 ∧ ¬onboardCovered onchainOutputFee params := by
  refine ⟨⟨[⟨"a", 0, 10000⟩], [⟨.ark "5120aa", 6000⟩, ⟨.onchain "5120bb", 4000⟩]⟩, ?_, rfl, rfl, ?_⟩
  · rfl
  · rintro ⟨hcovers, -⟩
    revert hcovers
    decide +kernel

theorem whole_amount_covered : ∃ params,
    onboard sampleWallet onchainOutputFee none none = .ok params ∧
      onboardCovered onchainOutputFee params := by
  refine ⟨_, rfl, ((ramps_covered_iff sampleWallet onchainOutputFee).1 none none _ rfl).mpr ?_⟩
  refine ⟨nofun, ?_, ?_⟩
  · decide +kernel
  · decide +kernel

end ArkadeSdk.Ramps
