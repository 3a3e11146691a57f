import ArkadeSdk.Lib.BtcTransaction
import ArkadeSdk.Wallet.TxSizeEstimator

/-! The transaction that the calls of an estimator describe, and its size once it is signed. -/

namespace ArkadeSdk.TxWeightEstimator

open WireFormat BtcTransaction

/-- A key spend with the default sighash has a signature of 64 bytes. -/
inductive Call
  | addKeySpendInput (outpoint : OutPoint) (sequence : ℕ)
      (signature : { bs : Bytes // bs.length = 64 })
  | addP2AInput (outpoint : OutPoint) (sequence : ℕ)
  | addOutputScript (amount : ℕ) (script : Bytes)

namespace Call

def apply (e : TxWeightEstimator) : Call → TxWeightEstimator
  | addKeySpendInput _ _ _ => e.addKeySpendInput
  | addP2AInput _ _ => e.addP2AInput
  | addOutputScript _ script => e.addOutputScript script.length

def input? : Call → Option Input
  | addKeySpendInput outpoint sequence signature => some ⟨outpoint, sequence, [signature.val]⟩
  | addP2AInput outpoint sequence => some ⟨outpoint, sequence, []⟩
  | addOutputScript _ _ => none

def output? : Call → Option Output
  | addKeySpendInput _ _ _ => none
  | addP2AInput _ _ => none
  | addOutputScript amount script => some ⟨amount, script⟩

def isKeySpend : Call → Bool
  | addKeySpendInput _ _ _ => true
  | addP2AInput _ _ => false
  | addOutputScript _ _ => false

def isP2A : Call → Bool
  | addKeySpendInput _ _ _ => false
  | addP2AInput _ _ => true
  | addOutputScript _ _ => false

end Call

def estimate (calls : List Call) : TxWeightEstimator := calls.foldl Call.apply create

/-- `vsize().fee(feeRate)` -/
def fee (e : TxWeightEstimator) (feeRate : ℕ) : ℕ := feeRate * e.vsize

def signed (version lockTime : ℕ) (calls : List Call) : Transaction :=
  ⟨version, calls.filterMap Call.input?, calls.filterMap Call.output?, lockTime⟩

theorem getVarIntSize_eq (n : ℕ) : getVarIntSize n = (compactSize n).length := by
  rw [getVarIntSize, compactSize]
  split_ifs <;> simp

variable (version lockTime : ℕ) (calls : List Call)

def outputBytes : ℕ :=
  ((calls.filterMap Call.output?).map fun output ↦ output.serialize.length).sum

theorem foldl_apply (e : TxWeightEstimator) :
    calls.foldl Call.apply e =
      { hasWitness := e.hasWitness || calls.any Call.isKeySpend
        inputCount := e.inputCount + (calls.filterMap Call.input?).length
        outputCount := e.outputCount + (calls.filterMap Call.output?).length
        inputSize := e.inputSize + 41 * (calls.filterMap Call.input?).length
        inputWitnessSize := e.inputWitnessSize + 65 * calls.countP Call.isKeySpend
        outputSize := e.outputSize + outputBytes calls } := by
  induction calls generalizing e with
  | nil => simp [outputBytes]
  | cons call calls ih =>
    rw [List.foldl_cons, ih]
    cases call with
    | addKeySpendInput outpoint sequence signature =>
      simp [Call.apply, TxWeightEstimator.addKeySpendInput, Call.input?, Call.output?,
        Call.isKeySpend, outputBytes, INPUT_SIZE,
        List.filterMap_cons, List.countP_cons]
      omega
    | addP2AInput outpoint sequence =>
      simp [Call.apply, TxWeightEstimator.addP2AInput, Call.input?, Call.output?,
        Call.isKeySpend, outputBytes, INPUT_SIZE,
        List.filterMap_cons]
      omega
    | addOutputScript amount script =>
      simp [Call.apply, TxWeightEstimator.addOutputScript, Call.input?, Call.output?,
        Call.isKeySpend, outputBytes, Output.length_serialize, getVarIntSize_eq,
        List.filterMap_cons]
      omega

theorem estimate_weight : (estimate calls).weight =
    4 * (10 + (signed version lockTime calls).body.length) +
      if calls.any Call.isKeySpend then 2 + 65 * calls.countP Call.isKeySpend else 0 := by
  rw [estimate, foldl_apply, Transaction.length_body]
  simp [weight, create, signed, outputBytes, getVarIntSize_eq, BASE_TX_SIZE, WITNESS_SCALE_FACTOR,
    WITNESS_HEADER_SIZE]
  omega

theorem hasWitness_signed :
    (signed version lockTime calls).hasWitness = calls.any Call.isKeySpend := by
  induction calls with
  | nil => rfl
  | cons call calls ih =>
    rw [Transaction.hasWitness, signed] at ih ⊢
    cases call with
    | addKeySpendInput outpoint sequence signature => simp [Call.input?, Call.isKeySpend]
    | addP2AInput outpoint sequence => simpa [Call.input?, Call.isKeySpend] using ih
    | addOutputScript amount script => simpa [Call.input?, Call.isKeySpend] using ih

theorem length_keySpend_witness (signature : { bs : Bytes // bs.length = 64 }) :
    (vector slice [signature.val]).length = 66 := by
  simp [vector, slice, compactSize, signature.property]

theorem length_witnesses_signed : (signed version lockTime calls).witnesses.length =
    66 * calls.countP Call.isKeySpend + calls.countP Call.isP2A := by
  change ((calls.filterMap Call.input?).flatMap fun input ↦ vector slice input.witness).length = _
  induction calls with
  | nil => rfl
  | cons call calls ih =>
    cases call with
    | addKeySpendInput outpoint sequence signature =>
      simp only [List.filterMap_cons, Call.input?, List.flatMap_cons, List.length_append]
      rw [length_keySpend_witness, ih]
      simp only [List.countP_cons, Call.isKeySpend, Call.isP2A, ite_true, Bool.false_eq_true,
        ite_false]
      omega
    | addP2AInput outpoint sequence =>
      have hcount : (vector slice []).length = 1 := rfl
      simp only [List.filterMap_cons, Call.input?, List.flatMap_cons, List.length_append]
      rw [hcount, ih]
      simp only [List.countP_cons, Call.isKeySpend, Call.isP2A, ite_true, Bool.false_eq_true,
        ite_false]
      omega
    | addOutputScript amount script =>
      simpa [List.filterMap_cons, List.countP_cons, Call.input?, Call.isKeySpend, Call.isP2A]
        using ih

/-- Two bytes too many weigh eight; a key spend counts for one less than its witness, and so does a
keyless input beside it. -/
theorem weight_signed : (signed version lockTime calls).weight + 8 =
    (estimate calls).weight + if calls.any Call.isKeySpend then
      calls.countP Call.isKeySpend + calls.countP Call.isP2A else 0 := by
  rw [Transaction.weight_eq, hasWitness_signed, length_witnesses_signed,
    estimate_weight version lockTime]
  split <;> omega

/-- The estimate covers the signed transaction when there is no key spend or the inputs are few: up
to eight, and as many as rounding the estimate up to whole bytes adds to its weight, of which
`1 + 2k + p` is what counts modulo four. -/
theorem vsize_covers_iff :
    ((signed version lockTime calls).vsize ≤ (estimate calls).vsize ∧
      ∀ feeRate, feeRate * (signed version lockTime calls).vsize ≤
        (estimate calls).fee feeRate) ↔
      calls.countP Call.isKeySpend = 0 ∨
        calls.countP Call.isKeySpend + calls.countP Call.isP2A ≤
          8 + (1 + 2 * calls.countP Call.isKeySpend + calls.countP Call.isP2A) % 4 := by
  have hsigned := weight_signed version lockTime calls
  have hweight := estimate_weight version lockTime calls
  have hkeySpend : calls.any Call.isKeySpend = true ↔ calls.countP Call.isKeySpend ≠ 0 := by
    rw [← Nat.pos_iff_ne_zero, List.countP_pos_iff, List.any_eq_true]
  have hfee : (∀ feeRate, feeRate * (signed version lockTime calls).vsize ≤
      (estimate calls).fee feeRate) ↔
        (signed version lockTime calls).vsize ≤ (estimate calls).vsize := by
    refine ⟨fun h ↦ by simpa [fee] using h 1, fun h feeRate ↦ Nat.mul_le_mul_left feeRate h⟩
  rw [hfee, and_self, vsize, Transaction.vsize, WITNESS_SCALE_FACTOR]
  by_cases hany : calls.any Call.isKeySpend = true
  · have := hkeySpend.mp hany
    rw [if_pos hany] at hsigned hweight
    omega
  · have := hkeySpend.not.mp hany
    rw [if_neg hany] at hsigned hweight
    omega

def anchorChild : List Call :=
  .addP2AInput ⟨⟨List.replicate 32 1, rfl⟩, 1⟩ 0xffffffff ::
    (List.replicate 9 (Call.addKeySpendInput ⟨⟨List.replicate 32 2, rfl⟩, 0⟩ 0xffffffff
      ⟨List.replicate 64 3, rfl⟩) ++ [Call.addOutputScript 1000 (0x51 :: 0x20 :: List.replicate 32 4)])

/-- Its fee is that of 612 virtual bytes, where the signed transaction has 613. -/
theorem anchorChild_underestimated : (estimate anchorChild).vsize = 612 ∧
    (signed 3 0 anchorChild).vsize = 613 ∧
    (estimate anchorChild).fee 1 < 1 * (signed 3 0 anchorChild).vsize := by
  decide +kernel

end ArkadeSdk.TxWeightEstimator
