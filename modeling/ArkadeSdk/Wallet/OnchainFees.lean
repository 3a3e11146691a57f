import ArkadeSdk.Wallet.Onchain
import Mathlib.Data.List.Chain
import Mathlib.Tactic.Linarith

/-! How the fee of an onchain payment is found, and what the payment then pays. -/

namespace ArkadeSdk.Onchain

open WireFormat JsNumber

variable {coins : List Coin} {target target' : ℤ}

theorem takeCoins_isPrefix (h : target ≤ target') (start : ℤ) (coins : List Coin) :
    takeCoins (target ≤ ·) start coins <+: takeCoins (target' ≤ ·) start coins := by
  induction coins generalizing start with
  | nil => exact List.prefix_refl _
  | cons coin coins ih =>
    simp only [takeCoins, decide_eq_true_eq]
    by_cases hreached : target ≤ start + coin.value
    · rw [if_pos hreached]
      split
      · exact List.prefix_refl _
      · exact List.prefix_append [coin] _
    · rw [if_neg hreached, if_neg (by omega)]
      exact (List.prefix_cons_inj coin).mpr (ih _)

theorem selectCoins_ok {selected : Selection} (hpos : 0 < target)
    (h : selectCoins coins target false = .ok selected) :
    selected.inputs = takeCoins (target ≤ ·) 0 (coins.insertionSort larger) ∧
      totalValue selected.inputs = target + selected.changeAmount ∧ 0 ≤ selected.changeAmount := by
  rw [selectCoins, if_neg (by omega), if_neg (by omega)] at h
  simp only [Bool.false_eq_true, if_false] at h
  split at h
  · next htotal =>
    cases h
    exact ⟨rfl, by simpa using htotal, le_rfl⟩
  · split at h
    · cases h
    · cases h
      exact ⟨rfl, by simp, by simpa using not_lt.mp ‹_›⟩

theorem selectCoins_error {error : Message} (hpos : 0 < target)
    (h : selectCoins coins target false = .error error) : error = insufficientFunds := by
  rw [selectCoins, if_neg (by omega), if_neg (by omega)] at h
  simp only [Bool.false_eq_true, if_false] at h
  split at h
  · cases h
  · split at h
    · exact (Except.error.inj h).symm
    · cases h

theorem getVarIntSize_mono {n m : ℕ} (h : n ≤ m) : getVarIntSize n ≤ getVarIntSize m := by
  unfold getVarIntSize
  split_ifs <;> omega

theorem foldl_addKeySpendInput (inputs : List Coin) (e : TxWeightEstimator) :
    inputs.foldl (fun e _ ↦ e.addKeySpendInput) e =
      { e with
        hasWitness := e.hasWitness || !inputs.isEmpty
        inputCount := e.inputCount + inputs.length
        inputSize := e.inputSize + 41 * inputs.length
        inputWitnessSize := e.inputWitnessSize + 65 * inputs.length } := by
  induction inputs generalizing e with
  | nil => simp
  | cons coin inputs ih =>
    rw [List.foldl_cons, ih]
    simp only [TxWeightEstimator.addKeySpendInput, TxWeightEstimator.INPUT_SIZE, List.length_cons,
      Bool.true_or, List.isEmpty_cons, Bool.not_false, Bool.or_true]
    congr 1 <;> omega

namespace OnchainWallet

variable {self : OnchainWallet} {feeRate : ℚ} {recipient : Bytes} {amount : ℤ}

theorem vsize_eq (inputs : List Coin) (withChange : Bool) : self.vsize inputs recipient withChange =
    (4 * (11 + getVarIntSize inputs.length + 41 * inputs.length +
      (8 + getVarIntSize recipient.length + recipient.length) + if withChange then 43 else 0) +
      (if inputs = [] then 0 else 2 + 65 * inputs.length) + 3) / 4 := by
  have hscript := self.script.property
  have hwitness : (!inputs.isEmpty) = true ↔ inputs ≠ [] := by cases inputs <;> simp
  have hone : getVarIntSize 1 = 1 := rfl
  have htwo : getVarIntSize (1 + 1) = 1 := rfl
  have hlength : getVarIntSize 34 = 1 := rfl
  rw [vsize, foldl_addKeySpendInput]
  cases withChange with
  | true =>
    simp only [TxWeightEstimator.create, TxWeightEstimator.addOutputScript, hscript, if_true,
      TxWeightEstimator.vsize, TxWeightEstimator.weight, TxWeightEstimator.BASE_TX_SIZE,
      TxWeightEstimator.WITNESS_SCALE_FACTOR, TxWeightEstimator.WITNESS_HEADER_SIZE,
      Bool.false_or, hwitness, Nat.zero_add, htwo, hlength, ite_not]
    split <;> omega
  | false =>
    simp only [TxWeightEstimator.create, TxWeightEstimator.addOutputScript, Bool.false_eq_true,
      if_false, TxWeightEstimator.vsize, TxWeightEstimator.weight, TxWeightEstimator.BASE_TX_SIZE,
      TxWeightEstimator.WITNESS_SCALE_FACTOR, TxWeightEstimator.WITNESS_HEADER_SIZE,
      Bool.false_or, hwitness, Nat.zero_add, hone, ite_not]
    split <;> omega

theorem vsize_pos (inputs : List Coin) (withChange : Bool) :
    0 < self.vsize inputs recipient withChange := by
  rw [vsize_eq]
  omega

theorem vsize_le_withChange (inputs : List Coin) (withChange : Bool) :
    self.vsize inputs recipient withChange ≤ self.vsize inputs recipient true := by
  rw [vsize_eq, vsize_eq]
  cases withChange with
  | true => rfl
  | false =>
    simp only [Bool.false_eq_true, if_false, if_true]
    omega

theorem vsize_lt {inputs inputs' : List Coin} (h : inputs.length < inputs'.length)
    (withChange withChange' : Bool) :
    self.vsize inputs recipient withChange < self.vsize inputs' recipient withChange' := by
  have hcount := getVarIntSize_mono h.le
  have hne : inputs' ≠ [] := by
    rintro rfl
    exact absurd h (Nat.not_lt_zero _)
  have hchange : (if withChange = true then 43 else 0) ≤ 43 := by split <;> omega
  have hwitness : (if inputs = [] then 0 else 2 + 65 * inputs.length) ≤ 2 + 65 * inputs.length := by
    split <;> omega
  rw [vsize_eq, vsize_eq, if_neg hne]
  omega

theorem newFee_mono (hrate : 1 ≤ feeRate) {inputs inputs' : List Coin} {c c' : Bool}
    (h : self.vsize inputs recipient c ≤ self.vsize inputs' recipient c') :
    self.newFee feeRate recipient inputs c ≤ self.newFee feeRate recipient inputs' c' := by
  have hsize : (self.vsize inputs recipient c : ℚ) ≤ self.vsize inputs' recipient c' := by
    exact_mod_cast h
  exact Int.ceil_le_ceil (Double.ofRat_mono (by positivity)
    (mul_le_mul_of_nonneg_right hsize (by linarith)))

/-- The rounding of the product takes one part in `2 ^ 53` at most. -/
theorem product_le_newFee (hrate : 1 ≤ feeRate) (inputs : List Coin) (c : Bool) :
    (self.vsize inputs recipient c : ℚ) * feeRate * (1 - 1 / 2 ^ 53) ≤
      self.newFee feeRate recipient inputs c :=
  (Double.ofRat_bounds (by positivity)).1.trans (Int.le_ceil _)

theorem newFee_pos (hrate : 1 ≤ feeRate) (inputs : List Coin) (c : Bool) :
    0 < self.newFee feeRate recipient inputs c := by
  have hsize : (0 : ℚ) < self.vsize inputs recipient c := by exact_mod_cast vsize_pos inputs c
  have hexact : 0 < (self.vsize inputs recipient c : ℚ) * feeRate * (1 - 1 / 2 ^ 53) :=
    mul_pos (mul_pos hsize (by linarith)) (by norm_num)
  exact_mod_cast hexact.trans_le (product_le_newFee hrate inputs c)

variable {rounds : ℕ} {fee start : ℤ} {prev selected : Selection}

/-- A fee, and the selection of the round that it comes from, whose own fee was lower. -/
structure Reached (wallet : OnchainWallet) (coins : List Coin) (amount : ℤ) (feeRate : ℚ)
    (recipient : Bytes) (prev : Selection) (start fee : ℤ) : Prop where
  selected : selectCoins coins (amount + start) false = .ok prev
  fee_eq : fee = wallet.newFee feeRate recipient prev.inputs prev.hasChange
  start_nonneg : 0 ≤ start
  lower : start < fee

theorem Reached.inputs_eq (h : Reached self coins amount feeRate recipient prev start fee)
    (hamount : 0 < amount) (hselected : selectCoins coins (amount + fee) false = .ok selected) :
    prev.inputs.length < selected.inputs.length ∨ selected.inputs = prev.inputs := by
  have hstart := h.start_nonneg
  have hlower := h.lower
  obtain ⟨hprev, -, -⟩ := selectCoins_ok (by omega) h.selected
  obtain ⟨hinputs, -, -⟩ := selectCoins_ok (by omega) hselected
  have hstart := @takeCoins_isPrefix (amount + start) (amount + fee) (by omega) 0
    (coins.insertionSort larger)
  rw [← hprev, ← hinputs] at hstart
  rcases hstart.length_le.lt_or_eq with hlt | heq
  · exact .inl hlt
  · exact .inr (hstart.eq_of_length heq).symm

theorem Reached.change_lt (h : Reached self coins amount feeRate recipient prev start fee)
    (hamount : 0 < amount) (hselected : selectCoins coins (amount + fee) false = .ok selected)
    (hinputs : selected.inputs = prev.inputs) : selected.changeAmount < prev.changeAmount := by
  have hstart := h.start_nonneg
  have hlower := h.lower
  obtain ⟨-, hprev, -⟩ := selectCoins_ok (by omega) h.selected
  obtain ⟨-, htotal, -⟩ := selectCoins_ok (by omega) hselected
  rw [hinputs] at htotal
  omega

/-- Where a round takes no more coins, the change of the one before pays for it. -/
theorem Reached.newFee_le (h : Reached self coins amount feeRate recipient prev start fee)
    (hamount : 0 < amount) (hrate : 1 ≤ feeRate)
    (hselected : selectCoins coins (amount + fee) false = .ok selected)
    (hinputs : selected.inputs = prev.inputs) :
    self.newFee feeRate recipient selected.inputs selected.hasChange ≤ fee := by
  have hchange := h.change_lt hamount hselected hinputs
  rw [h.fee_eq, hinputs]
  refine newFee_mono hrate ?_
  cases hprev : prev.hasChange with
  | true => exact vsize_le_withChange _ _
  | false =>
    have hnone : selected.hasChange = false := by
      simp only [Selection.hasChange, decide_eq_false_iff_not] at hprev ⊢
      omega
    rw [hnone]

theorem Reached.le_newFee (h : Reached self coins amount feeRate recipient prev start fee)
    (hrate : 1 ≤ feeRate) (hmore : prev.inputs.length < selected.inputs.length)
    (withChange : Bool) : fee ≤ self.newFee feeRate recipient selected.inputs withChange := by
  rw [h.fee_eq]
  exact newFee_mono hrate (vsize_lt hmore _ _).le

def Payment.paid (payment : Payment) : ℤ :=
  totalValue payment.inputs - (payment.outputs.map (·.2)).sum

def Payment.vsize (payment : Payment) : ℕ :=
  (payment.outputs.foldl (fun e output ↦ e.addOutputScript output.1.length)
    (payment.inputs.foldl (fun e _ ↦ e.addKeySpendInput) TxWeightEstimator.create)).vsize

theorem vsize_payment (amount : ℤ) (recipient : Bytes) (inputs : List Coin) (changeAmount : ℤ) :
    (self.payment amount recipient inputs changeAmount).vsize =
      self.vsize inputs recipient (DUST_AMOUNT ≤ changeAmount) := by
  rw [payment, Payment.vsize, OnchainWallet.vsize]
  by_cases hchange : DUST_AMOUNT ≤ changeAmount
  · simp [hchange]
  · simp [hchange]

theorem paid_payment (amount : ℤ) (recipient : Bytes) (inputs : List Coin) (changeAmount : ℤ) :
    (self.payment amount recipient inputs changeAmount).paid =
      totalValue inputs - amount - if DUST_AMOUNT ≤ changeAmount then changeAmount else 0 := by
  rw [payment, Payment.paid]
  split
  · simp only [List.map_cons, List.map_nil, List.sum_cons, List.sum_nil]
    omega
  · simp

/-- The fee of a payment is that of its size at the rate, short of it by one part in `2 ^ 53` at
most. It is paid: to the satoshi with a change output, and otherwise with less than a change output
and its fee to spare. -/
def Paid (self : OnchainWallet) (amount : ℤ) (feeRate : ℚ) (recipient : Bytes) (e : Estimate) :
    Prop :=
  let payment := self.payment amount recipient e.inputs e.changeAmount
  e.fee = ⌈Double.ofRat (payment.vsize * feeRate)⌉ ∧
    payment.vsize * feeRate * (1 - 1 / 2 ^ 53) ≤ e.fee ∧ e.fee ≤ payment.paid ∧
    if DUST_AMOUNT ≤ e.changeAmount then payment.paid = e.fee
    else payment.paid < self.newFee feeRate recipient e.inputs true + DUST_AMOUNT

/-- A round ends the search when the fee from the round before suffices for its own payment. -/
theorem Reached.paid (h : Reached self coins amount feeRate recipient prev start fee)
    (hamount : 0 < amount) (hrate : 1 ≤ feeRate)
    (hselected : selectCoins coins (amount + fee) false = .ok selected)
    (hle : self.newFee feeRate recipient selected.inputs selected.hasChange ≤ fee) :
    Paid self amount feeRate recipient ⟨selected.inputs, selected.changeAmount,
      self.newFee feeRate recipient selected.inputs selected.hasChange⟩ := by
  have hstart := h.start_nonneg
  have hlower := h.lower
  obtain ⟨-, htotal, hnonneg⟩ := selectCoins_ok (by omega) hselected
  have hexact : (self.vsize selected.inputs recipient selected.hasChange : ℚ) * feeRate *
      (1 - 1 / 2 ^ 53) ≤ self.newFee feeRate recipient selected.inputs selected.hasChange :=
    product_le_newFee hrate _ _
  have hmost : fee ≤ self.newFee feeRate recipient selected.inputs true := by
    rcases h.inputs_eq hamount hselected with hmore | hinputs
    · exact h.le_newFee hrate hmore true
    · rw [h.fee_eq, hinputs]
      exact newFee_mono hrate (vsize_le_withChange _ _)
  rw [Paid]
  dsimp only
  rw [vsize_payment, paid_payment]
  by_cases hdust : DUST_AMOUNT ≤ selected.changeAmount
  · have hchange : selected.hasChange = true := decide_eq_true hdust
    have hsame : self.newFee feeRate recipient selected.inputs selected.hasChange = fee :=
      le_antisymm hle (hchange ▸ hmost)
    rw [if_pos hdust, if_pos hdust]
    exact ⟨rfl, hexact, by omega, by omega⟩
  · rw [if_neg hdust, if_neg hdust]
    exact ⟨rfl, hexact, by omega, by omega⟩

def coinCounts (self : OnchainWallet) (coins : List Coin) (amount : ℤ) (feeRate : ℚ)
    (recipient : Bytes) : ℕ → ℤ → List ℕ
  | 0, _ => []
  | rounds + 1, fee =>
    match selectCoins coins (amount + fee) false with
    | .error _ => []
    | .ok selected =>
      let roundedNewFee := self.newFee feeRate recipient selected.inputs selected.hasChange
      selected.inputs.length :: if roundedNewFee ≤ fee then []
        else coinCounts self coins amount feeRate recipient rounds roundedNewFee

/-- The rounds from a fee on either end in a payment that pays its fee, or the coins do not suffice,
or every round takes more coins than the one before. -/
theorem Reached.estimateFrom (h : Reached self coins amount feeRate recipient prev start fee)
    (hamount : 0 < amount) (hrate : 1 ≤ feeRate) (rounds : ℕ) :
    match self.estimateFrom coins amount feeRate recipient rounds fee with
    | .ok e => Paid self amount feeRate recipient e
    | .error error => error = insufficientFunds ∨ error = couldNotConverge ∧
        (coinCounts self coins amount feeRate recipient rounds fee).length = rounds ∧
        (prev.inputs.length ::
          coinCounts self coins amount feeRate recipient rounds fee).IsChain (· < ·) := by
  induction rounds generalizing prev start fee with
  | zero => exact .inr ⟨rfl, rfl, .singleton _⟩
  | succ rounds ih =>
    have hstart := h.start_nonneg
    have hlower := h.lower
    rw [OnchainWallet.estimateFrom, coinCounts]
    cases hselected : selectCoins coins (amount + fee) false with
    | error error => exact .inl (selectCoins_error (by omega) hselected)
    | ok selected =>
      dsimp only
      by_cases hle : self.newFee feeRate recipient selected.inputs selected.hasChange ≤ fee
      · rw [if_pos hle]
        exact h.paid hamount hrate hselected hle
      · have hnext : Reached self coins amount feeRate recipient selected fee
            (self.newFee feeRate recipient selected.inputs selected.hasChange) :=
          ⟨hselected, rfl, by omega, not_le.mp hle⟩
        have hmore := (h.inputs_eq hamount hselected).resolve_right fun hinputs ↦
          hle (h.newFee_le hamount hrate hselected hinputs)
        have hrest := ih hnext
        rw [if_neg hle, if_neg hle]
        split at hrest
        · exact hrest
        · rcases hrest with herror | ⟨herror, hlength, hchain⟩
          · exact .inl herror
          · refine .inr ⟨herror, congrArg Nat.succ hlength, ?_⟩
            exact .cons_cons hmore hchain

/-- The search returns a payment that pays its fee, or says that the coins do not suffice, or gives
up after ten rounds each of which took more coins than the one before. -/
def Resolves (self : OnchainWallet) (coins : List Coin) (amount : ℤ) (feeRate : ℚ)
    (recipient : Bytes) : Prop :=
  match self.estimateFeesAndSelectCoins coins amount feeRate recipient with
  | .ok e => Paid self amount feeRate recipient e
  | .error error => error = insufficientFunds ∨ error = couldNotConverge ∧
      (coinCounts self coins amount feeRate recipient MAX_ITERATIONS 0).length = MAX_ITERATIONS ∧
      (coinCounts self coins amount feeRate recipient MAX_ITERATIONS 0).IsChain (· < ·)

theorem estimateFeesAndSelectCoins_resolves (self : OnchainWallet) {coins : List Coin} {amount : ℤ}
    {feeRate : ℚ} (recipient : Bytes) (hamount : DUST_AMOUNT ≤ amount) (hrate : 1 ≤ feeRate) :
    self.Resolves coins amount feeRate recipient := by
  have hamount : 0 < amount := lt_of_lt_of_le (by decide) hamount
  rw [Resolves, estimateFeesAndSelectCoins, MAX_ITERATIONS, OnchainWallet.estimateFrom, coinCounts]
  cases hselected : selectCoins coins (amount + 0) false with
  | error error => exact .inl (selectCoins_error (by omega) hselected)
  | ok selected =>
    have hpos : ¬self.newFee feeRate recipient selected.inputs selected.hasChange ≤ 0 :=
      not_le.mpr (newFee_pos hrate _ _)
    have hfirst : Reached self coins amount feeRate recipient selected 0
        (self.newFee feeRate recipient selected.inputs selected.hasChange) :=
      ⟨hselected, rfl, le_rfl, newFee_pos hrate _ _⟩
    have hrest := hfirst.estimateFrom hamount hrate 9
    dsimp only
    rw [if_neg hpos, if_neg hpos]
    split at hrest
    · exact hrest
    · rcases hrest with herror | ⟨herror, hlength, hchain⟩
      · exact .inl herror
      · exact .inr ⟨herror, congrArg Nat.succ hlength, hchain⟩

end OnchainWallet

def sampleWallet : OnchainWallet := ⟨⟨0x51 :: 0x20 :: List.replicate 32 1, rfl⟩, [], none⟩

def sampleRecipient : Bytes := 0x51 :: 0x20 :: List.replicate 32 2

/-- Thirty coins that are each worth little more than they cost; and a coin whose change falls below
the dust limit once it has to pay for itself. -/
theorem gives_up_and_overpays :
    sampleWallet.estimateFeesAndSelectCoins (List.replicate 30 ⟨"a", 0, 600⟩) 1000 10
        sampleRecipient = .error OnchainWallet.couldNotConverge ∧
      sampleWallet.estimateFeesAndSelectCoins [⟨"a", 0, 25600⟩] 10000 100 sampleRecipient =
        .ok ⟨[⟨"a", 0, 25600⟩], 0, 11300⟩ ∧
      11300 + DUST_AMOUNT ≤
        (sampleWallet.payment 10000 sampleRecipient [⟨"a", 0, 25600⟩] 0).paid := by
  decide +kernel

/-- The double of 1.6. -/
def sampleRate : ℚ := 3602879701896397 / 2251799813685248

theorem one_coin_resolves :
    sampleWallet.Resolves [⟨"a", 0, 100000⟩] 10000 sampleRate sampleRecipient :=
  sampleWallet.estimateFeesAndSelectCoins_resolves sampleRecipient (by decide)
    (by rw [sampleRate]; norm_num)

end ArkadeSdk.Onchain
