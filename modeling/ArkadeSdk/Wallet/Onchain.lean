import ArkadeSdk.Lib.Double
import ArkadeSdk.Lib.JsNumber
import ArkadeSdk.Lib.WireFormat
import ArkadeSdk.Wallet.TxSizeEstimator
import Mathlib.Algebra.BigOperators.Group.List.Basic
import Mathlib.Algebra.Order.Ring.Int
import Mathlib.Data.List.Sort
import Mathlib.Data.Rat.Floor

/-! The onchain wallet: which coins a payment takes, and what it costs. -/

namespace ArkadeSdk.Onchain

open WireFormat JsNumber

def DUST_AMOUNT : ℤ := 546

structure Coin where
  txid : String
  vout : ℕ
  value : ℤ
  deriving DecidableEq

def totalValue (coins : List Coin) : ℤ := (coins.map (·.value)).sum

/-- Not smaller than the other one. -/
def larger (a b : Coin) : Prop := b.value ≤ a.value

instance : DecidableRel larger := fun a b ↦ inferInstanceAs (Decidable (b.value ≤ a.value))

/-- The loop of `selectCoins`, with the amount so far. -/
def takeCoins (reached : ℤ → Bool) (selectedAmount : ℤ) : List Coin → List Coin
  | [] => []
  | coin :: coins =>
    if reached (selectedAmount + coin.value) then [coin]
    else coin :: takeCoins reached (selectedAmount + coin.value) coins

structure Selection where
  inputs : List Coin
  changeAmount : ℤ
  deriving DecidableEq

/-- `send` adds an output for change from the dust limit on. -/
def Selection.hasChange (selected : Selection) : Bool := DUST_AMOUNT ≤ selected.changeAmount

def insufficientFunds : Message := message "Insufficient funds"

def selectCoins (coins : List Coin) (targetAmount : ℤ) (forceChange : Bool) :
    Except Message Selection :=
  if targetAmount < 0 then
    .error [.text "Target amount is negative, got ", .value (.ofInt targetAmount)]
  else if targetAmount = 0 then .ok ⟨[], 0⟩
  else
    let sortedCoins := coins.insertionSort larger
    let selectedCoins := takeCoins
      (fun amount ↦ if forceChange then targetAmount < amount else targetAmount ≤ amount) 0
      sortedCoins
    let selectedAmount := totalValue selectedCoins
    if selectedAmount = targetAmount then .ok ⟨selectedCoins, 0⟩
    else if selectedAmount < targetAmount then .error insufficientFunds
    else .ok ⟨selectedCoins, selectedAmount - targetAmount⟩

/-- A wallet with its taproot script, its coins, and the fee rate that the provider reports. -/
structure OnchainWallet where
  script : { bs : Bytes // bs.length = 34 }
  coins : List Coin
  feeRate : Option ℚ

namespace OnchainWallet

variable (self : OnchainWallet)

def MIN_FEE_RATE : ℚ := 1

def MAX_ITERATIONS : ℕ := 10

/-- The size of a payment from these coins, with or without a change output. -/
def vsize (inputs : List Coin) (recipient : Bytes) (withChange : Bool) : ℕ :=
  let e := inputs.foldl (fun e _ ↦ e.addKeySpendInput) TxWeightEstimator.create
  let e := e.addOutputScript recipient.length
  let e := if withChange then e.addOutputScript self.script.val.length else e
  e.vsize

/-- The product is rounded to a double, and then up. -/
def newFee (feeRate : ℚ) (recipient : Bytes) (inputs : List Coin) (withChange : Bool) : ℤ :=
  ⌈Double.ofRat (self.vsize inputs recipient withChange * feeRate)⌉

structure Estimate where
  inputs : List Coin
  changeAmount : ℤ
  fee : ℤ
  deriving DecidableEq

def couldNotConverge : Message := message "Fee estimation failed: could not converge"

def estimateFrom (coins : List Coin) (amount : ℤ) (feeRate : ℚ) (recipient : Bytes) :
    ℕ → ℤ → Except Message Estimate
  | 0, _ => .error couldNotConverge
  | rounds + 1, fee =>
    match selectCoins coins (amount + fee) false with
    | .error error => .error error
    | .ok selected =>
      let roundedNewFee := self.newFee feeRate recipient selected.inputs selected.hasChange
      if roundedNewFee ≤ fee then .ok ⟨selected.inputs, selected.changeAmount, roundedNewFee⟩
      else estimateFrom coins amount feeRate recipient rounds roundedNewFee

def estimateFeesAndSelectCoins (coins : List Coin) (amount : ℤ) (feeRate : ℚ) (recipient : Bytes) :
    Except Message Estimate :=
  self.estimateFrom coins amount feeRate recipient MAX_ITERATIONS 0

/-- A transaction before it is signed: its coins, and its outputs with their scripts. -/
structure Payment where
  inputs : List Coin
  outputs : List (Bytes × ℤ)

/-- The change is an output when it reaches the dust limit. -/
def payment (amount : ℤ) (recipient : Bytes) (inputs : List Coin) (changeAmount : ℤ) : Payment :=
  ⟨inputs, (recipient, amount) ::
    if DUST_AMOUNT ≤ changeAmount then [(self.script.val, changeAmount)] else []⟩

/-- The given rate, or the provider's where there is none, or the least one. -/
def effectiveFeeRate (feeRate : Option ℚ) : ℚ :=
  match (feeRate.filter (· ≠ 0)).or (self.feeRate.filter (· ≠ 0)) with
  | none => MIN_FEE_RATE
  | some feeRate => if feeRate < MIN_FEE_RATE then MIN_FEE_RATE else feeRate

/-- What is signed and broadcast. -/
def send (amount : ℤ) (feeRate : Option ℚ) (recipient : Bytes) : Except Message Payment := do
  rejectIf (amount ≤ 0) (message "Amount must be positive")
  rejectIf (amount < DUST_AMOUNT) (message "Amount is below dust limit")
  let estimate ← self.estimateFeesAndSelectCoins self.coins amount (self.effectiveFeeRate feeRate)
    recipient
  return self.payment amount recipient estimate.inputs estimate.changeAmount

end OnchainWallet

end ArkadeSdk.Onchain
