import ArkadeSdk.Lib.Grouping
import ArkadeSdk.Lib.Tally
import ArkadeSdk.Wallet.FeeAmount
import ArkadeSdk.Wallet.Vtxo

/-! Renewals that are left to a delegate: the intents it is handed, and what is reported of them. -/

namespace ArkadeSdk.Delegate

open WireFormat JsNumber Vtxo

inductive VtxoType
  | recoverable
  | vtxo
  | note
  deriving DecidableEq

/-- The operator's programs; where there is none, the fee is nought. -/
structure Estimator where
  offchainInput : VirtualCoin → VtxoType → FeeAmount
  offchainOutput : ℤ → Bytes → FeeAmount

/-- What the operator, the delegate and the wallet's keys answer. -/
structure Surroundings where
  estimatorAt : ℤ → Estimator
  dust : ℤ
  fee : ℕ
  delegateScript : Bytes
  isEligible : VirtualCoin → Bool
  signs : List VirtualCoin → Bool

structure TxOut where
  script : Bytes
  amount : ℤ
  deriving DecidableEq

/-- What the delegate is handed: the intent, and the forfeits by what they spend. -/
structure Delegation where
  inputs : List VirtualCoin
  outputs : List TxOut
  assets : JsMap.Entries String ℤ
  validAt : ℤ
  forfeits : List Outpoint
  deriving DecidableEq

variable (env : Surroundings)

def MAX_SAFE_INTEGER : ℤ := 2 ^ 53 - 1

/-- The chain's height is not asked for. -/
def isRecoverable (now : ℕ) (coin : VirtualCoin) : Bool := coin.canRecoverOnchain ⟨now, none⟩

/-- The expiries of the inputs that are not recoverable, where these have one. -/
def expiries (now : ℕ) (vtxos : List VirtualCoin) : List ℤ :=
  (vtxos.filter (!isRecoverable now ·)).filterMap (·.batchExpiry)

/-- `expiryTimestamp - remainingTimeMs * 0.1` -/
def tenthBefore (now : ℕ) (expiryTimestamp : ℤ) : ℚ :=
  let remainingTimeMs := expiryTimestamp - now
  Double.ofRat (expiryTimestamp - Double.ofRat (remainingTimeMs * Double.ofRat (1 / 10)))

/-- Ten percent of the remaining time before the first expiry, or a minute from now. A date is cut
to a whole millisecond. -/
def resolveDelegateAt (now : ℕ) (vtxos : List VirtualCoin) (delegateAt : Option ℤ) : ℤ :=
  match delegateAt with
  | some delegateAt => delegateAt
  | none =>
    let expiryTimestamp := (expiries now vtxos).foldl min MAX_SAFE_INTEGER
    if expiryTimestamp = 0 ∨ expiryTimestamp = MAX_SAFE_INTEGER then now + 60 * 1000
    else if expiryTimestamp - now ≤ 0 then now + 60 * 1000
    else ⌊tenthBefore now expiryTimestamp⌋

/-- `BigInt(fee.value)`: a fraction is refused. -/
def toBigInt (fee : ℚ) : Except Message ℤ :=
  if fee.den = 1 then .ok fee.num
  else .error (message "The number cannot be converted to a BigInt because it is not an integer")

def addInput (estimator : Estimator) (amount : ℤ) (coin : VirtualCoin) : Except Message ℤ :=
  let inputFee := (estimator.offchainInput coin .vtxo).value
  if coin.value ≤ inputFee then .ok amount
  else do
    let inputFee ← toBigInt inputFee
    return amount + coin.value - inputFee

def feeOutputs : List TxOut := if 0 < env.fee then [⟨env.delegateScript, env.fee⟩] else []

def outputFee (estimator : Estimator) (outputs : List TxOut) : ℤ :=
  ((outputs.filter fun o ↦ o.amount ≠ 0).map fun o ↦
    (estimator.offchainOutput o.amount o.script).satoshis).sum

def assetsOf (coins : List VirtualCoin) : List (String × ℤ) :=
  coins.flatMap fun coin ↦ coin.assetList.map fun asset ↦ (asset.assetId, asset.amount)

def delegate (now : ℕ) (vtxos : List VirtualCoin) (destinationScript : Bytes)
    (delegateAt : Option ℤ) : Except Message Delegation := do
  rejectIf (vtxos = []) (message "unable to delegate: no vtxos provided")
  let delegateAt := resolveDelegateAt now vtxos delegateAt
  let estimator := env.estimatorAt delegateAt
  let amount ← vtxos.foldlM (addInput estimator) 0
  let outputs := feeOutputs env
  let amount := amount - outputFee estimator outputs
  rejectIf (amount < env.dust) (message "Amount is below dust limit, cannot delegate")
  let amount := amount - env.fee
  rejectIf (amount < env.dust) (message "Amount is below dust limit, cannot delegate")
  rejectIf (!env.signs vtxos) (message "the identity refused to sign")
  return {
    inputs := vtxos
    outputs := outputs ++ [⟨destinationScript, amount⟩]
    assets := (assetsOf vtxos).foldl Tally.add []
    validAt := delegateAt / 1000
    forfeits := (vtxos.filter (!isRecoverable now ·)).map (·.outpoint) }

structure Report where
  delegated : List Outpoint
  failed : List (List Outpoint × Message)
  deriving DecidableEq

def Report.empty : Report := ⟨[], []⟩

/-- One group's outcome, after what is there already. -/
def Report.record (report : Report) (vtxos : List VirtualCoin) :
    Except Message Unit → Report
  | .ok () => { report with delegated := report.delegated ++ outpoints vtxos }
  | .error error => { report with failed := report.failed ++ [(outpoints vtxos, error)] }

def getDayTimestamp (timestamp : ℤ) : ℤ := timestamp / 86400000 * 86400000

/-- The virtual outputs that expire, by day. -/
def groupByExpiry (now : ℕ) (eligible : List VirtualCoin) : JsMap.Entries ℤ (List VirtualCoin) :=
  Grouping.group (fun vtxo ↦ getDayTimestamp (vtxo.batchExpiry.getD 0))
    (eligible.filter fun vtxo ↦ !isRecoverable now vtxo && vtxo.batchExpiry.isSome)

/-- The recoverable ones go with the group that expires first. -/
def groupsList (now : ℕ) (eligible : List VirtualCoin) : JsMap.Entries ℤ (List VirtualCoin) :=
  let groups := groupByExpiry now eligible
  match (groups.map Prod.fst).min? with
  | none => []
  | some earliestGroup =>
    Grouping.extend groups earliestGroup (eligible.filter (isRecoverable now ·))

/-- `accepts` is the delegate's answer. -/
def manage (accepts : Delegation → Except Message Unit) (now : ℕ) (vtxos : List VirtualCoin)
    (destinationScript : Bytes) (delegateAt : Option ℤ) : Report :=
  let eligible := vtxos.filter env.isEligible
  let attempt (group : List VirtualCoin) : Except Message Unit :=
    delegate env now group destinationScript delegateAt >>= accepts
  if eligible = [] then .empty
  else if delegateAt.isSome then Report.empty.record eligible (attempt eligible)
  else if groupByExpiry now eligible = [] then
    let recoverableVtxos := eligible.filter (isRecoverable now ·)
    Report.empty.record recoverableVtxos (attempt recoverableVtxos)
  else (groupsList now eligible).foldl (fun report group ↦
    report.record group.2 (attempt group.2)) .empty

end ArkadeSdk.Delegate
