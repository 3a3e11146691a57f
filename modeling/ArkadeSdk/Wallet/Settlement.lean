import ArkadeSdk.Wallet.Renewal

/-! The settlements that the wallet proposes to the operator by itself: what recovery, renewal,
the periodic pass and `settle()` put in, and what they ask for. -/

namespace ArkadeSdk.Settlement

open Renewal

/-- What is asked for: the inputs, and one output. -/
structure Proposal where
  boarding : List BoardingCoin
  vtxos : List VirtualCoin
  address : String
  amount : ℤ
  deriving DecidableEq

def Outpoint.text (o : Outpoint) : String := o.txid ++ ":" ++ toString o.vout

def estimatorOf (info : Option ArkInfo) : Estimator := (info.map (·.estimator)).getD noFees

def maxAmountOf (info : Option ArkInfo) : ℤ := (info.map (·.vtxoMaxAmount)).getD (-1)

/-- A stable sort. -/
def byValueDescending (vtxos : List VirtualCoin) : List VirtualCoin :=
  vtxos.insertionSort fun a b ↦ b.value ≤ a.value

/-- What a coin's record says beside. -/
structure Facts where
  isSpent : Bool
  spentBy : String
  settledBy : String
  isPreconfirmed : Bool

/-- What recovery is told about the coins. -/
structure Surroundings where
  facts : VirtualCoin → Facts
  unspendableNow : List VirtualCoin → List (Outpoint × String)
  now : TimeHeight
  dustAmount : ℤ

def isSubdust (vtxo : VirtualCoin) (dust : ℤ) : Bool := vtxo.value < dust

def totalValue (vtxos : List VirtualCoin) : ℤ := (vtxos.map (·.value)).sum

variable (env : Surroundings)

def hasTerminalSpend (vtxo : VirtualCoin) : Bool :=
  (env.facts vtxo).isSpent || (env.facts vtxo).spentBy ≠ "" || (env.facts vtxo).settledBy ≠ ""

def isPastExpiry (vtxo : VirtualCoin) : Bool :=
  (vtxo.expiresAt.any fun expiresAt ↦ expiresAt ≤ env.now.timestamp) ||
    (vtxo.expiresAtHeight.any fun expiresAtHeight ↦
      env.now.height.any fun height ↦ expiresAtHeight ≤ height)

def canSpendOffchain (vtxo : VirtualCoin) : Bool :=
  !hasTerminalSpend env vtxo && !(vtxo.isSwept || isPastExpiry env vtxo)

def canRecoverOnchain (vtxo : VirtualCoin) : Bool :=
  !hasTerminalSpend env vtxo && (vtxo.isSwept || isPastExpiry env vtxo)

def getRecoverableVtxos (vtxos : List VirtualCoin) : List VirtualCoin :=
  vtxos.filter fun vtxo ↦ canRecoverOnchain env vtxo ||
    (canSpendOffchain env vtxo && (env.facts vtxo).isPreconfirmed && isSubdust vtxo env.dustAmount)

/-- The small ones come along where all together reach the dust threshold. -/
def getRecoverableWithSubdust (vtxos : List VirtualCoin) : List VirtualCoin :=
  let recoverableVtxos := getRecoverableVtxos env vtxos
  let subdust := recoverableVtxos.filter (isSubdust · env.dustAmount)
  let regular := recoverableVtxos.filter (!isSubdust · env.dustAmount)
  if env.dustAmount ≤ totalValue regular + totalValue subdust then recoverableVtxos else regular

def heldText (held : ℕ) (refused : List (Outpoint × String)) : String :=
  let why := match refused with
    | [(_, reason)] => reason
    | refused => "; ".intercalate (refused.map fun (outpoint, reason) ↦
        Outpoint.text outpoint ++ ": " ++ reason)
  "All " ++ toString held ++ " recoverable VTXO(s) are held by a contract that refuses a " ++
    "spend right now: " ++ why

/-- What may be recovered, before it is priced. -/
def recoveryCandidates (vtxos : List VirtualCoin) : Except String (List VirtualCoin) :=
  let vtxosToRecover := getRecoverableWithSubdust env vtxos
  if vtxosToRecover = [] then .error "No recoverable VTXOs found"
  else
    let refused := env.unspendableNow vtxosToRecover
    if refused = [] then .ok vtxosToRecover
    else
      let kept := vtxosToRecover.filter fun v ↦ v.outpoint ∉ refused.map Prod.fst
      if kept = [] then .error (heldText vtxosToRecover.length refused)
      else
        let again := getRecoverableWithSubdust env kept
        if again = [] then .error ("Excluding " ++ toString refused.length ++
          " VTXO(s) not yet spendable, the remaining recoverable amount is below the dust " ++
          "threshold " ++ toString env.dustAmount)
        else .ok again

/-- Where pricing or a cap narrows the batch, the small ones are judged again. -/
def recoveryInputs (info : Option ArkInfo) (vtxosToRecover : List VirtualCoin) :
    Except String (List VirtualCoin) :=
  let payable := vtxosToRecover.filter (payable (estimatorOf info))
  let capped := capSettlementBatch (byValueDescending payable) (maxAmountOf info)
  if capped.length < vtxosToRecover.length then
    let recoverable := getRecoverableWithSubdust env capped
    if recoverable ≠ [] then .ok recoverable
    else if payable.length ≤ capped.length then
      .error ("All " ++ toString vtxosToRecover.length ++ " recoverable VTXOs that can pay " ++
        "their own intent fee total less than the dust threshold " ++ toString env.dustAmount)
    else .error ("Capped recovery batch (highest-value subset of " ++
      toString vtxosToRecover.length ++ " recoverable VTXOs within the " ++
      toString MAX_VTXOS_PER_SETTLEMENT ++ "-input and " ++ toString (maxAmountOf info) ++
      "-sat limits, net of intent fees) is below the dust threshold " ++ toString env.dustAmount)
  else .ok vtxosToRecover

/-- `address` is where the wallet receives once it has rotated. -/
def recoverVtxos (info : Option ArkInfo) (address : String) (vtxos : List VirtualCoin) :
    Except String Proposal := do
  let candidates ← recoveryCandidates env vtxos
  let inputs ← recoveryInputs env info candidates
  let totalAmount :=
    deductOffchainOutputFee (subtotalOf (estimatorOf info) inputs) (estimatorOf info) address
  if totalAmount < env.dustAmount then
    throw ("Recoverable amount " ++ toString totalAmount ++ " net of intent fees is below dust " ++
      "threshold " ++ toString env.dustAmount)
  return ⟨[], inputs, address, totalAmount⟩

def renewVtxos (info : Option ArkInfo) (now : TimeHeight) (dustAmount : ℤ) (address : String)
    (vtxos : List VirtualCoin) : Except String Proposal := do
  if vtxos = [] then throw "No VTXOs available to renew"
  let inputs ← renewalInputs info now vtxos
  let totalAmount :=
    deductOffchainOutputFee (subtotalOf (estimatorOf info) inputs) (estimatorOf info) address
  if totalAmount < dustAmount then
    throw ("Total amount " ++ toString totalAmount ++ " is below dust threshold " ++
      toString dustAmount)
  return ⟨[], inputs, address, totalAmount⟩

/-- Nothing is settled where nothing is worth it. -/
def runPeriodicSettle (info : ArkInfo) (now : TimeHeight) (dustAmount : ℤ) (address : String)
    (unsettled : List BoardingCoin) (expiring : List VirtualCoin) : Option Proposal :=
  let boarding := filteredBoarding info.estimator unsettled
  let (vtxos, totalAmount) := takeVtxos info.estimator info.vtxoMaxAmount []
    (boardingTotal info.estimator boarding) (byExpiryAscending expiring now)
  if boarding = [] ∧ vtxos = [] then none
  else
    let amount := deductOffchainOutputFee totalAmount info.estimator address
    if amount < dustAmount then none else some ⟨boarding, vtxos, address, amount⟩

/-- The boarding inputs that are not left for the exit path. -/
def boardingCandidates (boardingTimelock : RelativeTimelock) (chainTipHeight : Option ℤ)
    (nowSeconds : ℤ) (boardingUtxos : List BoardingCoin) : List BoardingCoin :=
  boardingUtxos.filter fun utxo ↦ utxo.confirmed &&
    !hasBoardingTxExpired utxo boardingTimelock chainTipHeight nowSeconds

/-- The loop over the virtual outputs, with what was taken and the amount so far, where an output
is judged by what the amount comes to with it. -/
def takeProjected (estimator : Estimator) (vtxoMaxAmount : ℤ) (projected : ℤ → ℤ)
    (filteredVtxos : List VirtualCoin) (amount : ℤ) : List VirtualCoin → List VirtualCoin × ℤ
  | [] => (filteredVtxos, amount)
  | vtxo :: rest =>
    if MAX_VTXOS_PER_SETTLEMENT ≤ filteredVtxos.length then (filteredVtxos, amount)
    else if vtxo.value ≤ satoshis (estimator.offchainInput vtxo) ∨
        0 ≤ vtxoMaxAmount ∧ vtxoMaxAmount < projected (amount + net estimator vtxo) then
      takeProjected estimator vtxoMaxAmount projected filteredVtxos amount rest
    else takeProjected estimator vtxoMaxAmount projected (filteredVtxos ++ [vtxo])
      (amount + net estimator vtxo) rest

/-- The amount is compared once the output's own fee is paid. -/
def takeHighest (estimator : Estimator) (vtxoMaxAmount : ℤ) (address : String) (amount : ℤ)
    (vtxos : List VirtualCoin) : List VirtualCoin × ℤ :=
  takeProjected estimator vtxoMaxAmount (deductOffchainOutputFee · estimator address) [] amount
    (byValueDescending vtxos)

/-- `settle()` once the boarding inputs are known. -/
def settleCandidates (info : ArkInfo) (dustAmount : ℤ) (offchainAddress : String)
    (boardingUtxos : List BoardingCoin) (vtxos : List VirtualCoin) : Except String Proposal := do
  let boarding := filteredBoarding info.estimator boardingUtxos
  let (filteredVtxos, amount) := takeHighest info.estimator info.vtxoMaxAmount offchainAddress
    (boardingTotal info.estimator boarding) vtxos
  if boarding = [] ∧ filteredVtxos = [] then throw "No inputs found"
  let outputAmount := deductOffchainOutputFee amount info.estimator offchainAddress
  if outputAmount < dustAmount then throw "Output amount is below dust limit"
  return ⟨boarding, filteredVtxos, offchainAddress, outputAmount⟩

def settle (info : ArkInfo) (dustAmount : ℤ) (offchainAddress : String)
    (boardingTimelock : RelativeTimelock) (chainTipHeight : Option ℤ) (nowSeconds : ℤ)
    (boardingUtxos : List BoardingCoin) (vtxos : List VirtualCoin) : Except String Proposal :=
  settleCandidates info dustAmount offchainAddress
    (boardingCandidates boardingTimelock chainTipHeight nowSeconds boardingUtxos) vtxos

def outputFee (estimator : Estimator) (amount : ℤ) (address : String) : ℚ :=
  match estimator.offchainOutput with
  | none => 0
  | some program => program amount address

def inputFees (estimator : Estimator) (boarding : List BoardingCoin) (vtxos : List VirtualCoin) :
    ℚ :=
  (vtxos.map estimator.offchainInput).sum +
    (boarding.map fun u ↦ estimator.onchainInput u.value).sum

/-- `Estimator.evaluate`, where no output is onchain. An offer is made of whole fees, of which the
code's sum of doubles comes to no more either: rounding is monotone and keeps whole numbers. -/
def evaluate (estimator : Estimator) (s : Proposal) : ℚ :=
  inputFees estimator s.boarding s.vtxos + outputFee estimator s.amount s.address

def Proposal.inputValue (s : Proposal) : ℤ :=
  (s.boarding.map (·.value)).sum + totalValue s.vtxos

end ArkadeSdk.Settlement
