import ArkadeSdk.Lib.Distinct
import ArkadeSdk.Lib.JsMap
import ArkadeSdk.Wallet.Vtxo

/-! Claiming what lies at a cash address: pending transactions are finalized, and each virtual
output that can be spent is swept. -/

namespace ArkadeSdk.ArkadeCash

open WireFormat JsNumber Vtxo

abbrev Txid := String

/-- A checkpoint of a pending transaction; an input without its txid or index is `none`. -/
structure Checkpoint where
  id : Txid
  inputs : List (Option Outpoint)
  deriving DecidableEq

structure TxOut where
  script : Option Bytes
  amount : Option ℤ
  deriving DecidableEq

/-- The transactions are decoded; one that does not decode is `none`. -/
structure PendingTx where
  arkTxid : Txid
  signedCheckpointTxs : List (Option Checkpoint)
  finalArkTx : Option (List TxOut)
  deriving DecidableEq

structure Page where
  vtxos : List VirtualCoin
  more : Bool

/-- What the indexer, the server and the key of the cash answer. `vtxos` and `again` are the two
reads of the address, `sweep` is one transaction for one output, submitted and finalized. -/
structure Surroundings where
  dustAmount : ℤ
  myPkScript : Bytes
  vtxos : Except Message (List Page)
  again : Except Message (List Page)
  getPendingTxs : List VirtualCoin → Except Message (List PendingTx)
  unrollCandidates : Except Message Unit
  buildCheckpointTxs : VirtualCoin → List Txid
  sign : Checkpoint → Except Message Unit
  finalizeTx : Txid → Except Message Unit
  serverUnrollScript : Except Message Unit
  sweep : VirtualCoin → Except Message Unit

inductive UnclaimedReason
  | alreadySpent
  | subdust
  | swept
  | hasAssets
  | sweepFailed
  deriving DecidableEq

structure UnclaimedVtxo where
  outpoint : Outpoint
  value : ℤ
  reason : UnclaimedReason
  deriving DecidableEq

variable (env : Surroundings)

def pageSize : ℕ := 100

def fetchAllVtxos (all : List VirtualCoin) : List Page → List VirtualCoin
  | [] => all
  | page :: pages =>
    let all := Distinct.addAll (·.outpoint) all page.vtxos
    if !page.more || page.vtxos.length < pageSize then all else fetchAllVtxos all pages

def cashReport (vtxo : VirtualCoin) (reason : UnclaimedReason) : UnclaimedVtxo :=
  ⟨vtxo.outpoint, vtxo.value, reason⟩

/-- Why an output cannot be swept, if it cannot. -/
def unclaimedReason (vtxo : VirtualCoin) : Option UnclaimedReason :=
  if vtxo.hasTerminalSpend then some .alreadySpent
  else if vtxo.isSubdust env.dustAmount then some .subdust
  else if vtxo.isSwept then some .swept
  else if 0 < vtxo.assetList.length then some .hasAssets
  else none

def classifyCashVtxos : List VirtualCoin → List VirtualCoin × List UnclaimedVtxo
  | [] => ([], [])
  | vtxo :: vtxos =>
    let (spendable, unclaimed) := classifyCashVtxos vtxos
    match unclaimedReason env vtxo with
    | some reason => (spendable, cashReport vtxo reason :: unclaimed)
    | none => (vtxo :: spendable, unclaimed)

def MAX_INPUTS_PER_INTENT : ℕ := 20

def batches (inputs : List VirtualCoin) : List (List VirtualCoin) :=
  (List.range ((inputs.length + MAX_INPUTS_PER_INTENT - 1) / MAX_INPUTS_PER_INTENT)).map fun i ↦
    (inputs.drop (i * MAX_INPUTS_PER_INTENT)).take MAX_INPUTS_PER_INTENT

/-- Each pending transaction once, also where it comes up in two batches. -/
def pendingCashTxs (inputs : List VirtualCoin) : Except Message (List PendingTx) := do
  let answers ← (batches inputs).mapM env.getPendingTxs
  return Distinct.addAll (·.arkTxid) [] answers.flatten

/-- `new Map(inputs.map((input) => [outpoint, input]))` -/
def byOutpoint (inputs : List VirtualCoin) : JsMap.Entries Outpoint VirtualCoin :=
  inputs.foldl (fun m input ↦ JsMap.set input.outpoint input m) []

def showOutpoint (outpoint : Outpoint) : Message :=
  [.text (outpoint.1 ++ ":"), .value (.ofNat outpoint.2)]

def assertCheckpointMatches (context : String) (inputs : List VirtualCoin) (index : ℕ)
    (checkpoint : Checkpoint) : Except Message Unit :=
  let named : Message := [.text (context ++ ": checkpoint "), .value (.ofNat index)]
  if checkpoint.inputs.length ≠ 1 then .error (named ++ [.text " spends ",
    .value (.ofNat checkpoint.inputs.length), .text " inputs, expected 1"])
  else match checkpoint.inputs.head?.join with
  | none => .error (named ++ [.text " has no input outpoint"])
  | some outpoint =>
    match JsMap.get (byOutpoint inputs) outpoint with
    | none => .error (named ++ [.text " spends "] ++ showOutpoint outpoint ++
        [.text ", which is not one of the requested virtual outputs"])
    | some input =>
      if checkpoint.id ∈ env.buildCheckpointTxs input then .ok ()
      else .error (named ++ [.text (" txid " ++ checkpoint.id ++
        " differs from the checkpoint built locally for ")] ++ showOutpoint outpoint)

def assertCheckpointsMatchInputs (checkpoints : List Checkpoint) (inputs : List VirtualCoin)
    (context : String) : Except Message Unit :=
  checkpoints.zipIdx.forM fun (checkpoint, index) ↦
    assertCheckpointMatches env context inputs index checkpoint

def decodeCheckpoint : Option Checkpoint → Except Message Checkpoint
  | some checkpoint => .ok checkpoint
  | none => .error (message "invalid PSBT")

def finalizeCashTx (inputs : List VirtualCoin) (pendingTx : PendingTx) :
    Except Message Unit := do
  let checkpointTxs ← pendingTx.signedCheckpointTxs.mapM decodeCheckpoint
  assertCheckpointsMatchInputs env checkpointTxs inputs
    ("pending arkadeCash tx " ++ pendingTx.arkTxid)
  checkpointTxs.forM env.sign
  env.finalizeTx pendingTx.arkTxid

/-- What a transaction pays to a script; nothing is known of one that does not decode. -/
def arkTxAmountPaidTo (pendingTx : PendingTx) (pkScript : Bytes) : ℤ :=
  (((pendingTx.finalArkTx.getD []).filter fun output ↦ output.script = some pkScript).map fun
    output ↦ output.amount.getD 0).sum

def PendingTx.spends (pendingTx : PendingTx) : List Outpoint :=
  (pendingTx.signedCheckpointTxs.flatMap fun checkpoint ↦
    (checkpoint.map (·.inputs)).getD []).reduceOption

/-- `finalized` are the transactions that `count` counts. -/
structure Drained where
  count : ℕ
  swept : ℤ
  claimed : List Outpoint
  finalized : List PendingTx

def Drained.none : Drained := ⟨0, 0, [], []⟩

def drainTx (inputs : List VirtualCoin) (result : Drained) (pendingTx : PendingTx) : Drained :=
  match finalizeCashTx env inputs pendingTx with
  | .error _ => result
  | .ok () =>
    let paidToMe := arkTxAmountPaidTo pendingTx env.myPkScript
    let result := { result with
      count := result.count + 1
      finalized := result.finalized ++ [pendingTx] }
    if paidToMe = 0 then result
    else { result with
      swept := result.swept + paidToMe
      claimed := result.claimed ++ pendingTx.spends }

def finalizePendingCashTxs (inputs : List VirtualCoin) : Except Message Drained := do
  let pendingTxs ← pendingCashTxs env inputs
  if pendingTxs = [] then return .none
  else do
    env.unrollCandidates
    return pendingTxs.foldl (drainTx env inputs) .none

/-- A drain that cannot run does not stop the claim. -/
def drain (vtxos : List VirtualCoin) : Drained :=
  let drainable := vtxos.filter (!·.isSubdust env.dustAmount)
  if drainable = [] then .none
  else match finalizePendingCashTxs env drainable with
    | .ok drained => drained
    | .error _ => .none

/-- The result, with the transactions that the call finalized and the outputs that it tried to
sweep. -/
structure Claim where
  swept : ℤ
  unclaimed : List UnclaimedVtxo
  finalized : List PendingTx
  sweeps : List VirtualCoin

def Claim.unclaimedAmount (claim : Claim) : ℤ := (claim.unclaimed.map (·.value)).sum

def sweepVtxo (claim : Claim) (vtxo : VirtualCoin) : Claim :=
  match env.sweep vtxo with
  | .ok () => { claim with
      swept := claim.swept + vtxo.value
      sweeps := claim.sweeps ++ [vtxo] }
  | .error _ => { claim with
      unclaimed := claim.unclaimed ++ [cashReport vtxo .sweepFailed]
      sweeps := claim.sweeps ++ [vtxo] }

/-- The read that the claim goes by: another one, where the drain finalized something. -/
def latestVtxos (vtxos : List VirtualCoin) : Except Message (List VirtualCoin) :=
  if 0 < (drain env vtxos).count then do
    let pages ← env.again
    return fetchAllVtxos [] pages
  else .ok vtxos

def claimCash : Except Message Claim := do
  let pages ← env.vtxos
  let vtxos := fetchAllVtxos [] pages
  rejectIf (vtxos = []) (message "No VTXOs found for this arkadeCash")
  let drained := drain env vtxos
  let vtxos ← latestVtxos env vtxos
  let classified := classifyCashVtxos env vtxos
  let spendable := classified.1
  let unclaimed := if 0 < drained.count then
    classified.2.filter (·.outpoint ∉ drained.claimed) else classified.2
  (if spendable ≠ [] then env.serverUnrollScript else .ok ())
  return spendable.foldl (sweepVtxo env) ⟨drained.swept, unclaimed, drained.finalized, []⟩

end ArkadeSdk.ArkadeCash
