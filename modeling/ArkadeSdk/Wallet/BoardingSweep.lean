import ArkadeSdk.Script.TapscriptUnique
import ArkadeSdk.Wallet.Settlement
import ArkadeSdk.Wallet.TxSizeEstimator

/-! Deposits at the boarding addresses: which of them have expired, and the transaction that sweeps
these back along the exit leaves of the addresses that they sit on. -/

namespace ArkadeSdk

open WireFormat JsNumber

variable (L : Libraries)

namespace DefaultVtxo

structure Options where
  pubKey : Bytes
  serverPubKey : Bytes
  csvTimelock : RelativeTimelock
  deriving DecidableEq

structure Script where
  options : Options
  forfeitScript : Bytes
  exitScript : Bytes
  deriving DecidableEq

/-- The constructor. -/
def Script.new (options : Options) : Except Message Script := do
  let forfeit ← MultisigTapscript.encode L ⟨[options.pubKey, options.serverPubKey], none⟩
  let exit ← CSVMultisigTapscript.encode L ⟨⟨[options.pubKey], none⟩, options.csvTimelock⟩
  return ⟨options, forfeit.script, exit.script⟩

end DefaultVtxo

def getSequence (leaf : Bytes) : Option ℤ :=
  match CSVMultisigTapscript.decode L leaf >>= fun tapscript ↦
      timelockToSequence L tapscript.params.timelock with
  | .ok sequence => some sequence
  | .error _ => match CLTVMultisigTapscript.decode L leaf with
    | .ok tapscript => some tapscript.params.absoluteTimelock
    | .error _ => none

namespace BoardingSweep

open Renewal

/-- A deposit, with the leaves that its tap tree decodes to. -/
structure BoardingUtxo extends BoardingCoin where
  leaves : List Bytes
  deriving DecidableEq

/-- What the wallet and the chain say. -/
structure Surroundings where
  boardingTapscript : DefaultVtxo.Script
  chainTipHeight : ℤ
  nowSeconds : ℤ
  feeRate : Option ℚ
  boardingScript : Bytes
  dustAmount : ℤ
  boardingUtxoSweep : Bool
  sweptBoardingUtxos : List Outpoint

structure TxInput where
  outpoint : Outpoint
  amount : ℤ
  tapLeafScript : Bytes
  sequence : Option ℤ
  deriving DecidableEq

structure SweepTx where
  inputs : List TxInput
  outputScript : Bytes
  outputAmount : ℤ
  deriving DecidableEq

variable (env : Surroundings)

def getBoardingTimelock : Except Message RelativeTimelock :=
  (CSVMultisigTapscript.decode L env.boardingTapscript.exitScript).map (·.params.timelock)

/-- The height is fetched for a timelock in blocks only. -/
def tipFor (boardingTimelock : RelativeTimelock) : Option ℤ :=
  if boardingTimelock.type = .blocks then some env.chainTipHeight else none

def getExpiredBoardingUtxos (boardingUtxos : List BoardingUtxo) :
    Except Message (List BoardingUtxo) := do
  let boardingTimelock ← getBoardingTimelock L env
  return boardingUtxos.filter fun utxo ↦ hasBoardingTxExpired utxo.toBoardingCoin boardingTimelock
    (tipFor env boardingTimelock) env.nowSeconds

/-- The exit leaf of the current address stands for all in the size: a tree of two leaves, and one
signature. -/
def sweepSize (inputs : ℕ) : ℕ :=
  let leafScriptSize := env.boardingTapscript.exitScript.length
  let estimator := (TxWeightEstimator.addTapscriptInput · 64 leafScriptSize 32)^[inputs]
    TxWeightEstimator.create
  (estimator.addOutputScript env.boardingScript.length).vsize

/-- The first leaf that is a CSV closure. -/
def exitLeaf (leaves : List Bytes) : Option Bytes :=
  leaves.find? fun leaf ↦ (CSVMultisigTapscript.isScriptValid L leaf).toBool

def sweepInput (utxo : BoardingUtxo) : Except Message TxInput :=
  match exitLeaf L utxo.leaves with
  | none => .error (message ("Boarding sweep: no CSV exit leaf for UTXO " ++
      utxo.outpoint.txid ++ ":" ++ toString utxo.outpoint.vout))
  | some leaf => .ok ⟨utxo.outpoint, utxo.value, leaf, getSequence L leaf⟩

def sweepExpiredBoardingUtxos (boardingUtxos : List BoardingUtxo) : Except Message SweepTx := do
  rejectIf (!env.boardingUtxoSweep)
    (message "Boarding UTXO sweep is not enabled in settlementConfig")
  let allExpired ← getExpiredBoardingUtxos L env boardingUtxos
  let expiredUtxos := allExpired.filter fun u ↦ u.outpoint ∉ env.sweptBoardingUtxos
  rejectIf (expiredUtxos = []) (message "No expired boarding UTXOs to sweep")
  let fee := ⌈(sweepSize env expiredUtxos.length : ℚ) * env.feeRate.getD 1⌉
  let totalValue := (expiredUtxos.map (·.value)).sum
  let outputAmount := totalValue - fee
  rejectIf (outputAmount < env.dustAmount)
    [.text "Sweep not economical: output ", .value (.ofInt outputAmount), .text " sats after ",
      .value (.ofInt fee), .text " sats fee is below dust (", .value (.ofInt env.dustAmount),
      .text " sats)"]
  let inputs ← expiredUtxos.mapM (sweepInput L)
  return ⟨inputs, env.boardingScript, outputAmount⟩

def periodicBoarding (known : List Outpoint) (boardingUtxos : List BoardingUtxo) :
    Except Message (List BoardingCoin) := do
  let boardingTimelock ← getBoardingTimelock L env
  return unsettledBoarding known boardingTimelock (tipFor env boardingTimelock) env.nowSeconds
    (boardingUtxos.map (·.toBoardingCoin))

/-- `settle()` over the deposits. -/
def settle (info : ArkInfo) (offchainAddress : String) (boardingUtxos : List BoardingUtxo)
    (vtxos : List VirtualCoin) : Except Message (Except String Settlement.Proposal) := do
  let boardingTimelock ← getBoardingTimelock L env
  return Settlement.settle info env.dustAmount offchainAddress boardingTimelock
    (tipFor env boardingTimelock) env.nowSeconds (boardingUtxos.map (·.toBoardingCoin)) vtxos

end BoardingSweep

end ArkadeSdk
