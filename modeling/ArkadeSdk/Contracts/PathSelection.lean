import ArkadeSdk.Arkade.ProgramPersistence
import ArkadeSdk.Contracts.ContractRows
import ArkadeSdk.Script.VhtlcScript
import ArkadeSdk.Wallet.BoardingSweep
import Mathlib.Data.Rat.Floor

/-! Which leaf of a contract the wallet may spend: the clock and the keys that it goes by, and the
contracts with one leaf for cooperation and one for the exit. -/

namespace ArkadeSdk.Paths

open WireFormat JsNumber HexCodec
open Contracts (Contract)

structure VtxoStatus where
  blockHeight : Option ℤ
  blockTime : Option ℤ
  deriving DecidableEq

/-- The wallet's clock is in milliseconds, that of the chain in seconds. -/
structure PathContext where
  collaborative : Bool
  currentTime : ℚ
  blockHeight : Option ℤ
  walletDescriptor : Option String
  walletPubKey : Option String
  role : Option String
  chainTime : Option ℚ
  vtxo : Option VtxoStatus
  deriving DecidableEq

/-- The script of the leaf, what its condition is shown, and the sequence of the input. -/
structure PathSelection where
  leaf : Bytes
  extraWitness : Option (List Bytes)
  sequence : Option Number
  deriving DecidableEq

structure PathHandler (Script : Type) where
  createScript : VHTLC.Params → Except Message Script
  selectPath : Script → Contract → PathContext → Except Message (Option PathSelection)
  getAllSpendingPaths : Script → Contract → PathContext → Except Message (List PathSelection)
  getSpendablePaths : Script → Contract → PathContext → Except Message (List PathSelection)

/-- On hexadecimal texts. -/
def toLowerCase (s : String) : String := String.ofList (s.toList.map Char.toLower)

def isDescriptor (value : String) : Bool :=
  Json.startsWith "tr(" value && value.toList.getLast? = some ')' && 4 < value.toList.length

def normalizeToDescriptor (value : Option String) : Except Message String :=
  match givenText value with
  | none => .error (message "normalizeToDescriptor: expected a non-empty string value")
  | some value => .ok (if isDescriptor value then value else "tr(" ++ value ++ ")")

-- the key a descriptor expands to; there is none without a derivation
variable (expandKey : String → Except Message Bytes)

def extractPubKey (descriptor : String) : Except Message String :=
  if isDescriptor descriptor then base16.encode <$> expandKey descriptor else .ok descriptor

def extractPubKeyBytes (value : Option String) : Except Message Bytes := do
  let descriptor ← normalizeToDescriptor value
  let pubKey ← extractPubKey expandKey descriptor
  VHTLC.decodeHex (some pubKey)

/-- A blank text is no key. -/
def extractRawPubKey (value : String) : Option String :=
  givenText ((extractPubKey expandKey value).toOption.map toLowerCase)

inductive Role
  | sender
  | receiver
  deriving DecidableEq, Repr

def explicitRole (context : PathContext) : Option Role :=
  match context.role with
  | some "sender" => some .sender
  | some "receiver" => some .receiver
  | _ => none

def matchRole (contract : Contract) (rawWalletKey : Option String) : Option Role :=
  let senderKey := (givenText (contract.params.lookup "sender")).bind (extractRawPubKey expandKey)
  let receiverKey :=
    (givenText (contract.params.lookup "receiver")).bind (extractRawPubKey expandKey)
  match rawWalletKey with
  | none => none
  | some rawWalletKey =>
    if senderKey = some rawWalletKey then some .sender
    else if receiverKey = some rawWalletKey then some .receiver
    else none

/-- The bare key counts when there is no descriptor or none that has a key. -/
def resolveRole (contract : Contract) (context : PathContext) : Option Role :=
  let fromPubKey :=
    matchRole expandKey contract ((givenText context.walletPubKey).bind (extractRawPubKey expandKey))
  match explicitRole context with
  | some role => some role
  | none => match givenText context.walletDescriptor with
    | none => fromPubKey
    | some walletDescriptor => match extractRawPubKey expandKey walletDescriptor with
      | none => fromPubKey
      | some walletKey => matchRole expandKey contract (some walletKey)

/-- Locktimes below are heights, the others times in seconds. -/
def CLTV_HEIGHT_THRESHOLD : ℤ := 500000000

def nowSeconds (context : PathContext) : ℤ := ⌊context.chainTime.getD (context.currentTime / 1000)⌋

inductive CltvMaturity
  | satisfied
  | pending
  | unknown
  deriving DecidableEq, Repr

def cltvMaturity (context : PathContext) (locktime : ℤ) : CltvMaturity :=
  if locktime < CLTV_HEIGHT_THRESHOLD then
    match context.blockHeight with
    | none => .unknown
    | some blockHeight => if locktime ≤ blockHeight then .satisfied else .pending
  else if locktime ≤ nowSeconds context then .satisfied
  else .pending

def isCltvSatisfied (context : PathContext) (locktime : ℤ) : Bool :=
  cltvMaturity context locktime = .satisfied

variable (L : Libraries)

def sequenceBits : Number → ℤ
  | .finite q => Number.trunc q
  | _ => 0

/-- `Number(text)`. -/
def numberParam (text : Option String) : Number := (text.map JsCoercion.stringToNumber).getD .nan

/-- A delay runs from the block that confirmed the coin. -/
def isCsvSpendable (context : PathContext) (sequence : Option Number) : Except Message Bool :=
  match sequence with
  | none => .ok true
  | some sequence => match context.vtxo with
    | none => .ok false
    | some vtxo => do
      let timelock ← sequenceToTimelock L (sequenceBits sequence)
      match timelock.type with
      | .blocks => match context.blockHeight, vtxo.blockHeight with
        | some blockHeight, some confirmed => return timelock.value ≤ blockHeight - confirmed
        | _, _ => return false
      | .seconds => match vtxo.blockTime with
        | some blockTime => return timelock.value ≤ nowSeconds context - blockTime
        | none => return false

structure ForfeitExitScript where
  forfeit : Bytes
  exit : Bytes

def exitSequence (contract : Contract) : Option Number :=
  (givenText (contract.params.lookup "csvTimelock")).map JsCoercion.stringToNumber

def selectForfeitOrExitPath (script : ForfeitExitScript) (contract : Contract)
    (context : PathContext) : Except Message (Option PathSelection) :=
  if context.collaborative then .ok (some ⟨script.forfeit, none, none⟩)
  else do
    let sequence := exitSequence contract
    if !(← isCsvSpendable L context sequence) then return none
    return some ⟨script.exit, none, sequence⟩

def forfeitExitAllPaths (script : ForfeitExitScript) (contract : Contract)
    (context : PathContext) : List PathSelection :=
  (if context.collaborative then [⟨script.forfeit, none, none⟩] else []) ++
    [⟨script.exit, none, exitSequence contract⟩]

def forfeitExitSpendablePaths (script : ForfeitExitScript) (contract : Contract)
    (context : PathContext) : Except Message (List PathSelection) := do
  let paths := if context.collaborative then [⟨script.forfeit, none, none⟩] else []
  let sequence := exitSequence contract
  if ← isCsvSpendable L context sequence then
    return paths ++ [⟨script.exit, none, sequence⟩]
  else return paths

/-- The default stands in for a delay that the row leaves out. -/
def deserializeCsvTimelock (value : Option String) : Except Message RelativeTimelock :=
  match givenText value with
  | some value => sequenceToTimelock L (VHTLC.toSequence (some value))
  | none => .ok ⟨144, .blocks⟩

namespace DefaultContractHandler

def deserializeParams (params : VHTLC.Params) : Except Message DefaultVtxo.Options := do
  let pubKey ← extractPubKeyBytes expandKey (params.lookup "pubKey")
  let serverPubKey ← extractPubKeyBytes expandKey (params.lookup "serverPubKey")
  let csvTimelock ← deserializeCsvTimelock L (params.lookup "csvTimelock")
  return ⟨pubKey, serverPubKey, csvTimelock⟩

def createScript (params : VHTLC.Params) : Except Message DefaultVtxo.Script := do
  let typed ← deserializeParams expandKey L params
  DefaultVtxo.Script.new L typed

def leaves (script : DefaultVtxo.Script) : ForfeitExitScript :=
  ⟨script.forfeitScript, script.exitScript⟩

end DefaultContractHandler

def DefaultContractHandler : PathHandler DefaultVtxo.Script where
  createScript := DefaultContractHandler.createScript expandKey L
  selectPath script := selectForfeitOrExitPath L (DefaultContractHandler.leaves script)
  getAllSpendingPaths script contract context :=
    .ok (forfeitExitAllPaths (DefaultContractHandler.leaves script) contract context)
  getSpendablePaths script := forfeitExitSpendablePaths L (DefaultContractHandler.leaves script)

/-- Every call is passed on. -/
def BoardingContractHandler : PathHandler DefaultVtxo.Script where
  createScript := (DefaultContractHandler expandKey L).createScript
  selectPath := (DefaultContractHandler expandKey L).selectPath
  getAllSpendingPaths := (DefaultContractHandler expandKey L).getAllSpendingPaths
  getSpendablePaths := (DefaultContractHandler expandKey L).getSpendablePaths

namespace DelegateVtxo

structure Options extends DefaultVtxo.Options where
  delegatePubKey : Bytes
  deriving DecidableEq

structure Script where
  options : Options
  defaultVtxo : DefaultVtxo.Script
  delegateScript : Bytes
  deriving DecidableEq

def Script.new (options : Options) : Except Message Script := do
  let defaultVtxo ← DefaultVtxo.Script.new L options.toOptions
  let delegate ← MultisigTapscript.encode L
    ⟨[options.pubKey, options.delegatePubKey, options.serverPubKey], none⟩
  return ⟨options, defaultVtxo, delegate.script⟩

end DelegateVtxo

namespace DelegateContractHandler

def deserializeParams (params : VHTLC.Params) : Except Message DelegateVtxo.Options := do
  let pubKey ← extractPubKeyBytes expandKey (params.lookup "pubKey")
  let serverPubKey ← extractPubKeyBytes expandKey (params.lookup "serverPubKey")
  let delegatePubKey ← extractPubKeyBytes expandKey (params.lookup "delegatePubKey")
  let csvTimelock ← deserializeCsvTimelock L (params.lookup "csvTimelock")
  return ⟨⟨pubKey, serverPubKey, csvTimelock⟩, delegatePubKey⟩

def createScript (params : VHTLC.Params) : Except Message DelegateVtxo.Script := do
  let typed ← deserializeParams expandKey L params
  DelegateVtxo.Script.new L typed

def leaves (script : DelegateVtxo.Script) : ForfeitExitScript :=
  DefaultContractHandler.leaves script.defaultVtxo

end DelegateContractHandler

/-- The delegate's leaf is listed, and never chosen. -/
def DelegateContractHandler : PathHandler DelegateVtxo.Script where
  createScript := DelegateContractHandler.createScript expandKey L
  selectPath script := selectForfeitOrExitPath L (DelegateContractHandler.leaves script)
  getAllSpendingPaths script contract context :=
    .ok (forfeitExitAllPaths (DelegateContractHandler.leaves script) contract context ++
      if context.collaborative then [⟨script.delegateScript, none, none⟩] else [])
  getSpendablePaths script := forfeitExitSpendablePaths L (DelegateContractHandler.leaves script)

end ArkadeSdk.Paths
