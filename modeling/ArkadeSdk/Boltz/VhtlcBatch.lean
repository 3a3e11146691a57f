import ArkadeSdk.Lib.LabelledRun
import ArkadeSdk.Wallet.BatchJoin

/-! The batch that claims or refunds the output of a swap: `joinBatch` and its handler. -/

namespace ArkadeSdk.VhtlcBatch

open WireFormat JsNumber BatchTree Batch LabelledRun

structure ArkTxInput where
  txid : Txid
  vout : ℕ
  value : ℤ
  tapTree : Bytes
  deriving DecidableEq

structure Libraries where
  txs : TxLibrary
  keys : CosignerLibrary
  addresses : AddressLibrary
  tapscript : ArkadeSdk.Libraries
  tapLeafHash : Bytes → Bytes
  vtxoPkScript : Bytes → Except Message Bytes

/-- What `createVHTLCBatchHandler` closes over. `session` is the public key of the signing session,
and the network is told by its prefix. -/
structure Handler where
  intentIdHash : String
  vhtlc : ArkTxInput
  session : Option Bytes
  sweepPublicKey : Bytes
  bech32 : String
  recipient : Option Recipient
  forfeitOutputScript : Option Bytes
  connectorIndex : ℕ

/-- What the provider, the signing session and the identity answer while one event is handled:
`getInfo` the tree expiry it advertises, `submitTreeNonces` for all that the session does before. -/
structure Answers where
  getInfo : Except Message (Option ℤ)
  confirmRegistration : Except Message Unit
  submitTreeNonces : Except Message Unit
  aggregatedNonces : Except Message Bool
  submitTreeSignatures : Except Message Unit
  signForfeit : Except Message Unit
  submitSignedForfeitTxs : Except Message Unit
  signatureDecodes : Bool

/-- What the handler did: confirmed a batch with a sweep root for its expiry, checked a tree and
its commitment transaction, handed a forfeit over. -/
inductive Entry
  | joined (batchExpiry : ℤ) (vtxoTreeExpiry : Option ℤ) (sweepTapTreeRoot : Bytes)
  | validated (vtxoTree : TxTree) (commitmentTx : Transaction) (sweepTapTreeRoot : Bytes)
  | submitted (commitmentTx : Transaction) (forfeitTx : Transaction) (connectorTree : TxTree)

structure Vars where
  sweepTapTreeRoot : Option Bytes
  validatedCommitmentTxid : Option Txid
  log : List Entry

def Vars.initial : Vars := ⟨none, none, []⟩

section

variable (lib : Libraries) (handler : Handler)

def sweepRoot (batchExpiry : ℤ) (vtxoTreeExpiry : Option ℤ) : Except Message Bytes := do
  let timelock ← assertValidBatchExpiry batchExpiry
    (resolveBatchExpiryPolicy handler.bech32 vtxoTreeExpiry)
  let sweepTapscript ← CSVMultisigTapscript.encode lib.tapscript
    ⟨⟨[handler.sweepPublicKey], none⟩, timelock⟩
  return lib.tapLeafHash sweepTapscript.script

/-- The expiry is bounded before the registration is confirmed. -/
def onBatchStarted (answers : Answers) (intentIdHashes : List String) (batchExpiry : ℤ)
    (v : Vars) : Vars × Except Message Bool :=
  if handler.intentIdHash ∉ intentIdHashes then (v, .ok true)
  else
    let started : Except Message (Option ℤ × Bytes) := do
      let vtxoTreeExpiry ← answers.getInfo
      let root ← sweepRoot lib handler batchExpiry vtxoTreeExpiry
      answers.confirmRegistration
      return (vtxoTreeExpiry, root)
    match started with
    | .error e => (v, .error e)
    | .ok (vtxoTreeExpiry, root) =>
      ({ v with
          sweepTapTreeRoot := some root
          log := .joined batchExpiry vtxoTreeExpiry root :: v.log }, .ok false)

/-- `k.slice(2)`, in UTF-16 units; `none` where that cuts a character in two. -/
def sliceTwo (k : String) : Option String :=
  match k.toList with
  | [] | [_] => some ""
  | c :: d :: rest =>
    if 0x10000 ≤ c.val then some (String.ofList (d :: rest))
    else if 0x10000 ≤ d.val then none
    else some (String.ofList rest)

/-- The checks of the tree, up to the use of the session: `none` where the wallet is no cosigner. -/
def checkTree (sweepTapTreeRoot : Option Bytes) (cosignersPublicKeys : List String)
    (unsignedCommitmentTx : String) (vtxoTree : TxTree) :
    Except Message (Option (Transaction × Bytes)) :=
  match handler.session with
  | none => .ok none
  | some signerPublicKey =>
    match sweepTapTreeRoot with
    | none => .error (message "Sweep tap tree root not set")
    | some root => do
      let xonlySignerPublicKey := lib.addresses.hex.encode (signerPublicKey.drop 1)
      if some xonlySignerPublicKey ∉ cosignersPublicKeys.map sliceTwo then return none
      let commitmentTx ← lib.txs.fromPSBT unsignedCommitmentTx
      validateVtxoTxGraph lib.txs lib.keys vtxoTree commitmentTx root
      if let some recipient := handler.recipient then
        validateBatchRecipients lib.addresses commitmentTx vtxoTree.leaves [recipient]
      return some (commitmentTx, root)

/-- The txid is recorded before the shared output is looked at. -/
def onTreeSigningStarted (answers : Answers) (cosignersPublicKeys : List String)
    (unsignedCommitmentTx : String) (vtxoTree : TxTree) (v : Vars) : Vars × Except Message Bool :=
  match checkTree lib handler v.sweepTapTreeRoot cosignersPublicKeys unsignedCommitmentTx
    vtxoTree with
  | .error e => (v, .error e)
  | .ok none => (v, .ok true)
  | .ok (some (commitmentTx, root)) =>
    let v := { v with
      validatedCommitmentTxid := some (lib.txs.id commitmentTx)
      log := .validated vtxoTree commitmentTx root :: v.log }
    match commitmentTx.outputs with
    | [] => (v, .error (message "Wrong output index=0"))
    | sharedOutput :: _ =>
      if sharedOutput.amount.getD 0 = 0 then (v, .error (message "Shared output not found"))
      else (v, answers.submitTreeNonces.map fun () ↦ false)

def onTreeNonces (answers : Answers) (v : Vars) : Vars × Except Message Bool :=
  match handler.session with
  | none => (v, .ok true)
  | some _ => (v, do
      let hasAllNonces ← answers.aggregatedNonces
      if !hasAllNonces then return false
      answers.submitTreeSignatures
      return true)

def createForfeitTx (input : ArkTxInput) (forfeitOutputScript : Bytes) (connector : Transaction) :
    Except Message Transaction :=
  match connector.outputs with
  | [] => .error (message "connector output not found")
  | connectorOutput :: _ =>
    match connectorOutput.amount, connectorOutput.script with
    | none, _ | some 0, _ | _, none => .error (message "invalid connector output")
    | some connectorAmount, some connectorPkScript => do
      let pkScript ← lib.vtxoPkScript input.tapTree
      return buildForfeitTx
        [⟨some input.txid, some input.vout, some ⟨some pkScript, some input.value⟩⟩,
          ⟨some (lib.txs.id connector), some 0,
            some ⟨some connectorPkScript, some connectorAmount⟩⟩] forfeitOutputScript

/-- The forfeit that is ready to be handed over, with the commitment transaction and the connectors
that it was built for. -/
def buildForfeit (answers : Answers) (forfeitOutputScript : Bytes) (commitmentTx : String)
    (connectorTree : Option TxTree) (validatedCommitmentTxid : Option Txid) :
    Except Message (Transaction × Transaction × TxTree) := do
  match validatedCommitmentTxid with
  | none =>
    throw (message "BatchFinalizationEvent: commitment tx was not validated at tree signing")
  | some txid =>
    let finalCommitmentTx ← lib.txs.fromPSBT commitmentTx
    assertFinalCommitmentMatchesValidated lib.txs finalCommitmentTx (some txid)
      "vhtlc batch finalization"
    match connectorTree with
    | none => throw (message "BatchFinalizationEvent: expected connector tree to be defined")
    | some connectors =>
      validateConnectorsTxGraph lib.txs commitmentTx connectors
      match connectors.leaves[handler.connectorIndex]? with
      | none =>
        throw [.text "BatchFinalizationEvent: expected connector tree has ",
          .value (.ofNat connectors.leaves.length), .text " leaves, expected at least ",
          .value (.ofNat (handler.connectorIndex + 1))]
      | some connector =>
        let forfeitTx ← createForfeitTx lib handler.vhtlc forfeitOutputScript connector
        answers.signForfeit
        return (finalCommitmentTx, forfeitTx, connectors)

/-- Without a forfeit to give, nothing of the event is looked at. -/
def onBatchFinalization (answers : Answers) (commitmentTx : String) (connectorTree : Option TxTree)
    (v : Vars) : Vars × Except Message Unit :=
  match handler.forfeitOutputScript with
  | none => (v, .ok ())
  | some forfeitOutputScript =>
    match buildForfeit lib handler answers forfeitOutputScript commitmentTx connectorTree
      v.validatedCommitmentTxid with
    | .error e => (v, .error e)
    | .ok (finalCommitmentTx, forfeitTx, connectors) =>
      ({ v with log := .submitted finalCommitmentTx forfeitTx connectors :: v.log },
        answers.submitSignedForfeitTxs)

def createVHTLCBatchHandler : Callbacks Vars Answers where
  onBatchStarted := onBatchStarted lib handler
  onTreeSigningStarted := onTreeSigningStarted lib handler
  onTreeNonces := onTreeNonces handler
  onBatchFinalization := onBatchFinalization lib handler
  signatureDecodes := Answers.signatureDecodes

end

/-- What `joinBatch` is called with, and the values it reads off its session and the operator's
info. -/
structure JoinBatch where
  input : ArkTxInput
  isRecoverable : Bool
  recipient : Recipient
  intentIdHash : String
  signerPublicKey : Bytes
  forfeitPubkey : Bytes
  forfeitOutputScript : Bytes
  bech32 : String

def JoinBatch.handler (call : JoinBatch) : Handler where
  intentIdHash := call.intentIdHash
  vhtlc := call.input
  session := some call.signerPublicKey
  sweepPublicKey := call.forfeitPubkey
  bech32 := call.bech32
  recipient := some call.recipient
  forfeitOutputScript := if call.isRecoverable then none else some call.forfeitOutputScript
  connectorIndex := 0

/-- An event of the stream while `joinBatch` waits in `Batch.join`. -/
def joinBatchStep (lib : Libraries) (call : JoinBatch) :
    JoinState Vars → SettlementEvent × Answers → Option (JoinState Vars) :=
  joinStep lib.txs false (createVHTLCBatchHandler lib call.handler)

end ArkadeSdk.VhtlcBatch
