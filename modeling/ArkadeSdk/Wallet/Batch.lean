import ArkadeSdk.Lib.LabelledRun
import ArkadeSdk.Wallet.BatchRecipients

/-! `Batch.join` over the handler that settlements use. -/

namespace ArkadeSdk.Batch

open WireFormat JsNumber BatchTree

/-- The facts of a virtual output that its recoverability is read from, and their legacy form. -/
structure VirtualFacts where
  isSpent : Option Bool
  isSwept : Option Bool
  spentBy : Option String
  settledBy : Option String
  expiresAt : Option ℤ
  expiresAtHeight : Option ℤ
  state : Option String
  batchExpiry : Option ℤ
  deriving DecidableEq

/-- `virtualFacts` is there when `script` is a string, which makes the coin a virtual one. -/
structure ExtendedCoin where
  txid : Txid
  vout : ℕ
  value : ℤ
  tapTree : Bytes
  virtualFacts : Option VirtualFacts
  deriving DecidableEq

def EXPIRY_MIN_PLAUSIBLE_MS : ℤ := 1735689600000

def parseLegacyExpiry (batchExpiry : Option ℤ) : Option ℤ :=
  batchExpiry.filter fun n ↦ 0 < n && EXPIRY_MIN_PLAUSIBLE_MS ≤ n

namespace VirtualFacts

/-- `normalizeVtxo`: what is missing is derived from the legacy status. -/
def spent (v : VirtualFacts) : Bool := v.isSpent.getD (v.state = some "spent")

def swept (v : VirtualFacts) : Bool := v.isSwept.getD (v.state = some "swept")

def expiry (v : VirtualFacts) : Option ℤ :=
  if v.expiresAt.isSome || v.expiresAtHeight.isSome then v.expiresAt
  else parseLegacyExpiry v.batchExpiry

def nonEmpty (s : Option String) : Bool := s.any (· ≠ "")

def hasTerminalSpend (v : VirtualFacts) : Bool :=
  v.spent || nonEmpty v.spentBy || nonEmpty v.settledBy

/-- At a timestamp alone; an expiry height is not looked at. -/
def isPastExpiry (v : VirtualFacts) (now : ℤ) : Bool := v.expiry.any (· ≤ now)

def canRecoverOnchain (v : VirtualFacts) (now : ℤ) : Bool :=
  !v.hasTerminalSpend && (v.swept || v.isPastExpiry now)

end VirtualFacts

inductive SettlementEvent
  | batchStarted (intentIdHashes : List String) (batchExpiry : ℤ)
  | batchFinalized (commitmentTxid : Txid)
  | batchFailed (reason : String)
  | treeTx (batchIndex : ℕ) (chunk : TxTreeNode)
  | treeSignature (txid : Txid)
  | treeSigningStarted (cosignersPublicKeys : List String) (unsignedCommitmentTx : String)
  | treeNonces
  | batchFinalization (commitmentTx : String)
  | other

/-- What the signer makes of an input: it rejects, or returns the transaction with that input
signed or skipped. -/
inductive Signing
  | rejects
  | skips
  | signs
  deriving DecidableEq

/-- The rest of the world while one event is handled: which calls resolve, what they answer, and
the clock when input `i` is looked at. -/
structure Answers where
  confirmRegistration : Bool
  session : Bool
  hasAllNonces : Bool
  signatureDecodes : Bool
  now : ℕ → ℤ
  signBoarding : ℕ → Signing
  signForfeit : ℕ → Bool
  submitSignedForfeitTxs : Bool

/-- The libraries below the handler. `sweepTapTreeRoot` is the hash of the sweep leaf for a batch
expiry that the policy admits, and `xOnly` the hexadecimal form of a public key. -/
structure Libraries where
  txs : TxLibrary
  keys : CosignerLibrary
  addresses : AddressLibrary
  sweepTapTreeRoot : ℤ → Except Message Bytes
  xOnly : String → Except Message String
  vtxoPkScript : Bytes → Except Message Bytes

/-- What `createBatchHandler` closes over and `join` is called with. `session` is the public key of
the signing session. -/
structure Handler where
  intentIdHash : String
  inputs : List ExtendedCoin
  expectedRecipients : List Recipient
  session : Option String
  skipVtxoTreeSigning : Bool
  forfeitOutputScript : Option Bytes
  dustAmount : ℤ

inductive Step
  | start
  | batchStarted
  | treeSigningStarted
  | treeNoncesAggregated
  | batchFinalization
  deriving DecidableEq

/-- What the handler did: joined a batch, checked a tree and its commitment transaction, handed
signed transactions over. -/
inductive Entry
  | joined
  | validated (vtxoTree : TxTree) (commitmentTx : Transaction) (sweepTapTreeRoot : Bytes)
  | submitted (commitmentTx : Transaction) (now : ℕ → ℤ) (forfeits : List Transaction)
    (connectorTree : Option TxTree)

/-- The variables of `join` and of the handler. `ended` is after a return or a throw. -/
structure State where
  step : Step
  flatVtxoTree : List TxTreeNode
  flatConnectorTree : List TxTreeNode
  vtxoTree : Option TxTree
  connectorTree : Option TxTree
  sweepTapTreeRoot : Option Bytes
  validatedCommitmentTxid : Option Txid
  ended : Bool
  log : List Entry

def initial : State := ⟨.start, [], [], none, none, none, none, false, []⟩

def ANCHOR : TxOutput := ⟨some [0x51, 0x02, 0x4e, 0x73], some 0⟩

def buildForfeitTx (inputs : List TxInput) (forfeitPkScript : Bytes) : Transaction :=
  ⟨inputs, [⟨some forfeitPkScript,
    some (inputs.map fun input ↦ (input.witnessUtxo.bind (·.amount)).getD 0).sum⟩, ANCHOR]⟩

def assertFinalCommitmentMatchesValidated (lib : TxLibrary) (finalCommitmentTx : Transaction)
    (validatedCommitmentTxid : Option Txid) (context : String) : Except Message Unit :=
  match validatedCommitmentTxid with
  | none => .ok ()
  | some txid => rejectIf (lib.id finalCommitmentTx ≠ txid)
    (message (context ++ ": finalization commitment tx " ++ lib.id finalCommitmentTx ++
      " differs from the validated commitment tx " ++ txid))

def signBoardingInput (coin : ExtendedCoin) (signing : Signing) : List TxInput → Except Message Bool
  | [] => .ok false
  | input :: rest =>
    match input.txid, input.index with
    | some txid, some index =>
      if txid = coin.txid ∧ index = coin.vout then
        match input.witnessUtxo.bind (·.script), signing with
        | none, _ => .error (message ("The server returned incomplete data. " ++
            "Settlement input is missing witnessUtxo.script"))
        | some _, .rejects => .error (message "signing rejected")
        | some _, .skips => .error [.text ("failed to sign boarding input " ++ coin.txid ++ ":"),
            .value (.ofNat coin.vout)]
        | some _, .signs => .ok true
      else signBoardingInput coin signing rest
    | _, _ => .error (message ("The server returned incomplete data. " ++
        "No settlement input found in the PSBT"))

/-- Whether a coin is one to forfeit: neither a boarding input, nor recoverable, nor subdust. -/
def forfeitable (dustAmount : ℤ) (now : ℤ) (coin : ExtendedCoin) : Bool :=
  coin.virtualFacts.any fun v ↦ !v.canRecoverOnchain now && !decide (coin.value < dustAmount)

def forfeitOf (lib : Libraries) (forfeitOutputScript : Bytes) (coin : ExtendedCoin)
    (connectorLeaf : Transaction) : Except Message Transaction := do
  match connectorLeaf.outputs with
  | [] => throw (message "connector output not found")
  | connectorOutput :: _ =>
    match connectorOutput.amount, connectorOutput.script with
    | none, _ | some 0, _ | _, none => throw (message "invalid connector output")
    | some connectorAmount, some connectorPkScript =>
      let pkScript ← lib.vtxoPkScript coin.tapTree
      return buildForfeitTx
        [⟨some coin.txid, some coin.vout, some ⟨some pkScript, some coin.value⟩⟩,
          ⟨some (lib.txs.id connectorLeaf), some 0,
            some ⟨some connectorPkScript, some connectorAmount⟩⟩] forfeitOutputScript

/-- The loop over the inputs, from input `i` and connector `connectorIndex` on: the forfeits, and
whether there are boarding inputs. -/
def forfeitLoop (lib : Libraries) (handler : Handler) (answers : Answers) (settlement : Transaction)
    (forfeitOutputScript : Bytes) (connectorsLeaves : List Transaction) (i connectorIndex : ℕ) :
    List ExtendedCoin → Except Message (List Transaction × Bool)
  | [] => .ok ([], false)
  | coin :: rest => do
    if coin.virtualFacts.isNone then
      let signed ← signBoardingInput coin (answers.signBoarding i) settlement.inputs
      let (forfeits, hasBoardingUtxos) ← forfeitLoop lib handler answers settlement
        forfeitOutputScript connectorsLeaves (i + 1) connectorIndex rest
      return (forfeits, signed || hasBoardingUtxos)
    else if !forfeitable handler.dustAmount (answers.now i) coin then
      forfeitLoop lib handler answers settlement forfeitOutputScript connectorsLeaves (i + 1)
        connectorIndex rest
    else
      rejectIf (connectorsLeaves.length = 0) (message "connectors not received")
      match connectorsLeaves[connectorIndex]? with
      | none => throw (message "not enough connectors received")
      | some connectorLeaf =>
        let forfeitTx ← forfeitOf lib forfeitOutputScript coin connectorLeaf
        rejectIf (answers.signForfeit i = false) (message "signing rejected")
        let (forfeits, hasBoardingUtxos) ← forfeitLoop lib handler answers settlement
          forfeitOutputScript connectorsLeaves (i + 1) (connectorIndex + 1) rest
        return (forfeitTx :: forfeits, hasBoardingUtxos)

/-- Everything up to the submission: the settlement transaction, the forfeits, and whether there
are boarding inputs. -/
def handleSettlementFinalizationEvent (lib : Libraries) (handler : Handler) (answers : Answers)
    (commitmentTx : String) (forfeitOutputScript : Bytes) (connectorsGraph : Option TxTree)
    (validatedCommitmentTxid : Option Txid) :
    Except Message (Transaction × List Transaction × Bool) := do
  let settlementPsbt ← lib.txs.fromPSBT commitmentTx
  assertFinalCommitmentMatchesValidated lib.txs settlementPsbt validatedCommitmentTxid
    "settlement finalization"
  if validatedCommitmentTxid.isNone && 0 < handler.expectedRecipients.length then
    validateBatchRecipientsWithoutTree lib.addresses settlementPsbt handler.expectedRecipients
  let connectorsLeaves := (connectorsGraph.map TxTree.leaves).getD []
  let (forfeits, hasBoardingUtxos) ← forfeitLoop lib handler answers settlementPsbt
    forfeitOutputScript connectorsLeaves 0 0 handler.inputs
  return (settlementPsbt, forfeits, hasBoardingUtxos)

/-- `onBatchStarted` where it does not skip: the new sweep root. -/
def onBatchStarted (lib : Libraries) (answers : Answers) (batchExpiry : ℤ) :
    Except Message Bytes := do
  let root ← lib.sweepTapTreeRoot batchExpiry
  rejectIf (answers.confirmRegistration = false) (message "confirmation rejected")
  return root

/-- `onTreeSigningStarted` up to the use of the session: the commitment transaction that it has
checked, or `none` where it skips. -/
def onTreeSigningStarted (lib : Libraries) (handler : Handler) (sweepTapTreeRoot : Option Bytes)
    (cosignersPublicKeys : List String) (unsignedCommitmentTx : String) (vtxoTree : TxTree) :
    Except Message (Option (Transaction × Bytes)) :=
  match handler.session with
  | none => .ok none
  | some signerPublicKey =>
    match sweepTapTreeRoot with
    | none => .error (message "Sweep tap tree root not set")
    | some root => do
      let xOnlyPublicKeys ← cosignersPublicKeys.mapM lib.xOnly
      let xonlySignerPublicKey ← lib.xOnly signerPublicKey
      if xonlySignerPublicKey ∉ xOnlyPublicKeys then return none
      let commitmentTx ← lib.txs.fromPSBT unsignedCommitmentTx
      validateVtxoTxGraph lib.txs lib.keys vtxoTree commitmentTx root
      if 0 < handler.expectedRecipients.length then
        validateBatchRecipients lib.addresses commitmentTx vtxoTree.leaves
          handler.expectedRecipients
      match commitmentTx.outputs with
      | [] => throw (message "Wrong output index=0")
      | sharedOutput :: _ =>
        rejectIf (sharedOutput.amount.getD 0 = 0) (message "Shared output not found")
        return some (commitmentTx, root)

/-- `onBatchFinalization` up to the submission. -/
def onBatchFinalization (lib : Libraries) (handler : Handler) (answers : Answers)
    (commitmentTx : String) (connectorTree : Option TxTree)
    (validatedCommitmentTxid : Option Txid) :
    Except Message (Transaction × List Transaction × Bool) :=
  match handler.forfeitOutputScript with
  | none => .error (message "Forfeit output script not set")
  | some forfeitOutputScript => do
    if let some tree := connectorTree then
      validateConnectorsTxGraph lib.txs commitmentTx tree
    handleSettlementFinalizationEvent lib handler answers commitmentTx forfeitOutputScript
      connectorTree validatedCommitmentTxid

def State.throws (s : State) : State := { s with ended := true }

/-- `TxTree.create` of the chunks received so far, where there are any. -/
def createFrom (lib : TxLibrary) (chunks : List TxTreeNode) (present : Option TxTree) :
    Except Message (Option TxTree) :=
  if chunks = [] then .ok present else some <$> TxTree.create lib chunks

def treeSigning (lib : Libraries) (handler : Handler) (answers : Answers) (s : State)
    (cosignersPublicKeys : List String) (unsignedCommitmentTx : String) : State :=
  match TxTree.create lib.txs s.flatVtxoTree with
  | .error _ => s.throws
  | .ok vtxoTree =>
    let s := { s with vtxoTree := some vtxoTree }
    match onTreeSigningStarted lib handler s.sweepTapTreeRoot cosignersPublicKeys
      unsignedCommitmentTx vtxoTree with
    | .error _ => s.throws
    | .ok none => s
    | .ok (some (commitmentTx, root)) => { s with
        validatedCommitmentTxid := some (lib.txs.id commitmentTx)
        log := .validated vtxoTree commitmentTx root :: s.log
        step := if answers.session then .treeSigningStarted else s.step
        ended := !answers.session }

def treeNonces (handler : Handler) (answers : Answers) (s : State) : State :=
  match handler.session with
  | none => { s with step := .treeNoncesAggregated }
  | some _ =>
    if answers.session = false then s.throws
    else if answers.hasAllNonces then { s with step := .treeNoncesAggregated } else s

def finalization (lib : Libraries) (handler : Handler) (answers : Answers) (s : State)
    (commitmentTx : String) : State :=
  let trees : Except Message (Option TxTree × Option TxTree) := do
    let vtxoTree ← if s.vtxoTree.isSome then .ok s.vtxoTree else
      createFrom lib.txs s.flatVtxoTree none
    rejectIf (vtxoTree.isNone && !handler.skipVtxoTreeSigning) (message "vtxo tree not initialized")
    let connectorTree ← createFrom lib.txs s.flatConnectorTree s.connectorTree
    return (vtxoTree, connectorTree)
  match trees with
  | .error _ => s.throws
  | .ok (vtxoTree, connectorTree) =>
    let s := { s with vtxoTree := vtxoTree, connectorTree := connectorTree }
    match onBatchFinalization lib handler answers commitmentTx connectorTree
      s.validatedCommitmentTxid with
    | .error _ => s.throws
    | .ok (settlementPsbt, forfeits, hasBoardingUtxos) =>
      if forfeits ≠ [] ∨ hasBoardingUtxos = true then { s with
        log := .submitted settlementPsbt answers.now forfeits connectorTree :: s.log
        step := if answers.submitSignedForfeitTxs then .batchFinalization else s.step
        ended := !answers.submitSignedForfeitTxs }
      else { s with step := .batchFinalization }

/-- One event of the stream, while `join` runs. -/
def step (lib : Libraries) (handler : Handler) (s : State) (input : SettlementEvent × Answers) :
    Option State :=
  let (event, answers) := input
  if s.ended then none else some <| match event with
  | .batchStarted intentIdHashes batchExpiry =>
    if handler.intentIdHash ∉ intentIdHashes then s
    else match onBatchStarted lib answers batchExpiry with
      | .error _ => s.throws
      | .ok root => { s with
          sweepTapTreeRoot := some root
          log := .joined :: s.log
          step := if handler.skipVtxoTreeSigning then .treeNoncesAggregated else .batchStarted }
  | .batchFinalized _ => if s.step = .batchFinalization then { s with ended := true } else s
  | .batchFailed _ => s.throws
  | .treeTx batchIndex chunk =>
    if s.step = .batchStarted ∨ s.step = .treeNoncesAggregated then
      if batchIndex = 0 then { s with flatVtxoTree := s.flatVtxoTree ++ [chunk] }
      else { s with flatConnectorTree := s.flatConnectorTree ++ [chunk] }
    else s
  | .treeSignature txid =>
    if s.step = .treeNoncesAggregated then
      match s.vtxoTree with
      | none => s.throws
      | some tree =>
        if answers.signatureDecodes && TxTree.hasTx lib.txs.id txid tree then s else s.throws
    else s
  | .treeSigningStarted cosignersPublicKeys unsignedCommitmentTx =>
    if s.step = .batchStarted then
      treeSigning lib handler answers s cosignersPublicKeys unsignedCommitmentTx
    else s
  | .treeNonces => if s.step = .treeSigningStarted then treeNonces handler answers s else s
  | .batchFinalization commitmentTx =>
    if s.step = .treeNoncesAggregated then finalization lib handler answers s commitmentTx else s
  | .other => s

end ArkadeSdk.Batch
