import ArkadeSdk.Script.Tapscript
import ArkadeSdk.Wallet.Batch

/-! `Batch.join` over any handler, and the bounds on the expiry of a batch. -/

namespace ArkadeSdk.Batch

open WireFormat JsNumber BatchTree

/-- `network.bech32 === "bcrt"` -/
def isRegtest (bech32 : String) : Bool := bech32 = "bcrt"

def NOMINAL_BLOCK_SECONDS : ℤ := 600

def DEFAULT_MIN_BATCH_EXPIRY_SECONDS : ℤ := 86400

def REGTEST_MIN_BATCH_EXPIRY_SECONDS : ℤ := 6000

structure BatchExpiryPolicy where
  minSeconds : ℤ
  requireSeconds : Bool
  advertisedVtxoTreeExpiry : Option ℤ
  deriving DecidableEq

def toTimelock (value : ℤ) : RelativeTimelock :=
  ⟨value, if 512 ≤ value then .seconds else .blocks⟩

def toSeconds (t : RelativeTimelock) : ℤ :=
  if t.type = .seconds then t.value else t.value * NOMINAL_BLOCK_SECONDS

def TimelockType.text : TimelockType → String
  | .seconds => "seconds"
  | .blocks => "blocks"

def assertTimelockInPolicy (timelock : RelativeTimelock) (policy : BatchExpiryPolicy)
    (label overrideOption : String) : Except Message RelativeTimelock := do
  rejectIf (policy.requireSeconds && timelock.type = .blocks)
    [.text (label ++ " rejected: block-typed timelocks are not accepted (got "),
      .value (.ofInt timelock.value), .text ")"]
  let seconds := toSeconds timelock
  rejectIf (seconds < policy.minSeconds)
    [.text (label ++ " rejected: "), .value (.ofInt timelock.value),
      .text (" " ++ TimelockType.text timelock.type ++ " is below the "),
      .value (.ofInt policy.minSeconds),
      .text ("s floor; pass " ++ overrideOption ++ ": "), .value (.ofInt seconds),
      .text "n to Wallet.create to lower it"]
  return timelock

def assertTimelockWithinFloor (value : ℤ) (policy : BatchExpiryPolicy)
    (label overrideOption : String) : Except Message RelativeTimelock :=
  assertTimelockInPolicy (toTimelock value) policy label overrideOption

def defaultBatchExpiryPolicy (bech32 : String) : BatchExpiryPolicy :=
  if isRegtest bech32 then ⟨REGTEST_MIN_BATCH_EXPIRY_SECONDS, false, none⟩
  else ⟨DEFAULT_MIN_BATCH_EXPIRY_SECONDS, true, none⟩

/-- With the expiry that the operator advertises as the only override. -/
def resolveBatchExpiryPolicy (bech32 : String) (advertisedVtxoTreeExpiry : Option ℤ) :
    BatchExpiryPolicy :=
  { defaultBatchExpiryPolicy bech32 with advertisedVtxoTreeExpiry := advertisedVtxoTreeExpiry }

def assertValidBatchExpiry (batchExpiry : ℤ) (policy : BatchExpiryPolicy) :
    Except Message RelativeTimelock := do
  if let some advertised := policy.advertisedVtxoTreeExpiry then
    rejectIf (batchExpiry ≠ advertised)
      [.text "batch expiry rejected: ", .value (.ofInt batchExpiry),
        .text " does not match the advertised vtxoTreeExpiry ", .value (.ofInt advertised)]
  assertTimelockWithinFloor batchExpiry policy "batch expiry" "minBatchExpirySeconds"

/-- `Batch.Handler`: the callbacks, over the variables `σ` they close over and the answers `α` of
the rest of the world. One that throws leaves the variables as it had set them. -/
structure Callbacks (σ α : Type) where
  onBatchStarted : α → List String → ℤ → σ → σ × Except Message Bool
  onTreeSigningStarted : α → List String → String → TxTree → σ → σ × Except Message Bool
  onTreeNonces : α → σ → σ × Except Message Bool
  onBatchFinalization : α → String → Option TxTree → σ → σ × Except Message Unit
  signatureDecodes : α → Bool

/-- The variables of `join`, the handler's, and how it ended: the commitment txid that it returned
or what it threw. -/
structure JoinState (σ : Type) where
  step : Step
  flatVtxoTree : List TxTreeNode
  flatConnectorTree : List TxTreeNode
  vtxoTree : Option TxTree
  connectorTree : Option TxTree
  vars : σ
  outcome : Option (Except Message Txid)

namespace JoinState

variable {σ : Type}

def initial (vars : σ) : JoinState σ := ⟨.start, [], [], none, none, vars, none⟩

def throws (s : JoinState σ) (e : Message) : JoinState σ := { s with outcome := some (.error e) }

def returns (s : JoinState σ) (txid : Txid) : JoinState σ := { s with outcome := some (.ok txid) }

end JoinState

variable {σ α : Type} (txs : TxLibrary) (skipVtxoTreeSigning : Bool) (handler : Callbacks σ α)

def joinBatchStarted (answers : α) (s : JoinState σ) (intentIdHashes : List String)
    (batchExpiry : ℤ) : JoinState σ :=
  match handler.onBatchStarted answers intentIdHashes batchExpiry s.vars with
  | (vars, .error e) => { s with vars := vars }.throws e
  | (vars, .ok true) => { s with vars := vars }
  | (vars, .ok false) => { s with
      vars := vars
      step := if skipVtxoTreeSigning then .treeNoncesAggregated else .batchStarted }

def joinTreeSigning (answers : α) (s : JoinState σ) (cosignersPublicKeys : List String)
    (unsignedCommitmentTx : String) : JoinState σ :=
  match TxTree.create txs s.flatVtxoTree with
  | .error e => s.throws e
  | .ok vtxoTree =>
    let s := { s with vtxoTree := some vtxoTree }
    match handler.onTreeSigningStarted answers cosignersPublicKeys unsignedCommitmentTx vtxoTree
      s.vars with
    | (vars, .error e) => { s with vars := vars }.throws e
    | (vars, .ok true) => { s with vars := vars }
    | (vars, .ok false) => { s with vars := vars, step := .treeSigningStarted }

/-- The trees that `join` has at finalization. -/
def joinTrees (s : JoinState σ) : Except Message (Option TxTree × Option TxTree) := do
  let vtxoTree ← if s.vtxoTree.isSome then .ok s.vtxoTree else createFrom txs s.flatVtxoTree none
  rejectIf (vtxoTree.isNone && !skipVtxoTreeSigning) (message "vtxo tree not initialized")
  let connectorTree ← createFrom txs s.flatConnectorTree s.connectorTree
  return (vtxoTree, connectorTree)

def joinTreeNonces (answers : α) (s : JoinState σ) : JoinState σ :=
  match handler.onTreeNonces answers s.vars with
  | (vars, .error e) => { s with vars := vars }.throws e
  | (vars, .ok true) => { s with vars := vars, step := .treeNoncesAggregated }
  | (vars, .ok false) => { s with vars := vars }

def joinFinalization (answers : α) (s : JoinState σ) (commitmentTx : String) : JoinState σ :=
  match joinTrees txs skipVtxoTreeSigning s with
  | .error e => s.throws e
  | .ok (vtxoTree, connectorTree) =>
    let s := { s with vtxoTree := vtxoTree, connectorTree := connectorTree }
    match handler.onBatchFinalization answers commitmentTx connectorTree s.vars with
    | (vars, .error e) => { s with vars := vars }.throws e
    | (vars, .ok ()) => { s with vars := vars, step := .batchFinalization }

/-- One event of the stream, for a handler without the optional callbacks. -/
def joinStep (s : JoinState σ) (input : SettlementEvent × α) : Option (JoinState σ) :=
  let (event, answers) := input
  if s.outcome.isSome then none else some <| match event with
  | .batchStarted intentIdHashes batchExpiry =>
    joinBatchStarted skipVtxoTreeSigning handler answers s intentIdHashes batchExpiry
  | .batchFinalized commitmentTxid =>
    if s.step = .batchFinalization then s.returns commitmentTxid else s
  | .batchFailed reason => s.throws (message reason)
  | .treeTx batchIndex chunk =>
    if s.step = .batchStarted ∨ s.step = .treeNoncesAggregated then
      if batchIndex = 0 then { s with flatVtxoTree := s.flatVtxoTree ++ [chunk] }
      else { s with flatConnectorTree := s.flatConnectorTree ++ [chunk] }
    else s
  | .treeSignature txid =>
    if s.step = .treeNoncesAggregated then
      match s.vtxoTree with
      | none => s.throws (message "vtxo tree not initialized")
      | some tree =>
        if handler.signatureDecodes answers = false then s.throws (message "invalid signature")
        else if TxTree.hasTx txs.id txid tree then s
        else s.throws (message ("tx not found: " ++ txid))
    else s
  | .treeSigningStarted cosignersPublicKeys unsignedCommitmentTx =>
    if s.step = .batchStarted then
      joinTreeSigning txs handler answers s cosignersPublicKeys unsignedCommitmentTx
    else s
  | .treeNonces =>
    if s.step = .treeSigningStarted then joinTreeNonces handler answers s else s
  | .batchFinalization commitmentTx =>
    if s.step = .treeNoncesAggregated then
      joinFinalization txs skipVtxoTreeSigning handler answers s commitmentTx
    else s
  | .other => s

section Outcome

variable {txs skipVtxoTreeSigning handler} {answers : α} {s t : JoinState σ} {txid : Txid}

theorem joinBatchStarted_outcome (hrun : s.outcome = none) (intentIdHashes : List String)
    (batchExpiry : ℤ) : (joinBatchStarted skipVtxoTreeSigning handler answers s intentIdHashes
      batchExpiry).outcome ≠ some (.ok txid) := by
  unfold joinBatchStarted
  split
  · simp [JoinState.throws]
  · simp [hrun]
  · simp [hrun]

theorem joinTreeSigning_outcome (hrun : s.outcome = none) (cosigners : List String)
    (unsignedCommitmentTx : String) : (joinTreeSigning txs handler answers s cosigners
      unsignedCommitmentTx).outcome ≠ some (.ok txid) := by
  unfold joinTreeSigning
  split
  · simp [JoinState.throws]
  · dsimp only
    split
    · simp [JoinState.throws]
    · simp [hrun]
    · simp [hrun]

theorem joinTreeNonces_outcome (hrun : s.outcome = none) :
    (joinTreeNonces handler answers s).outcome ≠ some (.ok txid) := by
  unfold joinTreeNonces
  split
  · simp [JoinState.throws]
  · simp [hrun]
  · simp [hrun]

theorem joinFinalization_outcome (hrun : s.outcome = none) (commitmentTx : String) :
    (joinFinalization txs skipVtxoTreeSigning handler answers s commitmentTx).outcome ≠
      some (.ok txid) := by
  unfold joinFinalization
  split
  · simp [JoinState.throws]
  · dsimp only
    split
    · simp [JoinState.throws]
    · simp [hrun]

/-- `join` returns what the event that ends the batch says. -/
theorem joinStep_returns {event : SettlementEvent}
    (h : joinStep txs skipVtxoTreeSigning handler s (event, answers) = some t)
    (hreturns : t.outcome = some (.ok txid)) :
    event = .batchFinalized txid ∧ s.step = .batchFinalization ∧ s.outcome = none ∧
      t.vars = s.vars := by
  unfold joinStep at h
  dsimp only at h
  split at h
  · cases h
  rename_i hsome
  have hrun : s.outcome = none := Option.not_isSome_iff_eq_none.mp hsome
  have hidle : s.outcome ≠ some (.ok txid) := by simp [hrun]
  obtain rfl := Option.some.inj h
  cases event with
  | batchStarted intentIdHashes batchExpiry =>
    exact absurd hreturns (joinBatchStarted_outcome hrun intentIdHashes batchExpiry)
  | batchFinalized commitmentTxid =>
    dsimp only at hreturns ⊢
    split at hreturns
    · rename_i hstep
      obtain rfl : commitmentTxid = txid := by simpa [JoinState.returns] using hreturns
      rw [if_pos hstep]
      exact ⟨rfl, hstep, hrun, rfl⟩
    · exact absurd hreturns hidle
  | batchFailed reason => simp [JoinState.throws] at hreturns
  | treeTx batchIndex chunk =>
    dsimp only at hreturns
    split at hreturns
    · split at hreturns
      · exact absurd hreturns hidle
      · exact absurd hreturns hidle
    · exact absurd hreturns hidle
  | treeSignature txid' =>
    dsimp only at hreturns
    split at hreturns
    · split at hreturns
      · simp [JoinState.throws] at hreturns
      · split at hreturns
        · simp [JoinState.throws] at hreturns
        · split at hreturns
          · exact absurd hreturns hidle
          · simp [JoinState.throws] at hreturns
    · exact absurd hreturns hidle
  | treeSigningStarted cosigners unsignedCommitmentTx =>
    dsimp only at hreturns
    split at hreturns
    · exact absurd hreturns (joinTreeSigning_outcome hrun cosigners unsignedCommitmentTx)
    · exact absurd hreturns hidle
  | treeNonces =>
    dsimp only at hreturns
    split at hreturns
    · exact absurd hreturns (joinTreeNonces_outcome hrun)
    · exact absurd hreturns hidle
  | batchFinalization commitmentTx =>
    dsimp only at hreturns
    split at hreturns
    · exact absurd hreturns (joinFinalization_outcome hrun commitmentTx)
    · exact absurd hreturns hidle
  | other => exact absurd hreturns hidle

end Outcome

/-- The variables of `createBatchHandler`, and what it did. -/
structure SettlementVars where
  sweepTapTreeRoot : Option Bytes
  validatedCommitmentTxid : Option Txid
  log : List Entry

def settlementCallbacks (lib : Libraries) (handler : Handler) :
    Callbacks SettlementVars Answers where
  onBatchStarted answers intentIdHashes batchExpiry v :=
    if handler.intentIdHash ∉ intentIdHashes then (v, .ok true)
    else match Batch.onBatchStarted lib answers batchExpiry with
      | .error e => (v, .error e)
      | .ok root => ({ v with sweepTapTreeRoot := some root, log := .joined :: v.log }, .ok false)
  onTreeSigningStarted answers cosignersPublicKeys unsignedCommitmentTx vtxoTree v :=
    match Batch.onTreeSigningStarted lib handler v.sweepTapTreeRoot cosignersPublicKeys
      unsignedCommitmentTx vtxoTree with
    | .error e => (v, .error e)
    | .ok none => (v, .ok true)
    | .ok (some (commitmentTx, root)) =>
      ({ v with
          validatedCommitmentTxid := some (lib.txs.id commitmentTx)
          log := .validated vtxoTree commitmentTx root :: v.log },
        if answers.session then .ok false else .error (message "signing session failed"))
  onTreeNonces answers v :=
    match handler.session with
    | none => (v, .ok true)
    | some _ =>
      (v, if answers.session = false then .error (message "signing session failed")
        else .ok answers.hasAllNonces)
  onBatchFinalization answers commitmentTx connectorTree v :=
    match Batch.onBatchFinalization lib handler answers commitmentTx connectorTree
      v.validatedCommitmentTxid with
    | .error e => (v, .error e)
    | .ok (settlementPsbt, forfeits, hasBoardingUtxos) =>
      if forfeits ≠ [] ∨ hasBoardingUtxos = true then
        ({ v with log := .submitted settlementPsbt answers.now forfeits connectorTree :: v.log },
          if answers.submitSignedForfeitTxs then .ok () else .error (message "submission rejected"))
      else (v, .ok ())
  signatureDecodes := Answers.signatureDecodes

def settlementState (s : JoinState SettlementVars) : State where
  step := s.step
  flatVtxoTree := s.flatVtxoTree
  flatConnectorTree := s.flatConnectorTree
  vtxoTree := s.vtxoTree
  connectorTree := s.connectorTree
  sweepTapTreeRoot := s.vars.sweepTapTreeRoot
  validatedCommitmentTxid := s.vars.validatedCommitmentTxid
  ended := s.outcome.isSome
  log := s.vars.log

theorem finalization_settlement (lib : Libraries) (handler : Handler) (answers : Answers)
    (s : JoinState SettlementVars) (commitmentTx : String) :
    finalization lib handler answers (settlementState s) commitmentTx =
      match joinTrees lib.txs handler.skipVtxoTreeSigning s with
      | .error _ => (settlementState s).throws
      | .ok (vtxoTree, connectorTree) =>
        let s := settlementState { s with vtxoTree := vtxoTree, connectorTree := connectorTree }
        match Batch.onBatchFinalization lib handler answers commitmentTx connectorTree
          s.validatedCommitmentTxid with
        | .error _ => s.throws
        | .ok (settlementPsbt, forfeits, hasBoardingUtxos) =>
          if forfeits ≠ [] ∨ hasBoardingUtxos = true then { s with
            log := .submitted settlementPsbt answers.now forfeits connectorTree :: s.log
            step := if answers.submitSignedForfeitTxs then .batchFinalization else s.step
            ended := !answers.submitSignedForfeitTxs }
          else { s with step := .batchFinalization } := rfl

theorem step_settlement (lib : Libraries) (handler : Handler) (s : JoinState SettlementVars)
    (input : SettlementEvent × Answers) :
    step lib handler (settlementState s) input =
      (joinStep lib.txs handler.skipVtxoTreeSigning (settlementCallbacks lib handler) s input).map
        settlementState := by
  obtain ⟨event, answers⟩ := input
  obtain ⟨at', flatVtxoTree, flatConnectorTree, vtxoTree, connectorTree, vars, outcome⟩ := s
  cases outcome with
  | some outcome => rfl
  | none =>
    refine congrArg some ?_
    cases event with
    | batchStarted intentIdHashes batchExpiry =>
      by_cases hmem : handler.intentIdHash ∈ intentIdHashes
      · cases hstarted : Batch.onBatchStarted lib answers batchExpiry with
        | error e =>
          simp [settlementState, joinBatchStarted, settlementCallbacks, hmem, hstarted,
            State.throws, JoinState.throws]
        | ok root => simp [settlementState, joinBatchStarted, settlementCallbacks, hmem, hstarted]
      · simp [settlementState, joinBatchStarted, settlementCallbacks, hmem]
    | batchFinalized commitmentTxid =>
      by_cases hstep : at' = .batchFinalization
      · simp [settlementState, hstep, JoinState.returns]
      · simp [settlementState, hstep]
    | batchFailed reason => rfl
    | treeTx batchIndex chunk =>
      by_cases hstep : at' = .batchStarted ∨ at' = .treeNoncesAggregated
      · by_cases hindex : batchIndex = 0
        · simp [settlementState, hstep, hindex]
        · simp [settlementState, hstep, hindex]
      · simp [settlementState, hstep]
    | treeSignature txid =>
      by_cases hstep : at' = .treeNoncesAggregated
      · cases vtxoTree with
        | none => simp [settlementState, hstep, State.throws, JoinState.throws]
        | some tree =>
          cases hdecodes : answers.signatureDecodes with
          | false =>
            simp [settlementState, hstep, State.throws, JoinState.throws, settlementCallbacks,
              hdecodes]
          | true => cases hhas : TxTree.hasTx lib.txs.id txid tree with
            | false =>
              simp [settlementState, hstep, State.throws, JoinState.throws, settlementCallbacks,
                hdecodes, hhas]
            | true => simp [settlementState, hstep, settlementCallbacks, hdecodes, hhas]
      · simp [settlementState, hstep]
    | treeSigningStarted cosigners unsignedCommitmentTx =>
      by_cases hstep : at' = .batchStarted
      · subst hstep
        cases hcreate : TxTree.create lib.txs flatVtxoTree with
        | error e =>
          simp [settlementState, treeSigning, joinTreeSigning, hcreate, State.throws,
            JoinState.throws]
        | ok tree =>
          cases hsigning : Batch.onTreeSigningStarted lib handler vars.sweepTapTreeRoot cosigners
            unsignedCommitmentTx tree with
          | error e =>
            simp [settlementState, treeSigning, joinTreeSigning, hcreate, hsigning,
              settlementCallbacks, State.throws, JoinState.throws]
          | ok checked =>
            cases checked with
            | none =>
              simp [settlementState, treeSigning, joinTreeSigning, hcreate, hsigning,
                settlementCallbacks]
            | some checked =>
              cases hsession : answers.session with
              | false =>
                simp [settlementState, treeSigning, joinTreeSigning, hcreate, hsigning,
                  settlementCallbacks, hsession, JoinState.throws]
              | true =>
                simp [settlementState, treeSigning, joinTreeSigning, hcreate, hsigning,
                  settlementCallbacks, hsession]
      · simp [settlementState, hstep]
    | treeNonces =>
      by_cases hstep : at' = .treeSigningStarted
      · subst hstep
        cases hkey : handler.session with
        | none => simp [settlementState, treeNonces, joinTreeNonces, settlementCallbacks, hkey]
        | some key =>
          cases hsession : answers.session with
          | false =>
            simp [settlementState, treeNonces, joinTreeNonces, settlementCallbacks, hkey, hsession,
              State.throws, JoinState.throws]
          | true =>
            cases hall : answers.hasAllNonces with
            | false =>
              simp [settlementState, treeNonces, joinTreeNonces, settlementCallbacks, hkey,
                hsession, hall]
            | true =>
              simp [settlementState, treeNonces, joinTreeNonces, settlementCallbacks, hkey,
                hsession, hall]
      · simp [settlementState, hstep]
    | batchFinalization commitmentTx =>
      by_cases hstep : at' = .treeNoncesAggregated
      · subst hstep
        refine (finalization_settlement lib handler answers _ commitmentTx).trans ?_
        unfold joinFinalization
        cases joinTrees lib.txs handler.skipVtxoTreeSigning _ with
        | error e => rfl
        | ok trees =>
          obtain ⟨vtxoTree, connectorTree⟩ := trees
          cases hfinal : Batch.onBatchFinalization lib handler answers commitmentTx connectorTree
            vars.validatedCommitmentTxid with
          | error e =>
            simp [settlementState, hfinal, settlementCallbacks, State.throws, JoinState.throws]
          | ok result =>
            obtain ⟨settlementPsbt, forfeits, boarding⟩ := result
            by_cases hgiven : forfeits ≠ [] ∨ boarding = true
            · cases hsubmit : answers.submitSignedForfeitTxs with
              | false =>
                simp [settlementState, hfinal, settlementCallbacks, hgiven, hsubmit,
                  JoinState.throws]
              | true => simp [settlementState, hfinal, settlementCallbacks, hgiven, hsubmit]
            · simp [settlementState, hfinal, settlementCallbacks, hgiven]
      · simp [settlementState, hstep]
    | other => rfl

end ArkadeSdk.Batch
