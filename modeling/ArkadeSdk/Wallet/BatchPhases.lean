import ArkadeSdk.Tree.TxTreeLossless
import ArkadeSdk.Wallet.BatchJoin

/-! The calls that `Batch.join` makes, over any handler and any stream. -/

namespace ArkadeSdk.Batch

open WireFormat JsNumber BatchTree LabelledRun

/-- `Batch.Handler` with its optional callbacks, over the variables it closes over and the answers
of the rest of the world. -/
structure JoinHandler (σ α : Type) where
  onBatchStarted : α → SettlementEvent → σ → σ × Except Message Bool
  onTreeSigningStarted : α → SettlementEvent → TxTree → σ → σ × Except Message Bool
  onTreeNonces : α → SettlementEvent → σ → σ × Except Message Bool
  onBatchFinalization : α → SettlementEvent → Option TxTree → Option TxTree → σ →
    σ × Except Message Unit
  onBatchFinalized : Option (α → SettlementEvent → σ → σ × Except Message Unit)
  onBatchFailed : Option (α → SettlementEvent → σ → σ × Except Message Unit)
  onTreeTxEvent : Option (α → SettlementEvent → σ → σ × Except Message Unit)
  onTreeSignatureEvent : Option (α → SettlementEvent → σ → σ × Except Message Unit)

/-- What the iterator yields: an event, with whether the batch was aborted by then and whether the
signature of the event is hexadecimal; or its end. -/
inductive Arrival (α : Type)
  | event (event : SettlementEvent) (answers : α) (aborted signatureDecodes : Bool)
  | closed

/-- An event that was not canceled, a call of the handler with its answer, or the return of `join`.
The flag of an answer says whether the batch is skipped, and of the nonces whether all are in. -/
inductive Call
  | event (event : SettlementEvent)
  | onBatchStarted (answer : Except Message Bool)
  | onTreeSigningStarted (vtxoTree : TxTree) (answer : Except Message Bool)
  | onTreeNonces (answer : Except Message Bool)
  | onBatchFinalization (vtxoTree connectorTree : Option TxTree) (answer : Except Message Unit)
  | returned (txid : Txid)

/-- `join` with the calls it has made, the newest one first. -/
structure Joining (σ : Type) extends JoinState σ where
  log : List Call

namespace Joining

variable {σ : Type}

def initial (vars : σ) : Joining σ := ⟨.initial vars, []⟩

def throws (s : Joining σ) (e : Message) : Joining σ := { s with outcome := some (.error e) }

def record (s : Joining σ) (call : Call) : Joining σ := { s with log := call :: s.log }

end Joining

section

variable {σ α : Type} (txs : TxLibrary) (skipVtxoTreeSigning : Bool) (handler : JoinHandler σ α)

def callOptional (callback : Option (α → SettlementEvent → σ → σ × Except Message Unit))
    (answers : α) (event : SettlementEvent) (s : Joining σ) : Joining σ :=
  match callback with
  | none => s
  | some callback =>
    match callback answers event s.vars with
    | (vars, .error e) => { s with vars := vars }.throws e
    | (vars, .ok ()) => { s with vars := vars }

def onStarted (answers : α) (event : SettlementEvent) (s : Joining σ) : Joining σ :=
  match handler.onBatchStarted answers event s.vars with
  | (vars, .error e) => ({ s with vars := vars }.record (.onBatchStarted (.error e))).throws e
  | (vars, .ok true) => { s with vars := vars }.record (.onBatchStarted (.ok true))
  | (vars, .ok false) => { s with
      vars := vars
      step := if skipVtxoTreeSigning then .treeNoncesAggregated else .batchStarted }.record
        (.onBatchStarted (.ok false))

def onSigning (answers : α) (event : SettlementEvent) (s : Joining σ) : Joining σ :=
  match TxTree.create txs s.flatVtxoTree with
  | .error e => s.throws e
  | .ok vtxoTree =>
    let s := { s with vtxoTree := some vtxoTree }
    match handler.onTreeSigningStarted answers event vtxoTree s.vars with
    | (vars, .error e) =>
      ({ s with vars := vars }.record (.onTreeSigningStarted vtxoTree (.error e))).throws e
    | (vars, .ok true) =>
      { s with vars := vars }.record (.onTreeSigningStarted vtxoTree (.ok true))
    | (vars, .ok false) => { s with
        vars := vars
        step := .treeSigningStarted }.record (.onTreeSigningStarted vtxoTree (.ok false))

def onNonces (answers : α) (event : SettlementEvent) (s : Joining σ) : Joining σ :=
  match handler.onTreeNonces answers event s.vars with
  | (vars, .error e) => ({ s with vars := vars }.record (.onTreeNonces (.error e))).throws e
  | (vars, .ok true) => { s with
      vars := vars
      step := .treeNoncesAggregated }.record (.onTreeNonces (.ok true))
  | (vars, .ok false) => { s with vars := vars }.record (.onTreeNonces (.ok false))

def onFinalization (answers : α) (event : SettlementEvent) (s : Joining σ) : Joining σ :=
  match joinTrees txs skipVtxoTreeSigning s.toJoinState with
  | .error e => s.throws e
  | .ok (vtxoTree, connectorTree) =>
    let s := { s with vtxoTree := vtxoTree, connectorTree := connectorTree }
    match handler.onBatchFinalization answers event vtxoTree connectorTree s.vars with
    | (vars, .error e) => ({ s with vars := vars }.record
        (.onBatchFinalization vtxoTree connectorTree (.error e))).throws e
    | (vars, .ok ()) => { s with
        vars := vars
        step := .batchFinalization }.record (.onBatchFinalization vtxoTree connectorTree (.ok ()))

/-- Return once the callback has. -/
def onFinalized (answers : α) (event : SettlementEvent) (commitmentTxid : Txid) (s : Joining σ) :
    Joining σ :=
  let s := callOptional handler.onBatchFinalized answers event s
  if s.outcome.isSome then s
  else { s with outcome := some (.ok commitmentTxid) }.record (.returned commitmentTxid)

def onFailed (answers : α) (event : SettlementEvent) (reason : String) (s : Joining σ) :
    Joining σ :=
  if handler.onBatchFailed.isSome then callOptional handler.onBatchFailed answers event s
  else s.throws (message reason)

def onTreeTx (answers : α) (event : SettlementEvent) (batchIndex : ℕ) (chunk : TxTreeNode)
    (s : Joining σ) : Joining σ :=
  callOptional handler.onTreeTxEvent answers event <|
    if batchIndex = 0 then { s with flatVtxoTree := s.flatVtxoTree ++ [chunk] }
    else { s with flatConnectorTree := s.flatConnectorTree ++ [chunk] }

def onTreeSignature (answers : α) (event : SettlementEvent) (signatureDecodes : Bool) (txid : Txid)
    (s : Joining σ) : Joining σ :=
  match s.vtxoTree with
  | none => s.throws (message "vtxo tree not initialized")
  | some tree =>
    if signatureDecodes = false then s.throws (message "invalid signature")
    else if TxTree.hasTx txs.id txid tree then
      callOptional handler.onTreeSignatureEvent answers event s
    else s.throws (message ("tx not found: " ++ txid))

def dispatch (answers : α) (signatureDecodes : Bool) (s : Joining σ) (event : SettlementEvent) :
    Joining σ :=
  match event with
  | .batchStarted _ _ => onStarted skipVtxoTreeSigning handler answers event s
  | .batchFinalized commitmentTxid =>
    if s.step = .batchFinalization then onFinalized handler answers event commitmentTxid s else s
  | .batchFailed reason => onFailed handler answers event reason s
  | .treeTx batchIndex chunk =>
    if s.step = .batchStarted ∨ s.step = .treeNoncesAggregated then
      onTreeTx handler answers event batchIndex chunk s
    else s
  | .treeSignature txid =>
    if s.step = .treeNoncesAggregated then
      onTreeSignature txs handler answers event signatureDecodes txid s
    else s
  | .treeSigningStarted _ _ =>
    if s.step = .batchStarted then onSigning txs handler answers event s else s
  | .treeNonces => if s.step = .treeSigningStarted then onNonces handler answers event s else s
  | .batchFinalization _ =>
    if s.step = .treeNoncesAggregated then
      onFinalization txs skipVtxoTreeSigning handler answers event s
    else s
  | .other => s

/-- One turn of the loop, while it runs. -/
def join (s : Joining σ) (arrival : Arrival α) : Option (Joining σ) :=
  if s.outcome.isSome then none else some <| match arrival with
  | .closed => s.throws (message "event stream closed")
  | .event event answers aborted signatureDecodes =>
    if aborted then s.throws (message "canceled")
    else dispatch txs skipVtxoTreeSigning handler answers signatureDecodes
      (s.record (.event event)) event

end

/-- The variables of `join`, without the handler's. -/
structure Loop where
  step : Step
  flatVtxoTree : List TxTreeNode
  flatConnectorTree : List TxTreeNode
  vtxoTree : Option TxTree
  connectorTree : Option TxTree
  log : List Call

def Joining.loop {σ : Type} (s : Joining σ) : Loop :=
  ⟨s.step, s.flatVtxoTree, s.flatConnectorTree, s.vtxoTree, s.connectorTree, s.log⟩

namespace Loop

def Collecting (l : Loop) : Prop := l.step = .batchStarted ∨ l.step = .treeNoncesAggregated

def record (l : Loop) (call : Call) : Loop := { l with log := call :: l.log }

def collect (l : Loop) (batchIndex : ℕ) (chunk : TxTreeNode) : Loop :=
  if batchIndex = 0 then { l with flatVtxoTree := l.flatVtxoTree ++ [chunk] }
  else { l with flatConnectorTree := l.flatConnectorTree ++ [chunk] }

/-- `joinTrees` of these variables. -/
def trees (txs : TxLibrary) (skipVtxoTreeSigning : Bool) (l : Loop) :
    Except Message (Option TxTree × Option TxTree) := do
  let vtxoTree ← if l.vtxoTree.isSome then .ok l.vtxoTree else createFrom txs l.flatVtxoTree none
  rejectIf (vtxoTree.isNone && !skipVtxoTreeSigning) (message "vtxo tree not initialized")
  let connectorTree ← createFrom txs l.flatConnectorTree l.connectorTree
  return (vtxoTree, connectorTree)

end Loop

section

variable (txs : TxLibrary) (skipVtxoTreeSigning : Bool)

/-- What an event that is not canceled does to the variables of `join`, from those after it was
taken from the iterator. -/
inductive Advance (l : Loop) : SettlementEvent → Loop → Prop
  | idle {event : SettlementEvent} :
      (∀ batchIndex chunk, event = .treeTx batchIndex chunk → ¬l.Collecting) → Advance l event l
  | notStarted {event : SettlementEvent} {answer : Except Message Bool} :
      (∀ batchIndex chunk, event ≠ .treeTx batchIndex chunk) → answer ≠ .ok false →
      Advance l event (l.record (.onBatchStarted answer))
  | started {intentIdHashes : List String} {batchExpiry : ℤ} :
      Advance l (.batchStarted intentIdHashes batchExpiry)
        ({ l with
          step := if skipVtxoTreeSigning then .treeNoncesAggregated else .batchStarted }.record
            (.onBatchStarted (.ok false)))
  | collected {batchIndex : ℕ} {chunk : TxTreeNode} : l.Collecting →
      Advance l (.treeTx batchIndex chunk) (l.collect batchIndex chunk)
  | signing {event : SettlementEvent} {vtxoTree : TxTree} {answer : Except Message Bool} :
      (∀ batchIndex chunk, event ≠ .treeTx batchIndex chunk) → l.step = .batchStarted →
      TxTree.create txs l.flatVtxoTree = .ok vtxoTree →
      Advance l event ({ l with
        vtxoTree := some vtxoTree
        step := match answer with
          | .ok false => .treeSigningStarted
          | _ => l.step }.record
          (.onTreeSigningStarted vtxoTree answer))
  | nonces {event : SettlementEvent} {answer : Except Message Bool} :
      (∀ batchIndex chunk, event ≠ .treeTx batchIndex chunk) → l.step = .treeSigningStarted →
      Advance l event ({ l with
        step := match answer with
          | .ok true => .treeNoncesAggregated
          | _ => l.step }.record
          (.onTreeNonces answer))
  | finalization {event : SettlementEvent} {vtxoTree connectorTree : Option TxTree}
      {answer : Except Message Unit} :
      (∀ batchIndex chunk, event ≠ .treeTx batchIndex chunk) → l.step = .treeNoncesAggregated →
      l.trees txs skipVtxoTreeSigning = .ok (vtxoTree, connectorTree) →
      Advance l event ({ l with
        vtxoTree := vtxoTree
        connectorTree := connectorTree
        step := match answer with
          | .ok () => .batchFinalization
          | .error _ => l.step }.record
          (.onBatchFinalization vtxoTree connectorTree answer))
  | returned {txid : Txid} : l.step = .batchFinalization →
      Advance l (.batchFinalized txid) (l.record (.returned txid))

end

section

variable {σ α : Type} {txs : TxLibrary} {skipVtxoTreeSigning : Bool} {handler : JoinHandler σ α}
  {answers : α} {event : SettlementEvent} {s t : Joining σ}

def Recorded (t : Joining σ) : Prop :=
  ∀ txid, t.outcome = some (.ok txid) → t.log.head? = some (.returned txid)

theorem recorded_throws (s : Joining σ) (e : Message) : Recorded (s.throws e) := by
  intro txid h
  simp [Joining.throws] at h

theorem recorded_running (h : s.outcome = none) : Recorded s := by
  intro txid hreturned
  rw [h] at hreturned
  cases hreturned

theorem callOptional_spec (callback : Option (α → SettlementEvent → σ → σ × Except Message Unit))
    (answers : α) (event : SettlementEvent) (hrun : s.outcome = none) :
    (callOptional callback answers event s).loop = s.loop ∧
      ∀ txid, (callOptional callback answers event s).outcome ≠ some (.ok txid) := by
  unfold callOptional
  split
  · exact ⟨rfl, by simp [hrun]⟩
  · split
    · exact ⟨rfl, by simp [Joining.throws]⟩
    · exact ⟨rfl, by simp [hrun]⟩

theorem joinTrees_eq (s : Joining σ) :
    joinTrees txs skipVtxoTreeSigning s.toJoinState = s.loop.trees txs skipVtxoTreeSigning := rfl

theorem onStarted_spec (hrun : s.outcome = none) (intentIdHashes : List String) (batchExpiry : ℤ) :
    let event := SettlementEvent.batchStarted intentIdHashes batchExpiry
    let t := onStarted skipVtxoTreeSigning handler answers event s
    Advance txs skipVtxoTreeSigning s.loop event t.loop ∧ Recorded t := by
  have hevent : ∀ batchIndex chunk, SettlementEvent.batchStarted intentIdHashes batchExpiry ≠
      .treeTx batchIndex chunk := fun _ _ h ↦ by cases h
  dsimp only [onStarted]
  split
  · exact ⟨.notStarted hevent (by simp), recorded_throws _ _⟩
  · exact ⟨.notStarted hevent (by simp), recorded_running hrun⟩
  · exact ⟨.started, recorded_running hrun⟩

theorem onSigning_spec (hrun : s.outcome = none) (hstep : s.step = .batchStarted)
    (cosigners : List String) (unsignedCommitmentTx : String) :
    let event := SettlementEvent.treeSigningStarted cosigners unsignedCommitmentTx
    let t := onSigning txs handler answers event s
    Advance txs skipVtxoTreeSigning s.loop event t.loop ∧ Recorded t := by
  have hevent : ∀ batchIndex chunk, SettlementEvent.treeSigningStarted cosigners
      unsignedCommitmentTx ≠ .treeTx batchIndex chunk := fun _ _ h ↦ by cases h
  dsimp only [onSigning]
  split
  · exact ⟨.idle fun _ _ h ↦ absurd h (hevent _ _), recorded_throws _ _⟩
  · next vtxoTree hcreate =>
    split
    · next e _ =>
      exact ⟨@Advance.signing _ _ _ _ _ (.error e) hevent hstep hcreate, recorded_throws _ _⟩
    · exact ⟨@Advance.signing _ _ _ _ _ (.ok true) hevent hstep hcreate, recorded_running hrun⟩
    · exact ⟨@Advance.signing _ _ _ _ _ (.ok false) hevent hstep hcreate, recorded_running hrun⟩

theorem onNonces_spec (hrun : s.outcome = none) (hstep : s.step = .treeSigningStarted) :
    let t := onNonces handler answers .treeNonces s
    Advance txs skipVtxoTreeSigning s.loop .treeNonces t.loop ∧ Recorded t := by
  have hevent : ∀ batchIndex chunk, SettlementEvent.treeNonces ≠ .treeTx batchIndex chunk :=
    fun _ _ h ↦ by cases h
  dsimp only [onNonces]
  split
  · next e _ => exact ⟨@Advance.nonces _ _ _ _ (.error e) hevent hstep, recorded_throws _ _⟩
  · exact ⟨@Advance.nonces _ _ _ _ (.ok true) hevent hstep, recorded_running hrun⟩
  · exact ⟨@Advance.nonces _ _ _ _ (.ok false) hevent hstep, recorded_running hrun⟩

theorem onFinalization_spec (hrun : s.outcome = none) (hstep : s.step = .treeNoncesAggregated)
    (commitmentTx : String) :
    let event := SettlementEvent.batchFinalization commitmentTx
    let t := onFinalization txs skipVtxoTreeSigning handler answers event s
    Advance txs skipVtxoTreeSigning s.loop event t.loop ∧ Recorded t := by
  have hevent : ∀ batchIndex chunk, SettlementEvent.batchFinalization commitmentTx ≠
      .treeTx batchIndex chunk := fun _ _ h ↦ by cases h
  dsimp only [onFinalization]
  split
  · exact ⟨.idle fun _ _ h ↦ absurd h (hevent _ _), recorded_throws _ _⟩
  · next vtxoTree connectorTree htrees =>
    rw [joinTrees_eq] at htrees
    split
    · next e _ =>
      exact ⟨@Advance.finalization _ _ _ _ _ _ (.error e) hevent hstep htrees, recorded_throws _ _⟩
    · exact ⟨@Advance.finalization _ _ _ _ _ _ (.ok ()) hevent hstep htrees, recorded_running hrun⟩

theorem recorded_callOptional
    (callback : Option (α → SettlementEvent → σ → σ × Except Message Unit))
    (hrun : s.outcome = none) : Recorded (callOptional callback answers event s) := by
  intro txid h
  exact absurd h ((callOptional_spec callback answers event hrun).2 txid)

theorem onFinalized_spec (hrun : s.outcome = none) (hstep : s.step = .batchFinalization)
    (txid : Txid) :
    let t := onFinalized handler answers event txid s
    Advance txs skipVtxoTreeSigning s.loop (.batchFinalized txid) t.loop ∧ Recorded t := by
  obtain ⟨hloop, hreturned⟩ :=
    callOptional_spec handler.onBatchFinalized answers event hrun
  dsimp only [onFinalized]
  split
  · rw [hloop]
    exact ⟨.idle fun _ _ h ↦ (by cases h), fun txid h ↦ absurd h (hreturned txid)⟩
  · refine ⟨?_, fun txid' h ↦ ?_⟩
    · have hreturn : Advance txs skipVtxoTreeSigning s.loop (.batchFinalized txid)
          (s.loop.record (.returned txid)) := .returned hstep
      rw [← hloop] at hreturn ⊢
      exact hreturn
    · obtain rfl : txid = txid' := by simpa [Joining.record] using h
      rfl

theorem onTreeTx_spec (hrun : s.outcome = none) (hcollecting : s.loop.Collecting) (batchIndex : ℕ)
    (chunk : TxTreeNode) :
    let t := onTreeTx handler answers event batchIndex chunk s
    Advance txs skipVtxoTreeSigning s.loop (.treeTx batchIndex chunk) t.loop ∧ Recorded t := by
  have hcollected : Advance txs skipVtxoTreeSigning s.loop (.treeTx batchIndex chunk)
      (s.loop.collect batchIndex chunk) := .collected hcollecting
  unfold Loop.collect at hcollected
  dsimp only [onTreeTx]
  by_cases hindex : batchIndex = 0
  · rw [if_pos hindex] at hcollected ⊢
    have hcall := callOptional_spec (s := { s with flatVtxoTree := s.flatVtxoTree ++ [chunk] })
      handler.onTreeTxEvent answers event hrun
    rw [hcall.1]
    exact ⟨hcollected, fun txid h ↦ absurd h (hcall.2 txid)⟩
  · rw [if_neg hindex] at hcollected ⊢
    have hcall := callOptional_spec
      (s := { s with flatConnectorTree := s.flatConnectorTree ++ [chunk] }) handler.onTreeTxEvent
      answers event hrun
    rw [hcall.1]
    exact ⟨hcollected, fun txid h ↦ absurd h (hcall.2 txid)⟩

theorem dispatch_spec (hrun : s.outcome = none) (signatureDecodes : Bool)
    (event : SettlementEvent) :
    let t := dispatch txs skipVtxoTreeSigning handler answers signatureDecodes s event
    Advance txs skipVtxoTreeSigning s.loop event t.loop ∧ Recorded t := by
  have hidle (hevent : ∀ batchIndex chunk, event ≠ .treeTx batchIndex chunk) :
      Advance txs skipVtxoTreeSigning s.loop event s.loop ∧ Recorded s :=
    ⟨.idle fun _ _ h ↦ absurd h (hevent _ _), recorded_running hrun⟩
  cases event with
  | batchStarted intentIdHashes batchExpiry => exact onStarted_spec hrun intentIdHashes batchExpiry
  | batchFinalized txid =>
    dsimp only [dispatch]
    split
    · next hstep => exact onFinalized_spec hrun hstep txid
    · exact hidle fun _ _ h ↦ by cases h
  | batchFailed reason =>
    dsimp only [dispatch, onFailed]
    split
    · rw [(callOptional_spec _ _ _ hrun).1]
      exact ⟨.idle fun _ _ h ↦ (by cases h), recorded_callOptional _ hrun⟩
    · exact ⟨.idle fun _ _ h ↦ (by cases h), recorded_throws _ _⟩
  | treeTx batchIndex chunk =>
    dsimp only [dispatch]
    split
    · next hcollecting =>
      exact onTreeTx_spec hrun hcollecting batchIndex chunk
    · next hidle =>
      exact ⟨.idle fun _ _ _ ↦ hidle, recorded_running hrun⟩
  | treeSignature txid =>
    dsimp only [dispatch]
    split
    · unfold onTreeSignature
      split
      · exact ⟨.idle fun _ _ h ↦ (by cases h), recorded_throws _ _⟩
      · split
        · exact ⟨.idle fun _ _ h ↦ (by cases h), recorded_throws _ _⟩
        · split
          · rw [(callOptional_spec _ _ _ hrun).1]
            exact ⟨.idle fun _ _ h ↦ (by cases h), recorded_callOptional _ hrun⟩
          · exact ⟨.idle fun _ _ h ↦ (by cases h), recorded_throws _ _⟩
    · exact hidle fun _ _ h ↦ by cases h
  | treeSigningStarted cosigners unsignedCommitmentTx =>
    dsimp only [dispatch]
    split
    · next hstep => exact onSigning_spec hrun hstep cosigners unsignedCommitmentTx
    · exact hidle fun _ _ h ↦ by cases h
  | treeNonces =>
    dsimp only [dispatch]
    split
    · next hstep => exact onNonces_spec hrun hstep
    · exact hidle fun _ _ h ↦ by cases h
  | batchFinalization commitmentTx =>
    dsimp only [dispatch]
    split
    · next hstep => exact onFinalization_spec hrun hstep commitmentTx
    · exact hidle fun _ _ h ↦ by cases h
  | other => exact hidle fun _ _ h ↦ by cases h

theorem join_spec {arrival : Arrival α}
    (h : join txs skipVtxoTreeSigning handler s arrival = some t) :
    (t.loop = s.loop ∨ ∃ event answers signatureDecodes,
      arrival = .event event answers false signatureDecodes ∧
      Advance txs skipVtxoTreeSigning (s.loop.record (.event event)) event t.loop) ∧
    Recorded t := by
  unfold join at h
  split at h
  · cases h
  next hrun =>
  have hrun : s.outcome = none := Option.not_isSome_iff_eq_none.mp hrun
  obtain rfl := Option.some.inj h
  cases arrival with
  | closed => exact ⟨.inl rfl, recorded_throws _ _⟩
  | event event answers aborted signatureDecodes =>
    dsimp only
    split
    · exact ⟨.inl rfl, recorded_throws _ _⟩
    · next hlive =>
      have hrecord : (s.record (.event event)).outcome = none := hrun
      obtain ⟨hadvance, hrecorded⟩ := dispatch_spec hrecord signatureDecodes event
      rw [Bool.not_eq_true] at hlive
      subst hlive
      exact ⟨.inr ⟨event, answers, signatureDecodes, rfl, hadvance⟩, hrecorded⟩

end

def Call.starts : Call → Bool
  | .onBatchStarted (.ok false) => true
  | _ => false

def sinceStart (log : List Call) : List Call := log.takeWhile fun call ↦ !call.starts

def Joined (log : List Call) : Prop := ∃ call ∈ log, call.starts

/-- A session for signing the tree was started. -/
def Signs (log : List Call) : Prop :=
  ∃ vtxoTree, Call.onTreeSigningStarted vtxoTree (.ok false) ∈ log

/-- The nonces of such a session were reported to be complete. -/
def FullySigned (log : List Call) : Prop :=
  ∃ newer older, log = newer ++ .onTreeNonces (.ok true) :: older ∧ Signs older

/-- The trees were handed over. -/
def Finalized (log : List Call) : Prop :=
  ∃ vtxoTree connectorTree, Call.onBatchFinalization vtxoTree connectorTree (.ok ()) ∈ log

def Ordered (skipVtxoTreeSigning : Bool) : Call → List Call → Prop
  | .event _, _ | .onBatchStarted _, _ => True
  | .onTreeSigningStarted _ _, log => Joined log
  | .onTreeNonces _, log => Joined log ∧ Signs (sinceStart log)
  | .onBatchFinalization _ _ _, log =>
    Joined log ∧ (skipVtxoTreeSigning = false → FullySigned (sinceStart log))
  | .returned txid, log => ∃ before, log = .event (.batchFinalized txid) :: before ∧
      Joined before ∧ Finalized (sinceStart before)

theorem sinceStart_cons {call : Call} (hcall : call.starts = false) (log : List Call) :
    sinceStart (call :: log) = call :: sinceStart log := by
  simp [sinceStart, hcall]

theorem mem_sinceStart {call : Call} (hcall : call.starts = false) (log : List Call) :
    call ∈ sinceStart (call :: log) := by
  rw [sinceStart_cons hcall]
  exact List.mem_cons_self

theorem Joined.cons {log : List Call} (h : Joined log) (call : Call) : Joined (call :: log) := by
  obtain ⟨start, hmem, hstart⟩ := h
  exact ⟨start, List.mem_cons_of_mem _ hmem, hstart⟩

theorem Signs.cons {log : List Call} (h : Signs log) (call : Call) : Signs (call :: log) := by
  obtain ⟨vtxoTree, hmem⟩ := h
  exact ⟨vtxoTree, List.mem_cons_of_mem _ hmem⟩

theorem FullySigned.cons {log : List Call} (h : FullySigned log) (call : Call) :
    FullySigned (call :: log) := by
  obtain ⟨newer, older, rfl, hsigns⟩ := h
  exact ⟨call :: newer, older, rfl, hsigns⟩

theorem Finalized.cons {log : List Call} (h : Finalized log) (call : Call) :
    Finalized (call :: log) := by
  obtain ⟨vtxoTree, connectorTree, hmem⟩ := h
  exact ⟨vtxoTree, connectorTree, List.mem_cons_of_mem _ hmem⟩

/-- What has been called in the batch when `join` is at a step. -/
def Reached (skipVtxoTreeSigning : Bool) (log : List Call) : Step → Prop
  | .start => True
  | .batchStarted => Joined log
  | .treeSigningStarted => Joined log ∧ Signs (sinceStart log)
  | .treeNoncesAggregated =>
    Joined log ∧ (skipVtxoTreeSigning = false → FullySigned (sinceStart log))
  | .batchFinalization => Joined log ∧ Finalized (sinceStart log)

theorem Reached.cons {skipVtxoTreeSigning : Bool} {log : List Call} {step : Step}
    (h : Reached skipVtxoTreeSigning log step) {call : Call} (hcall : call.starts = false) :
    Reached skipVtxoTreeSigning (call :: log) step := by
  cases step with
  | start => trivial
  | batchStarted => exact Joined.cons h call
  | treeSigningStarted =>
    refine ⟨h.1.cons call, ?_⟩
    rw [sinceStart_cons hcall]
    exact h.2.cons call
  | treeNoncesAggregated =>
    refine ⟨h.1.cons call, fun hskip ↦ ?_⟩
    rw [sinceStart_cons hcall]
    exact (h.2 hskip).cons call
  | batchFinalization =>
    refine ⟨h.1.cons call, ?_⟩
    rw [sinceStart_cons hcall]
    exact h.2.cons call

/-- The calls are in order, and those of the step that `join` is at were made. -/
def InPhase (skipVtxoTreeSigning : Bool) (l : Loop) : Prop :=
  Chronicle (Ordered skipVtxoTreeSigning) l.log ∧ Reached skipVtxoTreeSigning l.log l.step

section

variable {txs : TxLibrary} {skipVtxoTreeSigning : Bool} {l l' : Loop} {event : SettlementEvent}

theorem InPhase.record {call : Call} (h : InPhase skipVtxoTreeSigning l)
    (hcall : call.starts = false) (hordered : Ordered skipVtxoTreeSigning call l.log) :
    InPhase skipVtxoTreeSigning (l.record call) :=
  ⟨⟨hordered, h.1⟩, h.2.cons hcall⟩

theorem InPhase.advance (h : InPhase skipVtxoTreeSigning l)
    (hadvance : Advance txs skipVtxoTreeSigning (l.record (.event event)) event l') :
    InPhase skipVtxoTreeSigning l' := by
  have hevent : InPhase skipVtxoTreeSigning (l.record (.event event)) := h.record rfl trivial
  cases hadvance with
  | idle => exact hevent
  | @notStarted _ answer _ hanswer =>
    refine hevent.record ?_ trivial
    cases answer with
    | error e => rfl
    | ok skip =>
      cases skip with
      | true => rfl
      | false => exact absurd rfl hanswer
  | started =>
    refine ⟨⟨trivial, hevent.1⟩, ?_⟩
    have hjoined (log : List Call) : Joined (.onBatchStarted (.ok false) :: log) :=
      ⟨_, List.mem_cons_self, rfl⟩
    cases skipVtxoTreeSigning with
    | true => exact ⟨hjoined _, fun hskip ↦ by cases hskip⟩
    | false => exact hjoined _
  | @collected batchIndex chunk _ =>
    unfold Loop.collect
    split
    · exact hevent
    · exact hevent
  | @signing _ vtxoTree answer _ hstep _ =>
    obtain ⟨hlog, hreached⟩ := hevent
    rw [hstep] at hreached
    refine ⟨⟨hreached, hlog⟩, ?_⟩
    split
    · exact ⟨Joined.cons hreached _, vtxoTree, mem_sinceStart rfl _⟩
    · rw [hstep]
      exact Joined.cons hreached _
  | @nonces _ answer _ hstep =>
    obtain ⟨hlog, hreached⟩ := hevent
    rw [hstep] at hreached
    refine ⟨⟨hreached, hlog⟩, ?_⟩
    split
    · exact ⟨hreached.1.cons _, fun _ ↦ ⟨[], _, sinceStart_cons rfl _, hreached.2⟩⟩
    · rw [hstep]
      exact hreached.cons rfl
  | @finalization _ vtxoTree connectorTree answer _ hstep _ =>
    obtain ⟨hlog, hreached⟩ := hevent
    rw [hstep] at hreached
    refine ⟨⟨hreached, hlog⟩, ?_⟩
    split
    · exact ⟨hreached.1.cons _, vtxoTree, connectorTree, mem_sinceStart rfl _⟩
    · rw [hstep]
      exact hreached.cons rfl
  | returned hstep =>
    have hreached := h.2
    rw [show l.step = .batchFinalization from hstep] at hreached
    exact hevent.record rfl ⟨l.log, rfl, hreached⟩

variable {σ α : Type} {handler : JoinHandler σ α}

/-- Over any handler and any stream, each call of a phase follows those of the phases before it in
the batch that was joined last, and `join` returns what the event that follows them says. -/
theorem join_phase_order {vars : σ} {s : Joining σ}
    (h : Run (join txs skipVtxoTreeSigning handler) (fun _ _ ↦ True) (.initial vars) s) :
    Chronicle (Ordered skipVtxoTreeSigning) s.log ∧
      ∀ txid, s.outcome = some (.ok txid) → s.log.head? = some (.returned txid) := by
  have hinitial : InPhase skipVtxoTreeSigning (Joining.initial vars).loop ∧
      Recorded (Joining.initial vars) := ⟨⟨trivial, trivial⟩, fun txid h ↦ by cases h⟩
  have hinv : InPhase skipVtxoTreeSigning s.loop ∧ Recorded s := by
    refine h.invariant (P := fun s ↦ InPhase skipVtxoTreeSigning s.loop ∧ Recorded s) ?_ hinitial
    intro s arrival t hs _ ht
    obtain ⟨hloop, hrecorded⟩ := join_spec ht
    refine ⟨?_, hrecorded⟩
    rcases hloop with hloop | ⟨event, answers, signatureDecodes, -, hadvance⟩
    · rw [hloop]
      exact hs.1
    · exact hs.1.advance hadvance
  exact ⟨hinv.1.1, hinv.2⟩

end

def isForeign : SettlementEvent → Bool
  | .batchStarted intentIdHashes _ => "other" ∈ intentIdHashes
  | _ => false

def willing : JoinHandler Unit Unit where
  onBatchStarted _ event v := (v, .ok (isForeign event))
  onTreeSigningStarted _ _ _ v := (v, .ok false)
  onTreeNonces _ _ v := (v, .ok true)
  onBatchFinalization _ _ _ _ v := (v, .ok ())
  onBatchFinalized := none
  onBatchFailed := some fun _ _ v ↦ (v, .ok ())
  onTreeTxEvent := none
  onTreeSignatureEvent := none

def arrives (event : SettlementEvent) : Arrival Unit := .event event () false true

/-- One batch is skipped and one fails before it. -/
def wholeBatch : List (Arrival Unit) :=
  [.batchStarted ["other"] 0, .treeTx 0 ⟨"z", "z", []⟩, .batchStarted [] 0, .batchFailed "",
    .batchStarted [] 0, .treeTx 0 ⟨"a", "a", []⟩, .treeSigningStarted [] "", .treeNonces,
    .batchFinalization "", .batchFinalized "commitment"].map arrives

theorem whole_batch_in_order : ∃ s, exec (join namedLibrary false willing) (.initial ())
      wholeBatch = some s ∧ s.outcome = some (.ok "commitment") ∧
    Chronicle (Ordered false) s.log ∧
      ∀ txid, s.outcome = some (.ok txid) → s.log.head? = some (.returned txid) := by
  have hexec : (exec (join namedLibrary false willing) (.initial ()) wholeBatch).map
      (fun s ↦ s.outcome) = some (some (.ok "commitment")) := rfl
  obtain ⟨s, hs, hreturned⟩ := Option.map_eq_some_iff.mp hexec
  have hrun := run_of_exec hs (along_of_check (p := fun _ _ ↦ true) (fun _ _ _ ↦ trivial) rfl)
  exact ⟨s, hs, hreturned, join_phase_order hrun⟩

def Callbacks.handler {σ α : Type} (callbacks : Callbacks σ α) : JoinHandler σ α where
  onBatchStarted
    | answers, .batchStarted intentIdHashes batchExpiry =>
      callbacks.onBatchStarted answers intentIdHashes batchExpiry
    | _, _ => fun v ↦ (v, .ok true)
  onTreeSigningStarted
    | answers, .treeSigningStarted cosigners unsignedCommitmentTx, vtxoTree =>
      callbacks.onTreeSigningStarted answers cosigners unsignedCommitmentTx vtxoTree
    | _, _, _ => fun v ↦ (v, .ok true)
  onTreeNonces answers _ := callbacks.onTreeNonces answers
  onBatchFinalization
    | answers, .batchFinalization commitmentTx, _, connectorTree =>
      callbacks.onBatchFinalization answers commitmentTx connectorTree
    | _, _, _, _ => fun v ↦ (v, .ok ())
  onBatchFinalized := none
  onBatchFailed := none
  onTreeTxEvent := none
  onTreeSignatureEvent := none

/-- Without them, a turn is the one of `joinStep`. -/
theorem join_callbacks {σ α : Type} (txs : TxLibrary) (skipVtxoTreeSigning : Bool)
    (callbacks : Callbacks σ α) (s : Joining σ) (event : SettlementEvent) (answers : α) :
    (join txs skipVtxoTreeSigning callbacks.handler s (.event event answers false
      (callbacks.signatureDecodes answers))).map Joining.toJoinState =
      joinStep txs skipVtxoTreeSigning callbacks s.toJoinState (event, answers) := by
  obtain ⟨⟨at', flatVtxoTree, flatConnectorTree, vtxoTree, connectorTree, vars, outcome⟩, log⟩ := s
  cases outcome with
  | some outcome => rfl
  | none =>
    refine congrArg some ?_
    refine (congrArg Joining.toJoinState (if_neg Bool.false_ne_true)).trans ?_
    cases event with
    | batchStarted intentIdHashes batchExpiry =>
      dsimp only [dispatch, onStarted, joinBatchStarted, Callbacks.handler, Joining.record]
      rcases callbacks.onBatchStarted answers intentIdHashes batchExpiry vars with
        ⟨vars', _ | _ | _⟩
      · rfl
      · rfl
      · rfl
    | batchFinalized txid =>
      dsimp only [dispatch, Joining.record]
      by_cases hstep : at' = .batchFinalization
      · rw [if_pos hstep, if_pos hstep]
        rfl
      · rw [if_neg hstep, if_neg hstep]
    | batchFailed reason => rfl
    | treeTx batchIndex chunk =>
      dsimp only [dispatch, onTreeTx, Joining.record]
      by_cases hstep : at' = .batchStarted ∨ at' = .treeNoncesAggregated
      · rw [if_pos hstep, if_pos hstep]
        by_cases hindex : batchIndex = 0
        · rw [if_pos hindex, if_pos hindex]
          rfl
        · rw [if_neg hindex, if_neg hindex]
          rfl
      · rw [if_neg hstep, if_neg hstep]
    | treeSignature txid =>
      dsimp only [dispatch, onTreeSignature, Joining.record]
      by_cases hstep : at' = .treeNoncesAggregated
      · rw [if_pos hstep, if_pos hstep]
        cases vtxoTree with
        | none => rfl
        | some tree =>
          dsimp only
          cases callbacks.signatureDecodes answers with
          | false => rfl
          | true => cases tree.hasTx txs.id txid with
            | false => rfl
            | true => rfl
      · rw [if_neg hstep, if_neg hstep]
    | treeSigningStarted cosigners unsignedCommitmentTx =>
      dsimp only [dispatch, onSigning, joinTreeSigning, Callbacks.handler, Joining.record]
      by_cases hstep : at' = .batchStarted
      · rw [if_pos hstep, if_pos hstep]
        cases TxTree.create txs flatVtxoTree with
        | error e => rfl
        | ok tree =>
          dsimp only
          rcases callbacks.onTreeSigningStarted answers cosigners unsignedCommitmentTx tree
            vars with ⟨vars', _ | _ | _⟩
          · rfl
          · rfl
          · rfl
      · rw [if_neg hstep, if_neg hstep]
    | treeNonces =>
      dsimp only [dispatch, onNonces, joinTreeNonces, Callbacks.handler, Joining.record]
      by_cases hstep : at' = .treeSigningStarted
      · rw [if_pos hstep, if_pos hstep]
        rcases callbacks.onTreeNonces answers vars with ⟨vars', _ | _ | _⟩
        · rfl
        · rfl
        · rfl
      · rw [if_neg hstep, if_neg hstep]
    | batchFinalization commitmentTx =>
      dsimp only [dispatch, onFinalization, joinFinalization, Callbacks.handler, Joining.record]
      by_cases hstep : at' = .treeNoncesAggregated
      · rw [if_pos hstep, if_pos hstep]
        cases joinTrees txs skipVtxoTreeSigning _ with
        | error e => rfl
        | ok trees =>
          obtain ⟨vtxoTree', connectorTree'⟩ := trees
          dsimp only
          rcases callbacks.onBatchFinalization answers commitmentTx connectorTree' vars with
            ⟨vars', _ | _⟩
          · rfl
          · rfl
      · rw [if_neg hstep, if_neg hstep]
    | other => rfl

end ArkadeSdk.Batch
