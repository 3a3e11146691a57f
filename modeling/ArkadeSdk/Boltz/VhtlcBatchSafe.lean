import ArkadeSdk.Boltz.VhtlcBatch
import ArkadeSdk.Script.TapscriptUnique
import ArkadeSdk.Wallet.BatchSafe

/-! What a batch join of a swap hands over, and when the txid it resolves with is the one that the
wallet has checked. -/

namespace ArkadeSdk.VhtlcBatch

open WireFormat JsNumber BatchTree Batch LabelledRun

variable {lib : Libraries} {handler : Handler}

/-- What was done in the last batch that was confirmed. -/
def batch : List Entry → List Entry
  | [] => []
  | .joined batchExpiry vtxoTreeExpiry root :: _ => [.joined batchExpiry vtxoTreeExpiry root]
  | entry :: log => entry :: batch log

/-- In that batch, the tree and the recipient were checked against the commitment transaction with
this txid, and against the sweep root of the expiry that was admitted for it. -/
def Checked (lib : Libraries) (handler : Handler) (recipient : Recipient) (txid : Txid)
    (log : List Entry) : Prop :=
  ∃ batchExpiry vtxoTreeExpiry vtxoTree commitmentTx root,
    .joined batchExpiry vtxoTreeExpiry root ∈ batch log ∧
    .validated vtxoTree commitmentTx root ∈ batch log ∧
    sweepRoot lib handler batchExpiry vtxoTreeExpiry = .ok root ∧
    validateVtxoTxGraph lib.txs lib.keys vtxoTree commitmentTx root = .ok () ∧
    validateBatchRecipients lib.addresses commitmentTx vtxoTree.leaves [recipient] = .ok () ∧
    lib.txs.id commitmentTx = txid

/-- The forfeit spends the input that was given and a connector that hangs from output 1 of the
commitment transaction, to the forfeit script. -/
def Forfeits (lib : Libraries) (handler : Handler) (commitmentTx forfeitTx : Transaction)
    (connectorTree : TxTree) : Prop :=
  connectorTree.validate lib.txs = .ok () ∧
    connectorTree.root.outpoints = [(some (lib.txs.id commitmentTx), some 1)] ∧
    (∃ connector ∈ connectorTree.leaves, forfeitTx.outpoints =
      [(some handler.vhtlc.txid, some handler.vhtlc.vout), (some (lib.txs.id connector), some 0)]) ∧
    ∃ output, forfeitTx.outputs = [output, ANCHOR] ∧ output.script = handler.forfeitOutputScript

theorem onBatchStarted_cases (lib : Libraries) (handler : Handler) (answers : Answers)
    (intentIdHashes : List String) (batchExpiry : ℤ) (v : Vars) :
    (∃ e, onBatchStarted lib handler answers intentIdHashes batchExpiry v = (v, .error e)) ∨
    onBatchStarted lib handler answers intentIdHashes batchExpiry v = (v, .ok true) ∨
    ∃ vtxoTreeExpiry root, sweepRoot lib handler batchExpiry vtxoTreeExpiry = .ok root ∧
      onBatchStarted lib handler answers intentIdHashes batchExpiry v =
        ({ v with
            sweepTapTreeRoot := some root
            log := .joined batchExpiry vtxoTreeExpiry root :: v.log }, .ok false) := by
  unfold onBatchStarted
  split
  · exact .inr (.inl rfl)
  · dsimp only
    split
    · exact .inl ⟨_, rfl⟩
    · rename_i vtxoTreeExpiry root hstarted
      obtain ⟨advertised, -, h⟩ := bind_ok.mp hstarted
      obtain ⟨root', hroot, h⟩ := bind_ok.mp h
      obtain ⟨-, h⟩ := then_ok.mp h
      obtain ⟨rfl, rfl⟩ := Prod.mk.inj (pure_ok.mp h)
      exact .inr (.inr ⟨advertised, root', hroot, rfl⟩)

def Valid (lib : Libraries) (handler : Handler) (vtxoTree : TxTree) (commitmentTx : Transaction)
    (root : Bytes) : Prop :=
  validateVtxoTxGraph lib.txs lib.keys vtxoTree commitmentTx root = .ok () ∧
    ∀ recipient, handler.recipient = some recipient →
      validateBatchRecipients lib.addresses commitmentTx vtxoTree.leaves [recipient] = .ok ()

theorem checkTree_ok {sweepTapTreeRoot : Option Bytes} {cosigners : List String}
    {unsignedCommitmentTx : String} {vtxoTree : TxTree} {commitmentTx : Transaction} {root : Bytes}
    (h : checkTree lib handler sweepTapTreeRoot cosigners unsignedCommitmentTx vtxoTree =
      .ok (some (commitmentTx, root))) :
    sweepTapTreeRoot = some root ∧ Valid lib handler vtxoTree commitmentTx root := by
  unfold checkTree at h
  split at h
  · cases h
  split at h
  · cases h
  rename_i sweepRoot
  dsimp only at h
  split at h
  · cases h
  obtain ⟨tx, -, h⟩ := bind_ok.mp h
  obtain ⟨hgraph, h⟩ := then_ok.mp h
  split at h
  · rename_i recipient hrecipient
    obtain ⟨hpaid, h⟩ := then_ok.mp h
    obtain ⟨rfl, rfl⟩ := Prod.mk.inj (Option.some.inj (pure_ok.mp h))
    refine ⟨rfl, hgraph, ?_⟩
    intro recipient' hrecipient'
    obtain rfl := Option.some.inj (hrecipient.symm.trans hrecipient')
    exact hpaid
  · rename_i hnone
    obtain ⟨rfl, rfl⟩ := Prod.mk.inj (Option.some.inj (pure_ok.mp h))
    exact ⟨rfl, hgraph, fun recipient hrecipient ↦ absurd hrecipient (hnone recipient)⟩

theorem onTreeSigningStarted_cases (lib : Libraries) (handler : Handler) (answers : Answers)
    (cosigners : List String) (unsignedCommitmentTx : String) (vtxoTree : TxTree) (v : Vars) :
    (∃ e, onTreeSigningStarted lib handler answers cosigners unsignedCommitmentTx vtxoTree v =
      (v, .error e)) ∨
    onTreeSigningStarted lib handler answers cosigners unsignedCommitmentTx vtxoTree v =
      (v, .ok true) ∨
    ∃ commitmentTx root result, v.sweepTapTreeRoot = some root ∧
      Valid lib handler vtxoTree commitmentTx root ∧ result ≠ .ok true ∧
      onTreeSigningStarted lib handler answers cosigners unsignedCommitmentTx vtxoTree v =
        ({ v with
            validatedCommitmentTxid := some (lib.txs.id commitmentTx)
            log := .validated vtxoTree commitmentTx root :: v.log }, result) := by
  unfold onTreeSigningStarted
  split
  · exact .inl ⟨_, rfl⟩
  · exact .inr (.inl rfl)
  · rename_i commitmentTx root hok
    obtain ⟨hroot, hvalid⟩ := checkTree_ok hok
    refine .inr (.inr ?_)
    dsimp only
    split
    · exact ⟨commitmentTx, root, _, hroot, hvalid, (fun h ↦ by cases h), rfl⟩
    · split
      · exact ⟨commitmentTx, root, _, hroot, hvalid, (fun h ↦ by cases h), rfl⟩
      · refine ⟨commitmentTx, root, _, hroot, hvalid, ?_, rfl⟩
        cases answers.submitTreeNonces with
        | error e => exact fun h ↦ by cases h
        | ok _ => exact fun h ↦ by cases h

theorem onTreeNonces_vars (handler : Handler) (answers : Answers) (v : Vars) :
    (onTreeNonces handler answers v).1 = v := by
  unfold onTreeNonces
  split
  · rfl
  · rfl

theorem createForfeitTx_ok {input : ArkTxInput} {script : Bytes} {connector tx : Transaction}
    (h : createForfeitTx lib input script connector = .ok tx) :
    tx.outpoints = [(some input.txid, some input.vout), (some (lib.txs.id connector), some 0)] ∧
      ∃ output, tx.outputs = [output, ANCHOR] ∧ output.script = some script := by
  unfold createForfeitTx at h
  split at h
  · cases h
  split at h
  · cases h
  · cases h
  · cases h
  · obtain ⟨pkScript, -, h⟩ := bind_ok.mp h
    obtain rfl := pure_ok.mp h
    exact ⟨rfl, _, rfl, rfl⟩

theorem buildForfeit_ok {answers : Answers} {script : Bytes} {commitmentTx : String}
    {connectorTree : Option TxTree} {validated : Option Txid} {settlement forfeitTx : Transaction}
    {connectors : TxTree} (hscript : handler.forfeitOutputScript = some script)
    (h : buildForfeit lib handler answers script commitmentTx connectorTree validated =
      .ok (settlement, forfeitTx, connectors)) :
    validated = some (lib.txs.id settlement) ∧
      Forfeits lib handler settlement forfeitTx connectors := by
  unfold buildForfeit at h
  split at h
  · cases h
  rename_i txid
  obtain ⟨tx, htx, h⟩ := bind_ok.mp h
  obtain ⟨hfinal, h⟩ := then_ok.mp h
  simp only [assertFinalCommitmentMatchesValidated, rejectIf_ok, ne_eq, not_not] at hfinal
  split at h
  · cases h
  rename_i tree
  obtain ⟨hconnectors, h⟩ := then_ok.mp h
  split at h
  · cases h
  rename_i connector hconnector
  obtain ⟨forfeit, hforfeit, h⟩ := bind_ok.mp h
  obtain ⟨-, h⟩ := then_ok.mp h
  obtain ⟨rfl, rfl, rfl⟩ := by simpa using h
  obtain ⟨hvalid, tx', htx', hroot⟩ := validateConnectorsTxGraph_ok hconnectors
  obtain rfl : tx' = tx := Except.ok.inj (htx'.symm.trans htx)
  obtain ⟨hspends, hpays⟩ := createForfeitTx_ok hforfeit
  refine ⟨congrArg some hfinal.symm, hvalid, hroot, ?_, hscript ▸ hpays⟩
  exact ⟨connector, List.mem_of_getElem? hconnector, hspends⟩

theorem onBatchFinalization_cases (lib : Libraries) (handler : Handler) (answers : Answers)
    (commitmentTx : String) (connectorTree : Option TxTree) (v : Vars) :
    (∃ result, onBatchFinalization lib handler answers commitmentTx connectorTree v =
      (v, result)) ∨
    ∃ settlement forfeitTx connectors result,
      v.validatedCommitmentTxid = some (lib.txs.id settlement) ∧
      Forfeits lib handler settlement forfeitTx connectors ∧
      onBatchFinalization lib handler answers commitmentTx connectorTree v =
        ({ v with log := .submitted settlement forfeitTx connectors :: v.log }, result) := by
  unfold onBatchFinalization
  split
  · exact .inl ⟨_, rfl⟩
  · rename_i script hscript
    split
    · exact .inl ⟨_, rfl⟩
    · rename_i settlement forfeitTx connectors hok
      obtain ⟨hpinned, hforfeits⟩ := buildForfeit_ok hscript hok
      exact .inr ⟨settlement, forfeitTx, connectors, _, hpinned, hforfeits, rfl⟩

/-- What an entry says of what was done before it. -/
def Safe (lib : Libraries) (handler : Handler) : Entry → List Entry → Prop
  | .joined batchExpiry vtxoTreeExpiry root, _ =>
    sweepRoot lib handler batchExpiry vtxoTreeExpiry = .ok root
  | .validated vtxoTree commitmentTx root, earlier =>
    Valid lib handler vtxoTree commitmentTx root ∧
      ∃ batchExpiry vtxoTreeExpiry rest, earlier = .joined batchExpiry vtxoTreeExpiry root :: rest
  | .submitted commitmentTx forfeitTx connectorTree, earlier =>
    Forfeits lib handler commitmentTx forfeitTx connectorTree ∧
      ∃ vtxoTree tx root rest, earlier = .validated vtxoTree tx root :: rest ∧
        lib.txs.id tx = lib.txs.id commitmentTx

/-- The batch that is going on has been checked, and nothing is handed over yet. -/
def Pinned (lib : Libraries) (v : Vars) (log : List Entry) : Prop :=
  ∃ vtxoTree commitmentTx root rest, log = .validated vtxoTree commitmentTx root :: rest ∧
    v.validatedCommitmentTxid = some (lib.txs.id commitmentTx)

/-- How far the batch has come, by the step that `join` is at. -/
def Stage (lib : Libraries) (v : Vars) : Step → Prop
  | .start => True
  | .batchStarted => ∃ batchExpiry vtxoTreeExpiry root rest,
      v.log = .joined batchExpiry vtxoTreeExpiry root :: rest ∧ v.sweepTapTreeRoot = some root
  | .treeSigningStarted | .treeNoncesAggregated => Pinned lib v v.log
  | .batchFinalization => Pinned lib v v.log ∨
      ∃ commitmentTx forfeitTx connectorTree log,
        v.log = .submitted commitmentTx forfeitTx connectorTree :: log ∧ Pinned lib v log

structure Inv (lib : Libraries) (handler : Handler) (s : JoinState Vars) : Prop where
  log : Chronicle (Safe lib handler) s.vars.log
  stage : s.outcome = none → Stage lib s.vars s.step

section Steps

variable {s : JoinState Vars} {answers : Answers}

theorem inv_batchStarted (hinv : Inv lib handler s) (intentIdHashes : List String)
    (batchExpiry : ℤ) :
    Inv lib handler (joinBatchStarted false (createVHTLCBatchHandler lib handler) answers s
      intentIdHashes batchExpiry) := by
  unfold joinBatchStarted
  dsimp only [createVHTLCBatchHandler]
  obtain ⟨e, h⟩ | h | ⟨vtxoTreeExpiry, root, hroot, h⟩ :=
    onBatchStarted_cases lib handler answers intentIdHashes batchExpiry s.vars
  · rw [h]
    exact ⟨hinv.log, fun h ↦ by cases h⟩
  · rw [h]
    exact ⟨hinv.log, hinv.stage⟩
  · rw [h]
    exact ⟨⟨hroot, hinv.log⟩, fun _ ↦ ⟨batchExpiry, vtxoTreeExpiry, root, s.vars.log, rfl, rfl⟩⟩

theorem inv_treeSigning (hinv : Inv lib handler s) (hrun : s.outcome = none)
    (hstep : s.step = .batchStarted) (cosigners : List String) (unsignedCommitmentTx : String) :
    Inv lib handler (joinTreeSigning lib.txs (createVHTLCBatchHandler lib handler) answers s
      cosigners unsignedCommitmentTx) := by
  unfold joinTreeSigning
  split
  · exact ⟨hinv.log, fun h ↦ by cases h⟩
  · rename_i vtxoTree _
    dsimp only [createVHTLCBatchHandler]
    obtain ⟨e, h⟩ | h | ⟨commitmentTx, root, result, hroot, hvalid, hresult, h⟩ :=
      onTreeSigningStarted_cases lib handler answers cosigners unsignedCommitmentTx vtxoTree s.vars
    · rw [h]
      exact ⟨hinv.log, fun h ↦ by cases h⟩
    · rw [h]
      exact ⟨hinv.log, hinv.stage⟩
    · obtain ⟨batchExpiry, vtxoTreeExpiry, root', rest, hlog, hroot'⟩ :
          Stage lib s.vars .batchStarted := hstep ▸ hinv.stage hrun
      obtain rfl := Option.some.inj (hroot.symm.trans hroot')
      have hsafe : Chronicle (Safe lib handler)
          (.validated vtxoTree commitmentTx root :: s.vars.log) :=
        ⟨⟨hvalid, batchExpiry, vtxoTreeExpiry, rest, hlog⟩, hinv.log⟩
      rw [h]
      match result, hresult with
      | .error _, _ => exact ⟨hsafe, fun h ↦ by cases h⟩
      | .ok false, _ => exact ⟨hsafe, fun _ ↦ ⟨vtxoTree, commitmentTx, root, s.vars.log, rfl, rfl⟩⟩

theorem inv_treeNonces (hinv : Inv lib handler s) (hrun : s.outcome = none)
    (hstep : s.step = .treeSigningStarted) :
    Inv lib handler (joinTreeNonces (createVHTLCBatchHandler lib handler) answers s) := by
  have hpinned : Pinned lib s.vars s.vars.log := by
    have hstage := hinv.stage hrun
    rwa [hstep] at hstage
  have hvars := onTreeNonces_vars handler answers s.vars
  unfold joinTreeNonces
  dsimp only [createVHTLCBatchHandler]
  split
  · rename_i vars e hnonces
    obtain rfl : vars = s.vars := by rwa [hnonces] at hvars
    exact ⟨hinv.log, fun h ↦ by cases h⟩
  · rename_i vars hnonces
    obtain rfl : vars = s.vars := by rwa [hnonces] at hvars
    exact ⟨hinv.log, fun _ ↦ hpinned⟩
  · rename_i vars hnonces
    obtain rfl : vars = s.vars := by rwa [hnonces] at hvars
    exact ⟨hinv.log, hinv.stage⟩

theorem inv_finalization (hinv : Inv lib handler s) (hrun : s.outcome = none)
    (hstep : s.step = .treeNoncesAggregated) (commitmentTx : String) :
    Inv lib handler (joinFinalization lib.txs false (createVHTLCBatchHandler lib handler) answers s
      commitmentTx) := by
  have hpinned : Pinned lib s.vars s.vars.log := by
    have hstage := hinv.stage hrun
    rwa [hstep] at hstage
  unfold joinFinalization
  split
  · exact ⟨hinv.log, fun h ↦ by cases h⟩
  · rename_i vtxoTree connectorTree _
    dsimp only [createVHTLCBatchHandler]
    obtain ⟨result, h⟩ | ⟨settlement, forfeitTx, connectors, result, htxid, hforfeits, h⟩ :=
      onBatchFinalization_cases lib handler answers commitmentTx connectorTree s.vars
    · rw [h]
      cases result with
      | error e => exact ⟨hinv.log, fun h ↦ by cases h⟩
      | ok _ => exact ⟨hinv.log, fun _ ↦ .inl hpinned⟩
    · obtain ⟨tree, tx, root, rest, hlog, hpin⟩ := hpinned
      have hid : lib.txs.id tx = lib.txs.id settlement := Option.some.inj (hpin.symm.trans htxid)
      have hsafe : Chronicle (Safe lib handler)
          (.submitted settlement forfeitTx connectors :: s.vars.log) :=
        ⟨⟨hforfeits, tree, tx, root, rest, hlog, hid⟩, hinv.log⟩
      rw [h]
      cases result with
      | error e => exact ⟨hsafe, fun h ↦ by cases h⟩
      | ok _ =>
        exact ⟨hsafe, fun _ ↦ .inr ⟨settlement, forfeitTx, connectors, s.vars.log, rfl, tree, tx,
          root, rest, hlog, hpin⟩⟩

end Steps

theorem inv_step {s t : JoinState Vars} {input : SettlementEvent × Answers}
    (hinv : Inv lib handler s)
    (h : joinStep lib.txs false (createVHTLCBatchHandler lib handler) s input = some t) :
    Inv lib handler t := by
  obtain ⟨event, answers⟩ := input
  unfold joinStep at h
  dsimp only at h
  split at h
  · cases h
  rename_i hsome
  have hrun : s.outcome = none := Option.not_isSome_iff_eq_none.mp hsome
  obtain rfl := Option.some.inj h
  cases event with
  | batchStarted intentIdHashes batchExpiry =>
    exact inv_batchStarted hinv intentIdHashes batchExpiry
  | batchFinalized commitmentTxid =>
    dsimp only
    split
    · exact ⟨hinv.log, fun h ↦ by cases h⟩
    · exact hinv
  | batchFailed reason => exact ⟨hinv.log, fun h ↦ by cases h⟩
  | treeTx batchIndex chunk =>
    dsimp only
    split
    · split
      · exact ⟨hinv.log, hinv.stage⟩
      · exact ⟨hinv.log, hinv.stage⟩
    · exact hinv
  | treeSignature txid =>
    dsimp only
    split
    · split
      · exact ⟨hinv.log, fun h ↦ by cases h⟩
      · split
        · exact ⟨hinv.log, fun h ↦ by cases h⟩
        · split
          · exact hinv
          · exact ⟨hinv.log, fun h ↦ by cases h⟩
    · exact hinv
  | treeSigningStarted cosigners unsignedCommitmentTx =>
    dsimp only
    split
    · rename_i hstep
      exact inv_treeSigning hinv hrun hstep cosigners unsignedCommitmentTx
    · exact hinv
  | treeNonces =>
    dsimp only
    split
    · rename_i hstep
      exact inv_treeNonces hinv hrun hstep
    · exact hinv
  | batchFinalization commitmentTx =>
    dsimp only
    split
    · rename_i hstep
      exact inv_finalization hinv hrun hstep commitmentTx
    · exact hinv
  | other => exact hinv

theorem inv_run {call : JoinBatch} {s : JoinState Vars}
    (h : Run (joinBatchStep lib call) (fun _ _ ↦ True) (.initial .initial) s) :
    Inv lib call.handler s :=
  h.invariant (fun _ _ _ hinv _ hstep ↦ inv_step hinv hstep) ⟨trivial, fun _ ↦ trivial⟩

theorem checked_of_validated {recipient : Recipient}
    (hrecipient : handler.recipient = some recipient) {log rest : List Entry}
    {vtxoTree : TxTree} {commitmentTx : Transaction} {root : Bytes}
    (hlog : log = .validated vtxoTree commitmentTx root :: rest)
    (hsafe : Chronicle (Safe lib handler) log) :
    Checked lib handler recipient (lib.txs.id commitmentTx) log ∧
      batch log = .validated vtxoTree commitmentTx root :: batch rest ∧
      ∃ batchExpiry vtxoTreeExpiry, batch rest = [.joined batchExpiry vtxoTreeExpiry root] := by
  subst hlog
  obtain ⟨⟨⟨hgraph, hpaid⟩, batchExpiry, vtxoTreeExpiry, earlier, rfl⟩, hjoined, -⟩ := hsafe
  refine ⟨⟨batchExpiry, vtxoTreeExpiry, vtxoTree, commitmentTx, root, ?_, ?_, hjoined, hgraph,
    hpaid recipient hrecipient, rfl⟩, rfl, batchExpiry, vtxoTreeExpiry, rfl⟩
  · exact List.mem_cons_of_mem _ List.mem_cons_self
  · exact List.mem_cons_self

theorem checked_iff_pinned {recipient : Recipient} (hrecipient : handler.recipient = some recipient)
    {v : Vars} {log : List Entry} (hsafe : Chronicle (Safe lib handler) log)
    (hpinned : Pinned lib v log) (txid : Txid) :
    Checked lib handler recipient txid log ↔ v.validatedCommitmentTxid = some txid := by
  obtain ⟨vtxoTree, commitmentTx, root, rest, hlog, hpin⟩ := hpinned
  obtain ⟨hchecked, hbatch, batchExpiry, vtxoTreeExpiry, hrest⟩ :=
    checked_of_validated hrecipient hlog hsafe
  rw [hpin]
  constructor
  · rintro ⟨_, _, tree, tx, _, _, hmem, -, -, -, rfl⟩
    rw [hbatch, hrest] at hmem
    obtain ⟨-, rfl, -⟩ : tree = vtxoTree ∧ tx = commitmentTx ∧ _ := by simpa using hmem
    rfl
  · intro h
    obtain rfl := Option.some.inj h
    exact hchecked

theorem checked_submitted (recipient : Recipient) (txid : Txid)
    (commitmentTx forfeitTx : Transaction) (connectorTree : TxTree) (log : List Entry) :
    Checked lib handler recipient txid (.submitted commitmentTx forfeitTx connectorTree :: log) ↔
      Checked lib handler recipient txid log := by
  simp [Checked, batch]

/-- A forfeit is handed over for a commitment transaction that was checked in its batch, and once
in it. The txid that `joinBatch` resolves with was checked in its batch exactly when the event that
ends the batch names the commitment transaction that the tree was signed for. -/
theorem joinBatch_checked {call : JoinBatch} {s : JoinState Vars}
    (h : Run (joinBatchStep lib call) (fun _ _ ↦ True) (.initial .initial) s) :
    (∀ after earlier commitmentTx forfeitTx connectorTree,
      s.vars.log = after ++ .submitted commitmentTx forfeitTx connectorTree :: earlier →
        Checked lib call.handler call.recipient (lib.txs.id commitmentTx) earlier ∧
        Forfeits lib call.handler commitmentTx forfeitTx connectorTree ∧
        ∀ tx forfeit tree, .submitted tx forfeit tree ∉ batch earlier) ∧
    ∀ event answers t txid, joinBatchStep lib call s (event, answers) = some t →
      t.outcome = some (.ok txid) →
        (Checked lib call.handler call.recipient txid t.vars.log ↔
          s.vars.validatedCommitmentTxid = some txid) := by
  have hinv := inv_run h
  have hrecipient : call.handler.recipient = some call.recipient := rfl
  constructor
  · intro after earlier commitmentTx forfeitTx connectorTree hlog
    have hchronicle := hinv.log
    rw [hlog] at hchronicle
    obtain ⟨⟨hforfeits, vtxoTree, tx, root, rest, hearlier, hid⟩, hsafe⟩ := hchronicle.of_append
    obtain ⟨hchecked, hbatch, batchExpiry, vtxoTreeExpiry, hrest⟩ :=
      checked_of_validated hrecipient hearlier hsafe
    refine ⟨hid ▸ hchecked, hforfeits, ?_⟩
    intro tx' forfeit tree hmem
    rw [hbatch, hrest] at hmem
    simp at hmem
  · intro event answers t txid hstep hreturns
    obtain ⟨-, hfinal, hrun, hvars⟩ := joinStep_returns hstep hreturns
    have hstage := hinv.stage hrun
    rw [hfinal] at hstage
    rw [hvars]
    rcases hstage with hpinned | ⟨commitmentTx, forfeitTx, connectorTree, log, hlog, hpinned⟩
    · exact checked_iff_pinned hrecipient hinv.log hpinned txid
    · have hsafe := hinv.log
      rw [hlog] at hsafe ⊢
      rw [checked_submitted]
      exact checked_iff_pinned hrecipient hsafe.2 hpinned txid

/-! A batch of one leaf that pays the wallet, over the commitment transaction `aa`. -/

def sampleLeaf : Transaction := ⟨[⟨some "aa", some 0, none⟩], [⟨some [0x51], some 5000⟩]⟩

def sampleLibraries : Libraries where
  txs :=
    { fromPSBT := fun psbt ↦
        if psbt = "commitment" then .ok sampleCommitment
        else if psbt = "connector" then .ok sampleConnector
        else if psbt = "leaf" then .ok sampleLeaf
        else .error (message "Invalid PSBT")
      id := fun tx ↦
        if tx = sampleCommitment then "aa" else if tx = sampleConnector then "cc" else "bb" }
  keys := ⟨fun _ ↦ .ok [], fun _ _ ↦ .ok none⟩
  addresses := ⟨fun address ↦ if address = "ours" then some [0x51] else none,
    fun _ ↦ .error (message "invalid address"), ScriptCoder.standardOps, HexCodec.base16⟩
  tapscript := standardLibraries
  tapLeafHash script := script.take 3
  vtxoPkScript tapTree := .ok tapTree

def sampleCall (isRecoverable : Bool) : JoinBatch where
  input := ⟨"vv", 0, 5000, [0x54]⟩
  isRecoverable := isRecoverable
  recipient := ⟨"ours", some (.ofInt 5000), none⟩
  intentIdHash := "intent"
  signerPublicKey := [0x02, 0x11]
  forfeitPubkey := List.replicate 32 7
  forfeitOutputScript := [0x55]
  bech32 := "bc"

def sampleAnswers : Answers :=
  ⟨.ok none, .ok (), .ok (), .ok true, .ok (), .ok (), .ok (), true⟩

def sampleEvents (commitmentTx : String) : List (SettlementEvent × Answers) :=
  [.batchStarted ["intent"] 86528, .treeTx 0 ⟨"bb", "leaf", []⟩, .treeTx 1 ⟨"cc", "connector", []⟩,
    .treeSigningStarted ["0211"] "commitment", .treeNonces,
    .batchFinalization commitmentTx].map (·, sampleAnswers)

/-- Without a forfeit to give, any commitment transaction ends the batch. -/
theorem other_commitment_returned : ∃ s, exec (joinBatchStep sampleLibraries (sampleCall true))
    (.initial .initial)
    (sampleEvents "" ++ [(SettlementEvent.batchFinalized "dd", sampleAnswers)]) = some s ∧
      s.outcome = some (.ok "dd") ∧
      ¬ Checked sampleLibraries (sampleCall true).handler (sampleCall true).recipient "dd"
        s.vars.log := by
  obtain ⟨s, hs, houtcome, hlog⟩ : ∃ s, exec (joinBatchStep sampleLibraries (sampleCall true))
      (.initial .initial)
      (sampleEvents "" ++ [(SettlementEvent.batchFinalized "dd", sampleAnswers)]) = some s ∧
        s.outcome = some (.ok "dd") ∧ ∃ root batchExpiry vtxoTreeExpiry vtxoTree, s.vars.log =
          [.validated vtxoTree sampleCommitment root, .joined batchExpiry vtxoTreeExpiry root] :=
    ⟨_, rfl, rfl, _, _, _, _, rfl⟩
  refine ⟨s, hs, houtcome, ?_⟩
  obtain ⟨root, batchExpiry, vtxoTreeExpiry, vtxoTree, hlog⟩ := hlog
  rintro ⟨_, _, tree, tx, _, -, hmem, -, -, -, hid⟩
  rw [hlog] at hmem
  obtain ⟨-, rfl, -⟩ : tree = vtxoTree ∧ tx = sampleCommitment ∧ _ := by simpa [batch] using hmem
  exact absurd hid (by decide)

/-- With one to give, what is shown is checked, and the last event is not. -/
theorem joinBatch_checked_sample : ∃ s t forfeitTx connectorTree earlier,
    exec (joinBatchStep sampleLibraries (sampleCall false)) (.initial .initial)
      (sampleEvents "commitment") = some s ∧
    s.vars.log = .submitted sampleCommitment forfeitTx connectorTree :: earlier ∧
    Checked sampleLibraries (sampleCall false).handler (sampleCall false).recipient "aa" earlier ∧
    joinBatchStep sampleLibraries (sampleCall false) s (.batchFinalized "aa", sampleAnswers) =
      some t ∧
    Checked sampleLibraries (sampleCall false).handler (sampleCall false).recipient "aa"
      t.vars.log := by
  obtain ⟨s, t, forfeitTx, connectorTree, earlier, hs, hlog, ht, hreturns, hpinned⟩ :
      ∃ s t forfeitTx connectorTree earlier,
        exec (joinBatchStep sampleLibraries (sampleCall false)) (.initial .initial)
          (sampleEvents "commitment") = some s ∧
        s.vars.log = .submitted sampleCommitment forfeitTx connectorTree :: earlier ∧
        joinBatchStep sampleLibraries (sampleCall false) s (.batchFinalized "aa", sampleAnswers) =
          some t ∧ t.outcome = some (.ok "aa") ∧ s.vars.validatedCommitmentTxid = some "aa" :=
    ⟨_, _, _, _, _, rfl, rfl, rfl, rfl, rfl⟩
  have hrun := run_of_exec hs
    (along_of_check (p := fun _ _ ↦ true) (fun _ _ (_ : true = true) ↦ True.intro) rfl)
  obtain ⟨hforfeits, hreturned⟩ := joinBatch_checked hrun
  obtain ⟨hchecked, -⟩ := hforfeits [] earlier _ _ _ hlog
  exact ⟨s, t, forfeitTx, connectorTree, earlier, hs, hlog, hchecked, ht,
    (hreturned _ _ _ _ ht hreturns).mpr hpinned⟩

end ArkadeSdk.VhtlcBatch
