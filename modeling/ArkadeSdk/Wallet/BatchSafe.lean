import ArkadeSdk.Wallet.Batch

/-! A settlement hands nothing over but forfeits of its own coins, against a commitment
transaction that it has checked. -/

namespace ArkadeSdk.Batch

open WireFormat JsNumber BatchTree LabelledRun

variable {lib : Libraries} {handler : Handler}

def outpoint (coin : ExtendedCoin) : Txid × ℕ := (coin.txid, coin.vout)

/-- The two outputs that a forfeit spends. -/
def spendPair (id : Transaction → Txid) (coin : ExtendedCoin) (leaf : Transaction) :
    List (Option Txid × Option ℕ) :=
  [(some coin.txid, some coin.vout), (some (id leaf), some 0)]

theorem forfeitOf_ok {script : Bytes} {coin : ExtendedCoin} {leaf tx : Transaction}
    (h : forfeitOf lib script coin leaf = .ok tx) :
    tx.outpoints = spendPair lib.txs.id coin leaf := by
  unfold forfeitOf at h
  split at h
  · cases h
  · split at h
    · cases h
    · cases h
    · cases h
    · obtain ⟨pkScript, -, h⟩ := bind_ok.mp h
      obtain rfl := pure_ok.mp h
      rfl

/-- The coins to forfeit among inputs that are numbered from `i` on. -/
def ownFrom (dustAmount : ℤ) (now : ℕ → ℤ) (i : ℕ) : List ExtendedCoin → List ExtendedCoin
  | [] => []
  | coin :: rest =>
    if forfeitable dustAmount (now i) coin then coin :: ownFrom dustAmount now (i + 1) rest
    else ownFrom dustAmount now (i + 1) rest

/-- The loop pairs the coins to forfeit with the connectors from `connectorIndex` on. -/
theorem forfeitLoop_ok {answers : Answers} {settlement : Transaction} {script : Bytes}
    {leaves : List Transaction} {i connectorIndex : ℕ} {inputs : List ExtendedCoin}
    {forfeits : List Transaction} {boarding : Bool}
    (h : forfeitLoop lib handler answers settlement script leaves i connectorIndex inputs =
      .ok (forfeits, boarding)) :
    ∃ used : List Transaction, used.Sublist (leaves.drop connectorIndex) ∧
      used.length = (ownFrom handler.dustAmount answers.now i inputs).length ∧
      forfeits.map Transaction.outpoints =
        List.zipWith (spendPair lib.txs.id) (ownFrom handler.dustAmount answers.now i inputs)
          used := by
  induction inputs generalizing i connectorIndex forfeits boarding with
  | nil =>
    cases h
    exact ⟨[], List.nil_sublist _, rfl, rfl⟩
  | cons coin rest ih =>
    unfold forfeitLoop at h
    split at h
    · rename_i hboarding
      obtain ⟨signed, -, h⟩ := bind_ok.mp h
      obtain ⟨⟨forfeits', boarding'⟩, hrest, h⟩ := bind_ok.mp h
      obtain ⟨rfl, -⟩ := Prod.mk.inj (pure_ok.mp h)
      have hnot : forfeitable handler.dustAmount (answers.now i) coin = false := by
        simp [forfeitable, Option.isNone_iff_eq_none.mp hboarding]
      rw [ownFrom, hnot]
      exact ih hrest
    · split at h
      · rename_i hnot
        rw [ownFrom, if_neg (by simpa using hnot)]
        exact ih h
      · rename_i hown
        obtain ⟨-, h⟩ := then_ok.mp h
        split at h
        · cases h
        · rename_i leaf hleaf
          obtain ⟨forfeitTx, hforfeit, h⟩ := bind_ok.mp h
          obtain ⟨-, h⟩ := then_ok.mp h
          obtain ⟨⟨forfeits', boarding'⟩, hrest, h⟩ := bind_ok.mp h
          obtain ⟨rfl, -⟩ := Prod.mk.inj (pure_ok.mp h)
          obtain ⟨used, hsub, hlength, hpairs⟩ := ih hrest
          obtain ⟨hlt, hget⟩ := List.getElem?_eq_some_iff.mp hleaf
          rw [ownFrom, if_pos (by simpa using hown)]
          refine ⟨leaf :: used, ?_, by simp [hlength], ?_⟩
          · rw [List.drop_eq_getElem_cons hlt, hget]
            exact hsub.cons_cons leaf
          · rw [List.map_cons, List.zipWith_cons_cons, hpairs, forfeitOf_ok hforfeit]

theorem mem_ownFrom {dustAmount : ℤ} {now : ℕ → ℤ} {i n : ℕ} {inputs : List ExtendedCoin}
    {coin : ExtendedCoin} (hcoin : inputs[n]? = some coin)
    (h : forfeitable dustAmount (now (i + n)) coin = true) :
    coin ∈ ownFrom dustAmount now i inputs := by
  induction inputs generalizing i n with
  | nil => cases hcoin
  | cons first rest ih =>
    unfold ownFrom
    cases n with
    | zero =>
      cases hcoin
      rw [Nat.add_zero] at h
      rw [if_pos h]
      exact List.mem_cons_self
    | succ n =>
      have hrest := ih hcoin (i := i + 1) (by rwa [Nat.add_right_comm, Nat.add_assoc])
      split
      · exact List.mem_cons_of_mem _ hrest
      · exact hrest

theorem ownFrom_sublist (dustAmount : ℤ) (now : ℕ → ℤ) (i : ℕ) (inputs : List ExtendedCoin) :
    (ownFrom dustAmount now i inputs).Sublist inputs := by
  induction inputs generalizing i with
  | nil => exact .slnil
  | cons coin rest ih =>
    unfold ownFrom
    split
    · exact (ih (i + 1)).cons_cons coin
    · exact (ih (i + 1)).cons coin

/-- Every forfeit spends a virtual input of the intent and a connector of a tree that hangs from
output 1 of the commitment transaction; no input and no connector is in two of them; every input
to forfeit is in one. -/
structure Forfeited (lib : Libraries) (handler : Handler) (commitmentTx : Transaction)
    (now : ℕ → ℤ) (forfeits : List Transaction) (connectorTree : Option TxTree) : Prop where
  spends : ∀ forfeit ∈ forfeits, ∃ coin ∈ handler.inputs, coin.virtualFacts.isSome = true ∧
    ∃ tree leaf, connectorTree = some tree ∧ leaf ∈ tree.leaves ∧
      tree.validate lib.txs = .ok () ∧
      tree.root.outpoints = [(some (lib.txs.id commitmentTx), some 1)] ∧
      forfeit.outpoints = spendPair lib.txs.id coin leaf
  apart : forfeits.Pairwise fun forfeit other ↦ forfeit.outpoints[0]? ≠ other.outpoints[0]? ∧
    forfeit.outpoints[1]? ≠ other.outpoints[1]?
  covers : ∀ (i : ℕ) (coin : ExtendedCoin), handler.inputs[i]? = some coin →
    forfeitable handler.dustAmount (now i) coin = true →
      ∃ forfeit ∈ forfeits, forfeit.outpoints[0]? = some (some coin.txid, some coin.vout)

section Pairs

variable {id : Transaction → Txid} {own : List ExtendedCoin} {used forfeits : List Transaction}

theorem pairs_mem (h : forfeits.map Transaction.outpoints = List.zipWith (spendPair id) own used) :
    ∀ forfeit ∈ forfeits, ∃ coin ∈ own, ∃ leaf ∈ used,
      forfeit.outpoints = spendPair id coin leaf := by
  induction own generalizing used forfeits with
  | nil =>
    have hnil : forfeits = [] := List.map_eq_nil_iff.mp h
    simp [hnil]
  | cons coin own ih =>
    cases used with
    | nil =>
      have hnil : forfeits = [] := List.map_eq_nil_iff.mp h
      simp [hnil]
    | cons leaf used =>
      cases forfeits with
      | nil => simp
      | cons first forfeits =>
        obtain ⟨hfirst, hrest⟩ := List.cons.inj h
        intro forfeit hforfeit
        rcases List.mem_cons.mp hforfeit with rfl | hforfeit
        · exact ⟨coin, List.mem_cons_self, leaf, List.mem_cons_self, hfirst⟩
        · obtain ⟨other, hother, leaf', hleaf', hpair⟩ := ih hrest forfeit hforfeit
          exact ⟨other, List.mem_cons_of_mem _ hother, leaf', List.mem_cons_of_mem _ hleaf', hpair⟩

theorem pairs_apart (h : forfeits.map Transaction.outpoints = List.zipWith (spendPair id) own used)
    (hown : (own.map outpoint).Nodup) (hused : (used.map id).Nodup) :
    forfeits.Pairwise fun forfeit other ↦ forfeit.outpoints[0]? ≠ other.outpoints[0]? ∧
      forfeit.outpoints[1]? ≠ other.outpoints[1]? := by
  induction own generalizing used forfeits with
  | nil =>
    have hnil : forfeits = [] := List.map_eq_nil_iff.mp h
    simp [hnil]
  | cons coin own ih =>
    cases used with
    | nil =>
      have hnil : forfeits = [] := List.map_eq_nil_iff.mp h
      simp [hnil]
    | cons leaf used =>
      cases forfeits with
      | nil => exact .nil
      | cons first forfeits =>
        obtain ⟨hfirst, hrest⟩ := List.cons.inj h
        obtain ⟨hcoin, hown⟩ := List.nodup_cons.mp hown
        obtain ⟨hleaf, hused⟩ := List.nodup_cons.mp hused
        refine List.pairwise_cons.mpr ⟨?_, ih hrest hown hused⟩
        intro other hother
        obtain ⟨coin', hcoin', leaf', hleaf', hpair⟩ := pairs_mem hrest other hother
        rw [hfirst, hpair]
        refine ⟨fun hsame ↦ hcoin ?_, fun hsame ↦ hleaf ?_⟩
        · obtain ⟨htxid, hvout⟩ : coin.txid = coin'.txid ∧ coin.vout = coin'.vout := by
            simpa [spendPair] using hsame
          refine List.mem_map.mpr ⟨coin', hcoin', ?_⟩
          rw [outpoint, outpoint, htxid, hvout]
        · have hid : id leaf = id leaf' := by simpa [spendPair] using hsame
          exact List.mem_map.mpr ⟨leaf', hleaf', hid.symm⟩

theorem pairs_covers (h : forfeits.map Transaction.outpoints = List.zipWith (spendPair id) own used)
    (hlength : used.length = own.length) : ∀ coin ∈ own, ∃ forfeit ∈ forfeits,
      forfeit.outpoints[0]? = some (some coin.txid, some coin.vout) := by
  induction own generalizing used forfeits with
  | nil => simp
  | cons coin own ih =>
    cases used with
    | nil => cases hlength
    | cons leaf used =>
      cases forfeits with
      | nil => cases h
      | cons first forfeits =>
        obtain ⟨hfirst, hrest⟩ := List.cons.inj h
        intro other hother
        rcases List.mem_cons.mp hother with rfl | hother
        · refine ⟨first, List.mem_cons_self, ?_⟩
          rw [hfirst]
          rfl
        · obtain ⟨forfeit, hforfeit, hspends⟩ := ih hrest (Nat.succ.inj hlength) other hother
          exact ⟨forfeit, List.mem_cons_of_mem _ hforfeit, hspends⟩

end Pairs

theorem forfeitable_virtual {dustAmount now : ℤ} {coin : ExtendedCoin}
    (h : forfeitable dustAmount now coin = true) : coin.virtualFacts.isSome = true := by
  cases hfacts : coin.virtualFacts with
  | none => simp [forfeitable, hfacts] at h
  | some v => rfl

theorem ownFrom_virtual {dustAmount : ℤ} {now : ℕ → ℤ} {i : ℕ} {inputs : List ExtendedCoin} :
    ∀ coin ∈ ownFrom dustAmount now i inputs, coin.virtualFacts.isSome = true := by
  induction inputs generalizing i with
  | nil => simp [ownFrom]
  | cons first rest ih =>
    intro coin hcoin
    unfold ownFrom at hcoin
    split at hcoin
    · rename_i hfirst
      rcases List.mem_cons.mp hcoin with rfl | hcoin
      · exact forfeitable_virtual hfirst
      · exact ih coin hcoin
    · exact ih coin hcoin

theorem handleSettlement_checked {answers : Answers} {commitmentTx : String} {script : Bytes}
    {connectorTree : Option TxTree} {validated : Option Txid} {settlement : Transaction}
    {forfeits : List Transaction} {boarding : Bool}
    (h : handleSettlementFinalizationEvent lib handler answers commitmentTx script connectorTree
      validated = .ok (settlement, forfeits, boarding)) :
    lib.txs.fromPSBT commitmentTx = .ok settlement ∧
      (validated = some (lib.txs.id settlement) ∨
        validated = none ∧ AllPaid lib.addresses settlement handler.expectedRecipients) ∧
      forfeitLoop lib handler answers settlement script
        ((connectorTree.map TxTree.leaves).getD []) 0 0 handler.inputs =
          .ok (forfeits, boarding) := by
  obtain ⟨tx, htx, h⟩ := bind_ok.mp h
  obtain ⟨⟨⟩, hfinal, h⟩ := bind_ok.mp h
  have hloop : forfeitLoop lib handler answers tx script
      ((connectorTree.map TxTree.leaves).getD []) 0 0 handler.inputs = .ok (forfeits, boarding) ∧
        tx = settlement := by
    split at h
    · obtain ⟨-, h⟩ := then_ok.mp h
      obtain ⟨⟨forfeits', boarding'⟩, hloop, h⟩ := bind_ok.mp h
      obtain ⟨rfl, rfl, rfl⟩ := by simpa using h
      exact ⟨hloop, rfl⟩
    · obtain ⟨⟨forfeits', boarding'⟩, hloop, h⟩ := bind_ok.mp h
      obtain ⟨rfl, rfl, rfl⟩ := by simpa using h
      exact ⟨hloop, rfl⟩
  obtain ⟨hloop, rfl⟩ := hloop
  refine ⟨htx, ?_, hloop⟩
  cases validated with
  | some txid =>
    simp only [assertFinalCommitmentMatchesValidated, rejectIf_ok, ne_eq, not_not] at hfinal
    exact .inl (congrArg some hfinal.symm)
  | none =>
    refine .inr ⟨rfl, ?_⟩
    split at h
    · exact validateBatchRecipientsWithoutTree_ok (then_ok.mp h).1
    · rename_i hempty
      have hnil : handler.expectedRecipients = [] := by simpa using hempty
      rw [hnil]
      exact ⟨[], List.nodup_nil, .nil⟩

theorem onBatchFinalization_ok (hfree : lib.txs.CollisionFree)
    (hinputs : (handler.inputs.map outpoint).Nodup) {answers : Answers} {commitmentTx : String}
    {connectorTree : Option TxTree} {validated : Option Txid} {settlement : Transaction}
    {forfeits : List Transaction} {boarding : Bool}
    (hconnectors : ∀ tree, connectorTree = some tree →
      ∃ nodes, TxTree.create lib.txs nodes = .ok tree)
    (h : onBatchFinalization lib handler answers commitmentTx connectorTree validated =
      .ok (settlement, forfeits, boarding)) :
    (validated = some (lib.txs.id settlement) ∨
      validated = none ∧ AllPaid lib.addresses settlement handler.expectedRecipients) ∧
    Forfeited lib handler settlement answers.now forfeits connectorTree := by
  unfold onBatchFinalization at h
  split at h
  · cases h
  rename_i script hscript
  have hchecks : (∀ tree, connectorTree = some tree →
      validateConnectorsTxGraph lib.txs commitmentTx tree = .ok ()) ∧
      handleSettlementFinalizationEvent lib handler answers commitmentTx script connectorTree
        validated = .ok (settlement, forfeits, boarding) := by
    cases connectorTree with
    | none => exact ⟨fun _ htree ↦ (by cases htree), h⟩
    | some tree =>
      obtain ⟨hvalid, h⟩ := then_ok.mp h
      refine ⟨?_, h⟩
      rintro _ ⟨⟩
      exact hvalid
  obtain ⟨hvalid, h⟩ := hchecks
  obtain ⟨htx, hchecked, hloop⟩ := handleSettlement_checked h
  refine ⟨hchecked, ?_⟩
  obtain ⟨used, hused, hlength, hpairs⟩ := forfeitLoop_ok hloop
  rw [List.drop_zero] at hused
  have hown := ownFrom_sublist handler.dustAmount answers.now 0 handler.inputs
  have htree : ∀ leaf ∈ used, ∃ tree, connectorTree = some tree ∧ leaf ∈ tree.leaves := by
    intro leaf hleaf
    have hleaf := hused.subset hleaf
    cases connectorTree with
    | none => cases hleaf
    | some tree => exact ⟨tree, rfl, hleaf⟩
  have hdistinct : (used.map lib.txs.id).Nodup := by
    cases connectorTree with
    | none =>
      rw [List.sublist_nil.mp hused]
      exact List.nodup_nil
    | some tree =>
      obtain ⟨nodes, hnodes⟩ := hconnectors tree rfl
      have htreevalid := (validateConnectorsTxGraph_ok (hvalid tree rfl)).1
      exact (create_distinct hfree hnodes htreevalid).sublist (hused.map _)
  refine ⟨?_, pairs_apart hpairs (hinputs.sublist (hown.map _)) hdistinct, ?_⟩
  · intro forfeit hforfeit
    obtain ⟨coin, hcoin, leaf, hleaf, hpair⟩ := pairs_mem hpairs forfeit hforfeit
    obtain ⟨tree, hsome, hmem⟩ := htree leaf hleaf
    obtain ⟨htreevalid, tx, htx', hroot⟩ := validateConnectorsTxGraph_ok (hvalid tree hsome)
    obtain rfl : tx = settlement := Except.ok.inj (htx'.symm.trans htx)
    exact ⟨coin, hown.subset hcoin, ownFrom_virtual coin hcoin, tree, leaf, hsome, hmem, htreevalid,
      hroot, hpair⟩
  · intro i coin hcoin hforfeitable
    have hmem := mem_ownFrom hcoin (i := 0) (by rwa [Nat.zero_add])
    exact pairs_covers hpairs hlength coin hmem

/-- What was done since the batch was joined. -/
def current : List Entry → List Entry
  | [] => []
  | .joined :: _ => []
  | entry :: log => entry :: current log

theorem mem_of_current {log : List Entry} {entry : Entry} (h : entry ∈ current log) :
    entry ∈ log := by
  induction log with
  | nil => cases h
  | cons first log ih =>
    cases first with
    | joined => cases h
    | validated vtxoTree commitmentTx root =>
      rcases List.mem_cons.mp h with rfl | h
      · exact List.mem_cons_self
      · exact List.mem_cons_of_mem _ (ih h)
    | submitted commitmentTx now forfeits connectorTree =>
      rcases List.mem_cons.mp h with rfl | h
      · exact List.mem_cons_self
      · exact List.mem_cons_of_mem _ (ih h)

/-- The tree and the recipients were checked against the commitment transaction. -/
def Validated (lib : Libraries) (handler : Handler) (vtxoTree : TxTree)
    (commitmentTx : Transaction) (root : Bytes) : Prop :=
  validateVtxoTxGraph lib.txs lib.keys vtxoTree commitmentTx root = .ok () ∧
    validateBatchRecipients lib.addresses commitmentTx vtxoTree.leaves
      handler.expectedRecipients = .ok ()

def Checked (lib : Libraries) (handler : Handler) (commitmentTx : Transaction)
    (earlier : List Entry) : Prop :=
  (∃ vtxoTree tx root, .validated vtxoTree tx root ∈ current earlier ∧
    Validated lib handler vtxoTree tx root ∧ lib.txs.id tx = lib.txs.id commitmentTx) ∨
  AllPaid lib.addresses commitmentTx handler.expectedRecipients

def Safe (lib : Libraries) (handler : Handler) : Entry → List Entry → Prop
  | .joined, _ => True
  | .validated vtxoTree commitmentTx root, _ => Validated lib handler vtxoTree commitmentTx root
  | .submitted commitmentTx now forfeits connectorTree, earlier =>
    Checked lib handler commitmentTx earlier ∧
      Forfeited lib handler commitmentTx now forfeits connectorTree

structure Inv (lib : Libraries) (handler : Handler) (s : State) : Prop where
  log : Chronicle (Safe lib handler) s.log
  signed : s.step = .treeSigningStarted ∨ s.step = .treeNoncesAggregated →
    handler.skipVtxoTreeSigning = false → ∃ vtxoTree tx root,
      .validated vtxoTree tx root ∈ current s.log ∧
        s.validatedCommitmentTxid = some (lib.txs.id tx)
  skipped : handler.skipVtxoTreeSigning = true →
    s.validatedCommitmentTxid = none ∧ s.step ≠ .batchStarted
  connectors : ∀ tree, s.connectorTree = some tree → ∃ nodes, TxTree.create lib.txs nodes = .ok tree

theorem onTreeSigningStarted_ok {sweepTapTreeRoot : Option Bytes} {cosigners : List String}
    {unsignedCommitmentTx : String} {vtxoTree : TxTree} {commitmentTx : Transaction} {root : Bytes}
    (h : onTreeSigningStarted lib handler sweepTapTreeRoot cosigners unsignedCommitmentTx vtxoTree =
      .ok (some (commitmentTx, root))) : Validated lib handler vtxoTree commitmentTx root := by
  unfold onTreeSigningStarted at h
  split at h
  · cases h
  split at h
  · cases h
  rename_i sweepRoot
  obtain ⟨xOnlyPublicKeys, -, h⟩ := bind_ok.mp h
  obtain ⟨xonlySignerPublicKey, -, h⟩ := bind_ok.mp h
  split at h
  · cases h
  obtain ⟨tx, -, h⟩ := bind_ok.mp h
  obtain ⟨hgraph, h⟩ := then_ok.mp h
  have hrecipients : validateBatchRecipients lib.addresses tx vtxoTree.leaves
      handler.expectedRecipients = .ok () ∧ tx = commitmentTx ∧ sweepRoot = root := by
    split_ifs at h with hsome
    · obtain ⟨hrecipients, h⟩ := then_ok.mp h
      split at h
      · cases h
      · obtain ⟨-, h⟩ := then_ok.mp h
        exact ⟨hrecipients, by simpa using h⟩
    · have hnil : handler.expectedRecipients = [] := by simpa using hsome
      rw [hnil]
      split at h
      · cases h
      · obtain ⟨-, h⟩ := then_ok.mp h
        exact ⟨rfl, by simpa using h⟩
  obtain ⟨hrecipients, rfl, rfl⟩ := hrecipients
  exact ⟨hgraph, hrecipients⟩

theorem validated_of_log {log : List Entry} (h : Chronicle (Safe lib handler) log)
    {vtxoTree : TxTree} {tx : Transaction} {root : Bytes}
    (hmem : .validated vtxoTree tx root ∈ log) : Validated lib handler vtxoTree tx root := by
  obtain ⟨before, earlier, rfl⟩ := List.append_of_mem hmem
  exact h.entry

theorem inv_initial : Inv lib handler initial where
  log := trivial
  signed := by
    intro h
    rcases h with h | h
    · cases h
    · cases h
  skipped := fun _ ↦ ⟨rfl, fun h ↦ (by cases h)⟩
  connectors := fun _ h ↦ (by cases h)

theorem Inv.throws {s : State} (h : Inv lib handler s) : Inv lib handler s.throws :=
  ⟨h.log, h.signed, h.skipped, h.connectors⟩

theorem createFrom_ok {txs : TxLibrary} {chunks : List TxTreeNode} {present result : Option TxTree}
    (hpresent : ∀ tree, present = some tree → ∃ nodes, TxTree.create txs nodes = .ok tree)
    (h : createFrom txs chunks present = .ok result) :
    ∀ tree, result = some tree → ∃ nodes, TxTree.create txs nodes = .ok tree := by
  unfold createFrom at h
  split at h
  · obtain rfl := Except.ok.inj h
    exact hpresent
  · intro tree htree
    subst htree
    cases hcreate : TxTree.create txs chunks with
    | error e =>
      rw [hcreate] at h
      cases h
    | ok created =>
      rw [hcreate] at h
      cases h
      exact ⟨chunks, hcreate⟩

theorem inv_treeSigning {s : State} {answers : Answers} {cosigners : List String}
    {unsignedCommitmentTx : String} (hinv : Inv lib handler s) (hstep : s.step = .batchStarted) :
    Inv lib handler (treeSigning lib handler answers s cosigners unsignedCommitmentTx) := by
  have hskip : handler.skipVtxoTreeSigning ≠ true := fun h ↦ (hinv.skipped h).2 hstep
  unfold treeSigning
  split
  · exact hinv.throws
  · rename_i vtxoTree hcreate
    have hkept : Inv lib handler { s with vtxoTree := some vtxoTree } :=
      ⟨hinv.log, hinv.signed, hinv.skipped, hinv.connectors⟩
    dsimp only
    split
    · exact hkept.throws
    · exact hkept
    · rename_i commitmentTx root hok
      refine ⟨⟨onTreeSigningStarted_ok hok, hinv.log⟩, ?_, fun h ↦ absurd h hskip, hinv.connectors⟩
      intro _ _
      exact ⟨vtxoTree, commitmentTx, root, List.mem_cons_self, rfl⟩

theorem inv_finalization (hfree : lib.txs.CollisionFree)
    (hinputs : (handler.inputs.map outpoint).Nodup) {s : State} {answers : Answers}
    {commitmentTx : String} (hinv : Inv lib handler s) (hstep : s.step = .treeNoncesAggregated) :
    Inv lib handler (finalization lib handler answers s commitmentTx) := by
  unfold finalization
  dsimp only
  split
  · exact hinv.throws
  · rename_i vtxoTree connectorTree htrees
    have hconnector :
        createFrom lib.txs s.flatConnectorTree s.connectorTree = .ok connectorTree := by
      split at htrees
      · obtain ⟨-, h⟩ := then_ok.mp htrees
        obtain ⟨tree, htree, h⟩ := bind_ok.mp h
        obtain ⟨-, rfl⟩ := Prod.mk.inj (pure_ok.mp h)
        exact htree
      · obtain ⟨_, -, h⟩ := bind_ok.mp htrees
        obtain ⟨-, h⟩ := then_ok.mp h
        obtain ⟨tree, htree, h⟩ := bind_ok.mp h
        obtain ⟨-, rfl⟩ := Prod.mk.inj (pure_ok.mp h)
        exact htree
    have hcreated := createFrom_ok hinv.connectors hconnector
    have hkept : Inv lib handler { s with vtxoTree := vtxoTree, connectorTree := connectorTree } :=
      ⟨hinv.log, hinv.signed, hinv.skipped, hcreated⟩
    split
    · exact hkept.throws
    · rename_i settlement forfeits boarding hok
      obtain ⟨hchecked, hforfeited⟩ := onBatchFinalization_ok hfree hinputs hcreated hok
      split
      · have hcurrent : Checked lib handler settlement s.log := by
          rcases hchecked with hsome | ⟨-, hpaid⟩
          · left
            have hskip : handler.skipVtxoTreeSigning = false := by
              cases h : handler.skipVtxoTreeSigning with
              | false => rfl
              | true =>
                have hnone := (hinv.skipped h).1
                rw [hnone] at hsome
                cases hsome
            obtain ⟨tree, tx, root, hmem, htxid⟩ := hinv.signed (.inr hstep) hskip
            refine ⟨tree, tx, root, hmem, validated_of_log hinv.log (mem_of_current hmem), ?_⟩
            rw [htxid] at hsome
            exact Option.some.inj hsome
          · exact .inr hpaid
        refine ⟨⟨⟨hcurrent, hforfeited⟩, hinv.log⟩, ?_, ?_, hcreated⟩
        · intro _ hskip
          obtain ⟨tree, tx, root, hmem, htxid⟩ := hinv.signed (.inr hstep) hskip
          exact ⟨tree, tx, root, List.mem_cons_of_mem _ hmem, htxid⟩
        · intro hskip
          refine ⟨(hinv.skipped hskip).1, ?_⟩
          dsimp only
          split
          · intro h
            cases h
          · exact (hinv.skipped hskip).2
      · refine ⟨hinv.log, ?_, ?_, hcreated⟩
        · intro h
          rcases h with h | h
          · cases h
          · cases h
        · intro hskip
          refine ⟨(hinv.skipped hskip).1, ?_⟩
          intro h
          cases h

theorem inv_step (hfree : lib.txs.CollisionFree) (hinputs : (handler.inputs.map outpoint).Nodup)
    {s t : State} {input : SettlementEvent × Answers} (hinv : Inv lib handler s)
    (h : step lib handler s input = some t) : Inv lib handler t := by
  obtain ⟨event, answers⟩ := input
  unfold step at h
  dsimp only at h
  split at h
  · cases h
  obtain rfl := Option.some.inj h
  cases event with
  | batchStarted intentIdHashes batchExpiry =>
    dsimp only
    split
    · exact hinv
    split
    · exact hinv.throws
    · rename_i root _
      refine ⟨⟨trivial, hinv.log⟩, ?_, ?_, hinv.connectors⟩
      · intro hsigned hskip
        simp [hskip] at hsigned
      · intro hskip
        refine ⟨(hinv.skipped hskip).1, ?_⟩
        simp [hskip]
  | batchFinalized commitmentTxid =>
    dsimp only
    split
    · exact hinv.throws
    · exact hinv
  | batchFailed reason => exact hinv.throws
  | treeTx batchIndex chunk =>
    dsimp only
    split
    · split
      · exact ⟨hinv.log, hinv.signed, hinv.skipped, hinv.connectors⟩
      · exact ⟨hinv.log, hinv.signed, hinv.skipped, hinv.connectors⟩
    · exact hinv
  | treeSignature txid =>
    dsimp only
    split
    · split
      · exact hinv.throws
      · split
        · exact hinv
        · exact hinv.throws
    · exact hinv
  | treeSigningStarted cosignersPublicKeys unsignedCommitmentTx =>
    dsimp only
    split
    · rename_i hstep
      exact inv_treeSigning hinv hstep
    · exact hinv
  | treeNonces =>
    dsimp only
    split
    · rename_i hstep
      have haggregated : Inv lib handler { s with step := .treeNoncesAggregated } :=
        ⟨hinv.log, fun _ ↦ hinv.signed (.inl hstep),
          fun hskip ↦ ⟨(hinv.skipped hskip).1, fun h ↦ (by cases h)⟩, hinv.connectors⟩
      unfold treeNonces
      split
      · exact haggregated
      · split
        · exact hinv.throws
        · split
          · exact haggregated
          · exact hinv
    · exact hinv
  | batchFinalization commitmentTx =>
    dsimp only
    split
    · rename_i hstep
      exact inv_finalization hfree hinputs hinv hstep
    · exact hinv
  | other => exact hinv

/-- Whatever the events, what is handed over is checked and forfeits nothing else. -/
theorem settlement_safe (hfree : lib.txs.CollisionFree)
    (hinputs : (handler.inputs.map outpoint).Nodup) {s : State}
    (h : Run (step lib handler) (fun _ _ ↦ True) initial s)
    {after earlier : List Entry} {commitmentTx : Transaction} {now : ℕ → ℤ}
    {forfeits : List Transaction} {connectorTree : Option TxTree}
    (hlog : s.log = after ++ .submitted commitmentTx now forfeits connectorTree :: earlier) :
    Checked lib handler commitmentTx earlier ∧
      Forfeited lib handler commitmentTx now forfeits connectorTree := by
  have hinv : Inv lib handler s :=
    h.invariant (fun _ _ _ hinv _ hstep ↦ inv_step hfree hinputs hinv hstep) inv_initial
  have hchronicle := hinv.log
  rw [hlog] at hchronicle
  exact hchronicle.entry

/-! A batch of one coin and one connector, without a session. -/

def sampleCommitment : Transaction :=
  ⟨[⟨some "in", some 0, none⟩], [⟨some [0x51], some 5000⟩, ⟨some [0x52], some 330⟩]⟩

def sampleConnector : Transaction := ⟨[⟨some "aa", some 1, none⟩], [⟨some [0x53], some 330⟩]⟩

def sampleLibrary : TxLibrary where
  fromPSBT psbt :=
    if psbt = "commitment" then .ok sampleCommitment
    else if psbt = "connector" then .ok sampleConnector
    else .error (message "Invalid PSBT")
  id tx := if tx = sampleCommitment then "aa" else "cc"

theorem sampleLibrary_free : sampleLibrary.CollisionFree := by
  have hdecoded (tx : Transaction) (h : sampleLibrary.Decoded tx) :
      tx = sampleCommitment ∨ tx = sampleConnector := by
    obtain ⟨psbt, h⟩ := h
    dsimp only [sampleLibrary] at h
    split_ifs at h
    · exact .inl (Except.ok.inj h).symm
    · exact .inr (Except.ok.inj h).symm
  intro tx tx' h h' hid
  rcases hdecoded tx h with rfl | rfl
  · rcases hdecoded tx' h' with rfl | rfl
    · exact ⟨rfl, rfl⟩
    · exact absurd hid (by decide)
  · rcases hdecoded tx' h' with rfl | rfl
    · exact absurd hid (by decide)
    · exact ⟨rfl, rfl⟩

def sampleLibraries : Libraries where
  txs := sampleLibrary
  keys := ⟨fun _ ↦ .ok [], fun _ _ ↦ .ok none⟩
  addresses := ⟨fun _ ↦ none, fun _ ↦ .ok [0x51], ScriptCoder.standardOps, HexCodec.base16⟩
  sweepTapTreeRoot _ := .ok []
  xOnly key := .ok key
  vtxoPkScript tapTree := .ok tapTree

def sampleCoin : ExtendedCoin where
  txid := "vv"
  vout := 0
  value := 5000
  tapTree := [0x54]
  virtualFacts := some ⟨some false, some false, none, none, none, none, none, none⟩

def sampleHandler : Handler where
  intentIdHash := "intent"
  inputs := [sampleCoin]
  expectedRecipients := [⟨"address", some (.ofInt 5000), none⟩]
  session := none
  skipVtxoTreeSigning := true
  forfeitOutputScript := some [0x55]
  dustAmount := 330

def sampleAnswers : Answers :=
  ⟨true, true, true, true, fun _ ↦ 1800000000000, fun _ ↦ .signs, fun _ ↦ true, true⟩

def sampleEvents : List (SettlementEvent × Answers) :=
  [(.batchStarted ["intent"] 144, sampleAnswers),
    (.treeTx 1 ⟨"cc", "connector", []⟩, sampleAnswers),
    (.batchFinalization "commitment", sampleAnswers)]

theorem settlement_safe_sample : ∃ s forfeits connectorTree,
    exec (step sampleLibraries sampleHandler) initial sampleEvents = some s ∧
      s.log = [.submitted sampleCommitment sampleAnswers.now forfeits connectorTree, .joined] ∧
      forfeits.length = 1 ∧
      Checked sampleLibraries sampleHandler sampleCommitment [.joined] ∧
      Forfeited sampleLibraries sampleHandler sampleCommitment sampleAnswers.now forfeits
        connectorTree := by
  obtain ⟨s, forfeits, connectorTree, hs, hlog, hlength⟩ : ∃ s forfeits connectorTree,
      exec (step sampleLibraries sampleHandler) initial sampleEvents = some s ∧
        s.log = [.submitted sampleCommitment sampleAnswers.now forfeits connectorTree, .joined] ∧
        forfeits.length = 1 := ⟨_, _, _, rfl, rfl, rfl⟩
  have hrun := run_of_exec hs
    (along_of_check (p := fun _ _ ↦ true) (fun _ _ (_ : true = true) ↦ True.intro) rfl)
  have hsafe := settlement_safe sampleLibrary_free (by decide) hrun
    (hlog.trans (List.nil_append _).symm)
  exact ⟨s, forfeits, connectorTree, hs, hlog, hlength, hsafe⟩

end ArkadeSdk.Batch
