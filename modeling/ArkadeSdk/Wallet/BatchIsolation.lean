import ArkadeSdk.Wallet.BatchPhases

/-! What `Batch.join` hands over is of the batch that was joined last, as long as nothing was
collected for the ones before it. -/

namespace ArkadeSdk.Batch

open WireFormat JsNumber BatchTree LabelledRun

def chunks (kind : ℕ → Bool) (log : List Call) : List TxTreeNode :=
  log.reverse.filterMap fun
    | .event (.treeTx batchIndex chunk) => if kind batchIndex then some chunk else none
    | _ => none

def isVtxo (batchIndex : ℕ) : Bool := batchIndex = 0

def isConnector (batchIndex : ℕ) : Bool := batchIndex ≠ 0

def Isolated (txs : TxLibrary) : Call → List Call → Prop
  | .onTreeSigningStarted vtxoTree _, log =>
    TxTree.create txs (chunks isVtxo (sinceStart log)) = .ok vtxoTree
  | .onBatchFinalization vtxoTree connectorTree _, log =>
    createFrom txs (chunks isVtxo (sinceStart log)) none = .ok vtxoTree ∧
      createFrom txs (chunks isConnector (sinceStart log)) none = .ok connectorTree
  | _, _ => True

/-- A batch is joined only while nothing is collected, and a chunk comes in where it is collected
for a tree that is still to be built. -/
def Orderly {σ α : Type} (handler : JoinHandler σ α) (s : Joining σ) : Arrival α → Prop
  | .event (.batchStarted intentIdHashes batchExpiry) answers false _ =>
    (handler.onBatchStarted answers (.batchStarted intentIdHashes batchExpiry) s.vars).2 =
      .ok false → s.flatVtxoTree = [] ∧ s.flatConnectorTree = []
  | .event (.treeTx batchIndex _) _ false _ =>
    s.step ≠ .treeSigningStarted ∧
      (s.step = .treeNoncesAggregated → batchIndex = 0 → s.vtxoTree = none)
  | _ => True

theorem chunks_event {kind : ℕ → Bool} {event : SettlementEvent}
    (h : ∀ batchIndex chunk, event ≠ .treeTx batchIndex chunk) (log : List Call) :
    chunks kind (.event event :: log) = chunks kind log := by
  unfold chunks
  rw [List.reverse_cons, List.filterMap_append]
  cases event with
  | treeTx batchIndex chunk => exact absurd rfl (h batchIndex chunk)
  | _ => simp

theorem chunks_treeTx (kind : ℕ → Bool) (batchIndex : ℕ) (chunk : TxTreeNode) (log : List Call) :
    chunks kind (.event (.treeTx batchIndex chunk) :: log) =
      chunks kind log ++ if kind batchIndex then [chunk] else [] := by
  unfold chunks
  rw [List.reverse_cons, List.filterMap_append]
  cases hkind : kind batchIndex with
  | true => simp [hkind]
  | false => simp [hkind]

theorem chunks_call {kind : ℕ → Bool} {call : Call} (h : ∀ event, call ≠ .event event)
    (log : List Call) : chunks kind (call :: log) = chunks kind log := by
  unfold chunks
  rw [List.reverse_cons, List.filterMap_append]
  cases call with
  | event event => exact absurd rfl (h event)
  | _ => simp

/-- The variables hold what came in for the batch, while it is collected for and signed. -/
structure Fresh (txs : TxLibrary) (l : Loop) : Prop where
  vtxos : l.flatVtxoTree = chunks isVtxo (sinceStart l.log)
  connectors : l.flatConnectorTree = chunks isConnector (sinceStart l.log)
  vtxoTree : l.step = .treeNoncesAggregated → ∀ tree, l.vtxoTree = some tree →
    TxTree.create txs l.flatVtxoTree = .ok tree
  signing : l.step = .treeSigningStarted → ∃ tree, l.vtxoTree = some tree ∧
    TxTree.create txs l.flatVtxoTree = .ok tree

def Step.open : Step → Bool
  | .batchStarted | .treeSigningStarted | .treeNoncesAggregated => true
  | .start | .batchFinalization => false

structure Separate (txs : TxLibrary) (l : Loop) : Prop where
  isolated : Chronicle (Isolated txs) l.log
  fresh : l.step.open → Fresh txs l
  vtxoTree : l.flatVtxoTree = [] → l.vtxoTree = none
  connectorTree : l.flatConnectorTree = [] → l.connectorTree = none

section

variable {txs : TxLibrary} {skipVtxoTreeSigning : Bool} {l l' : Loop}

theorem create_nil (tree : TxTree) : TxTree.create txs [] ≠ .ok tree := by
  intro h
  obtain ⟨hempty, -⟩ := then_ok.mp h
  exact rejectIf_ok.mp hempty rfl

theorem createFrom_of_create {nodes : List TxTreeNode} {tree : TxTree} {present : Option TxTree}
    (h : TxTree.create txs nodes = .ok tree) : createFrom txs nodes present = .ok (some tree) := by
  unfold createFrom
  rw [if_neg, h]
  · rfl
  · rintro rfl
    exact create_nil tree h

theorem create_of_createFrom {nodes : List TxTreeNode} {tree : TxTree}
    (h : createFrom txs nodes none = .ok (some tree)) : TxTree.create txs nodes = .ok tree := by
  unfold createFrom at h
  split at h
  · cases h
  · obtain ⟨tree', htree, heq⟩ := map_ok.mp h
    obtain rfl := Option.some.inj heq
    exact htree

theorem trees_built {tree : TxTree} (h : l.vtxoTree = some tree) :
    l.trees txs skipVtxoTreeSigning = (do
      let connectorTree ← createFrom txs l.flatConnectorTree l.connectorTree
      return (some tree, connectorTree)) := by
  rw [Loop.trees, h]
  rfl

theorem Separate.trees (h : Separate txs l) (hstep : l.step = .treeNoncesAggregated)
    {vtxoTree connectorTree : Option TxTree}
    (htrees : l.trees txs skipVtxoTreeSigning = .ok (vtxoTree, connectorTree)) :
    createFrom txs l.flatVtxoTree none = .ok vtxoTree ∧
      createFrom txs l.flatConnectorTree none = .ok connectorTree := by
  have hfresh := h.fresh (by rw [hstep]; rfl)
  have hconnectors (hconnector : createFrom txs l.flatConnectorTree l.connectorTree =
      .ok connectorTree) : createFrom txs l.flatConnectorTree none = .ok connectorTree := by
    by_cases hempty : l.flatConnectorTree = []
    · rw [h.connectorTree hempty] at hconnector
      exact hconnector
    · unfold createFrom at hconnector ⊢
      rw [if_neg hempty] at hconnector ⊢
      exact hconnector
  cases hpresent : l.vtxoTree with
  | none =>
    rw [Loop.trees, hpresent] at htrees
    obtain ⟨vtxoTree', hvtxo, htrees⟩ := bind_ok.mp htrees
    obtain ⟨-, htrees⟩ := then_ok.mp htrees
    obtain ⟨connectorTree', hconnector, htrees⟩ := bind_ok.mp htrees
    cases pure_ok.mp htrees
    exact ⟨hvtxo, hconnectors hconnector⟩
  | some tree =>
    rw [trees_built hpresent] at htrees
    obtain ⟨connectorTree', hconnector, htrees⟩ := bind_ok.mp htrees
    cases pure_ok.mp htrees
    exact ⟨createFrom_of_create (hfresh.vtxoTree hstep tree hpresent), hconnectors hconnector⟩

theorem Fresh.record (h : Fresh txs l) {call : Call} (hstart : call.starts = false)
    (hcall : ∀ kind, chunks kind (call :: sinceStart l.log) = chunks kind (sinceStart l.log)) :
    Fresh txs (l.record call) := by
  refine ⟨?_, ?_, h.vtxoTree, h.signing⟩
  · rw [Loop.record, sinceStart_cons hstart, hcall]
    exact h.vtxos
  · rw [Loop.record, sinceStart_cons hstart, hcall]
    exact h.connectors

theorem Separate.record (h : Separate txs l) {call : Call} (hstart : call.starts = false)
    (hcall : ∀ kind, chunks kind (call :: sinceStart l.log) = chunks kind (sinceStart l.log))
    (hisolated : Isolated txs call l.log) : Separate txs (l.record call) :=
  ⟨⟨hisolated, h.isolated⟩, fun hopen ↦ (h.fresh hopen).record hstart hcall, h.vtxoTree,
    h.connectorTree⟩

theorem Separate.signing (h : Separate txs l) (hstep : l.step = .batchStarted) {vtxoTree : TxTree}
    (hcreate : TxTree.create txs l.flatVtxoTree = .ok vtxoTree) (next : Step)
    (answer : Except Message Bool) :
    Separate txs ({ l with vtxoTree := some vtxoTree, step := next }.record
      (.onTreeSigningStarted vtxoTree answer)) := by
  have hfresh := h.fresh (by rw [hstep]; rfl)
  have hbuilt : Separate txs { l with vtxoTree := some vtxoTree, step := next } := by
    refine ⟨h.isolated, fun _ ↦ ⟨hfresh.vtxos, hfresh.connectors, ?_, ?_⟩, ?_, h.connectorTree⟩
    · rintro - tree htree
      obtain rfl := Option.some.inj htree
      exact hcreate
    · exact fun _ ↦ ⟨vtxoTree, rfl, hcreate⟩
    · intro hempty
      have hempty : l.flatVtxoTree = [] := hempty
      rw [hempty] at hcreate
      exact absurd hcreate (create_nil vtxoTree)
  refine hbuilt.record rfl (fun kind ↦ chunks_call (fun _ h ↦ by cases h) _) ?_
  rw [hfresh.vtxos] at hcreate
  exact hcreate

theorem Separate.nonces (h : Separate txs l) (hstep : l.step = .treeSigningStarted) (next : Step)
    (answer : Except Message Bool) :
    Separate txs ({ l with step := next }.record (.onTreeNonces answer)) := by
  have hfresh := h.fresh (by rw [hstep]; rfl)
  obtain ⟨tree, htree, hcreate⟩ := hfresh.signing hstep
  have hadvanced : Separate txs { l with step := next } := by
    refine ⟨h.isolated, fun _ ↦ ⟨hfresh.vtxos, hfresh.connectors, ?_, fun _ ↦
      hfresh.signing hstep⟩, h.vtxoTree, h.connectorTree⟩
    rintro - tree' htree'
    obtain rfl := Option.some.inj (htree.symm.trans htree')
    exact hcreate
  exact hadvanced.record rfl (fun kind ↦ chunks_call (fun _ h ↦ by cases h) _) trivial

theorem Separate.finalization (h : Separate txs l) (hstep : l.step = .treeNoncesAggregated)
    {vtxoTree connectorTree : Option TxTree}
    (htrees : l.trees txs skipVtxoTreeSigning = .ok (vtxoTree, connectorTree)) (next : Step)
    (hnext : next ≠ .treeSigningStarted) (answer : Except Message Unit) :
    Separate txs ({ l with
      vtxoTree := vtxoTree
      connectorTree := connectorTree
      step := next }.record (.onBatchFinalization vtxoTree connectorTree answer)) := by
  have hfresh := h.fresh (by rw [hstep]; rfl)
  obtain ⟨hvtxo, hconnector⟩ := h.trees hstep htrees
  have hbuilt : Separate txs { l with
      vtxoTree := vtxoTree
      connectorTree := connectorTree
      step := next } := by
    refine ⟨h.isolated, fun _ ↦ ⟨hfresh.vtxos, hfresh.connectors, ?_, fun hsigning ↦
      absurd hsigning hnext⟩, ?_, ?_⟩
    · rintro - tree htree
      obtain rfl : vtxoTree = some tree := htree
      exact create_of_createFrom hvtxo
    · intro hempty
      have hempty : l.flatVtxoTree = [] := hempty
      rw [hempty] at hvtxo
      exact (Except.ok.inj hvtxo).symm
    · intro hempty
      have hempty : l.flatConnectorTree = [] := hempty
      rw [hempty] at hconnector
      exact (Except.ok.inj hconnector).symm
  refine hbuilt.record rfl (fun kind ↦ chunks_call (fun _ h ↦ by cases h) _) ?_
  rw [hfresh.vtxos] at hvtxo
  rw [hfresh.connectors] at hconnector
  exact ⟨hvtxo, hconnector⟩

/-- What the condition on a turn says about the variables. -/
structure Tidy (l : Loop) (event : SettlementEvent) (l' : Loop) : Prop where
  started : ∀ log, l'.log = .onBatchStarted (.ok false) :: .event event :: log →
    l.flatVtxoTree = [] ∧ l.flatConnectorTree = []
  collected : ∀ batchIndex chunk, event = .treeTx batchIndex chunk →
    l.step ≠ .treeSigningStarted ∧
      (l.step = .treeNoncesAggregated → batchIndex = 0 → l.vtxoTree = none)

theorem Separate.advance {event : SettlementEvent} (h : Separate txs l)
    (hadvance : Advance txs skipVtxoTreeSigning (l.record (.event event)) event l')
    (htidy : Tidy l event l') : Separate txs l' := by
  have hquiet (hevent : ∀ batchIndex chunk, event ≠ .treeTx batchIndex chunk) :
      Separate txs (l.record (.event event)) :=
    h.record rfl (fun kind ↦ chunks_event hevent _) trivial
  cases hadvance with
  | idle hidle =>
    by_cases hevent : ∃ batchIndex chunk, event = .treeTx batchIndex chunk
    · obtain ⟨batchIndex, chunk, rfl⟩ := hevent
      have hnot : ¬l.Collecting := hidle _ _ rfl
      have hsigning := (htidy.collected _ _ rfl).1
      refine ⟨⟨trivial, h.isolated⟩, fun hopen ↦ ?_, h.vtxoTree, h.connectorTree⟩
      have hopen : l.step.open = true := hopen
      cases hstep : l.step with
      | start =>
        rw [hstep] at hopen
        cases hopen
      | batchStarted => exact absurd (.inl hstep) hnot
      | treeSigningStarted => exact absurd hstep hsigning
      | treeNoncesAggregated => exact absurd (.inr hstep) hnot
      | batchFinalization =>
        rw [hstep] at hopen
        cases hopen
    · push Not at hevent
      exact hquiet hevent
  | @notStarted _ answer hevent hanswer =>
    refine (hquiet hevent).record ?_ (fun kind ↦ chunks_call (fun _ h ↦ by cases h) _) trivial
    cases answer with
    | error e => rfl
    | ok skip =>
      cases skip with
      | true => rfl
      | false => exact absurd rfl hanswer
  | started =>
    obtain ⟨hvtxos, hconnectors⟩ := htidy.started _ rfl
    refine ⟨⟨trivial, trivial, h.isolated⟩, fun _ ↦ ⟨hvtxos, hconnectors, ?_, ?_⟩, h.vtxoTree,
      h.connectorTree⟩
    · intro _ tree htree
      cases (h.vtxoTree hvtxos).symm.trans htree
    · intro hstep
      cases skipVtxoTreeSigning with
      | true => cases hstep
      | false => cases hstep
  | @collected batchIndex chunk hcollecting =>
    obtain ⟨-, hunbuilt⟩ := htidy.collected _ _ rfl
    have hopen : l.step.open = true := by
      rcases hcollecting with hstep | hstep
      · rw [show l.step = .batchStarted from hstep]
        rfl
      · rw [show l.step = .treeNoncesAggregated from hstep]
        rfl
    have hfresh := h.fresh hopen
    have hnot : l.step ≠ .treeSigningStarted := by
      intro hstep
      rcases hcollecting with hstep' | hstep'
      · cases hstep.symm.trans hstep'
      · cases hstep.symm.trans hstep'
    unfold Loop.collect
    by_cases hindex : batchIndex = 0
    · rw [if_pos hindex]
      refine ⟨⟨trivial, h.isolated⟩, fun _ ↦ ⟨?_, ?_, ?_, fun hstep ↦ absurd hstep hnot⟩, ?_,
        h.connectorTree⟩
      · dsimp only [Loop.record]
        rw [sinceStart_cons rfl, chunks_treeTx, hfresh.vtxos, hindex]
        rfl
      · dsimp only [Loop.record]
        rw [sinceStart_cons rfl, chunks_treeTx, hfresh.connectors, hindex]
        exact (List.append_nil _).symm
      · intro hstep tree htree
        cases (hunbuilt hstep hindex).symm.trans htree
      · intro hempty
        cases List.append_eq_nil_iff.mp hempty |>.2
    · rw [if_neg hindex]
      have hvtxo : isVtxo batchIndex = false := decide_eq_false hindex
      have hconnector : isConnector batchIndex = true := decide_eq_true hindex
      refine ⟨⟨trivial, h.isolated⟩, fun _ ↦ ⟨?_, ?_, hfresh.vtxoTree,
        fun hstep ↦ absurd hstep hnot⟩, h.vtxoTree, ?_⟩
      · dsimp only [Loop.record]
        rw [sinceStart_cons rfl, chunks_treeTx, hfresh.vtxos, hvtxo]
        exact (List.append_nil _).symm
      · dsimp only [Loop.record]
        rw [sinceStart_cons rfl, chunks_treeTx, hfresh.connectors, hconnector]
        rfl
      · intro hempty
        cases List.append_eq_nil_iff.mp hempty |>.2
  | signing hevent hstep hcreate => exact (hquiet hevent).signing hstep hcreate _ _
  | nonces hevent hstep => exact (hquiet hevent).nonces hstep _ _
  | @finalization _ vtxoTree connectorTree answer hevent hstep htrees =>
    refine (hquiet hevent).finalization hstep htrees _ ?_ _
    cases answer with
    | ok _ => exact Step.noConfusion
    | error e => exact fun hsigning ↦ by cases hstep.symm.trans hsigning
  | returned hstep =>
    exact (hquiet fun _ _ h ↦ by cases h).record rfl
      (fun kind ↦ chunks_call (fun _ h ↦ by cases h) _) trivial

variable {σ α : Type} {handler : JoinHandler σ α} {s t : Joining σ}

theorem join_started {intentIdHashes : List String} {batchExpiry : ℤ} {answers : α}
    {signatureDecodes : Bool} {log : List Call}
    (h : join txs skipVtxoTreeSigning handler s
      (.event (.batchStarted intentIdHashes batchExpiry) answers false signatureDecodes) = some t)
    (hlog : t.log = .onBatchStarted (.ok false) :: log) :
    (handler.onBatchStarted answers (.batchStarted intentIdHashes batchExpiry) s.vars).2 =
      .ok false := by
  unfold join at h
  split at h
  · cases h
  · obtain rfl := Option.some.inj h
    dsimp only [dispatch, onStarted, Joining.record] at hlog
    rw [if_neg Bool.false_ne_true] at hlog
    rcases hcall : handler.onBatchStarted answers (.batchStarted intentIdHashes batchExpiry) s.vars
      with ⟨vars, _ | _ | _⟩
    · rw [hcall] at hlog
      cases hlog
    · rfl
    · rw [hcall] at hlog
      cases hlog

theorem tidy_of_orderly {event : SettlementEvent} {answers : α} {signatureDecodes : Bool}
    (h : join txs skipVtxoTreeSigning handler s (.event event answers false signatureDecodes) =
      some t)
    (hadvance : Advance txs skipVtxoTreeSigning (s.loop.record (.event event)) event t.loop)
    (horderly : Orderly handler s (.event event answers false signatureDecodes)) :
    Tidy s.loop event t.loop := by
  constructor
  · intro log hlog
    generalize ht : t.loop = l' at hadvance hlog
    cases hadvance with
    | started =>
      have hlog : t.log = _ := (congrArg Loop.log ht).trans hlog
      exact horderly (join_started h hlog)
    | notStarted _ hanswer =>
      exact absurd (Call.onBatchStarted.inj (List.cons.inj hlog).1) hanswer
    | collected =>
      unfold Loop.collect at hlog
      split at hlog
      · cases hlog
      · cases hlog
    | _ => cases hlog
  · rintro batchIndex chunk rfl
    exact horderly

/-- In a run whose turns are orderly, every tree that the handler gets is of the chunks that came in
for the batch that was joined last. -/
theorem join_isolated {vars : σ}
    (h : Run (join txs skipVtxoTreeSigning handler) (Orderly handler) (.initial vars) s) :
    Chronicle (Isolated txs) s.log := by
  have hinitial : Separate txs (Joining.initial vars).loop :=
    ⟨trivial, fun hopen ↦ (by cases hopen), fun _ ↦ rfl, fun _ ↦ rfl⟩
  refine (h.invariant (P := fun s ↦ Separate txs s.loop) ?_ hinitial).isolated
  intro s arrival t hs horderly ht
  obtain ⟨hloop, -⟩ := join_spec ht
  rcases hloop with hloop | ⟨event, answers, signatureDecodes, rfl, hadvance⟩
  · rw [hloop]
    exact hs
  · exact hs.advance hadvance (tidy_of_orderly ht hadvance horderly)

end

/-- The check of a turn of `willing`. -/
def orderly (s : Joining Unit) : Arrival Unit → Bool
  | .event (.batchStarted _ _) _ false _ =>
    decide (s.flatVtxoTree = [] ∧ s.flatConnectorTree = [])
  | .event (.treeTx batchIndex _) _ false _ =>
    decide (s.step ≠ .treeSigningStarted) &&
      (decide (s.step ≠ .treeNoncesAggregated ∨ batchIndex ≠ 0) || s.vtxoTree.isNone)
  | _ => true

theorem orderly_sound (s : Joining Unit) (arrival : Arrival Unit) (h : orderly s arrival = true) :
    Orderly willing s arrival := by
  cases arrival with
  | closed => trivial
  | event event answers aborted signatureDecodes =>
    cases aborted with
    | true => cases event <;> trivial
    | false =>
      cases event with
      | batchStarted intentIdHashes batchExpiry => exact fun _ ↦ of_decide_eq_true h
      | treeTx batchIndex chunk =>
        obtain ⟨hsigning, hbuilt⟩ := (Bool.and_eq_true _ _).mp h
        refine ⟨of_decide_eq_true hsigning, fun hstep hindex ↦ ?_⟩
        rcases Bool.or_eq_true _ _ |>.mp hbuilt with hbuilt | hbuilt
        · rcases of_decide_eq_true hbuilt with hother | hother
          · exact absurd hstep hother
          · exact absurd hindex hother
        · exact Option.isNone_iff_eq_none.mp hbuilt
      | _ => trivial

theorem whole_batch_isolated : ∃ s, exec (join namedLibrary false willing) (.initial ())
    wholeBatch = some s ∧ s.outcome = some (.ok "commitment") ∧
      Chronicle (Isolated namedLibrary) s.log := by
  have hexec : (exec (join namedLibrary false willing) (.initial ()) wholeBatch).map
      (fun s ↦ s.outcome) = some (some (.ok "commitment")) := rfl
  obtain ⟨s, hs, hreturned⟩ := Option.map_eq_some_iff.mp hexec
  exact ⟨s, hs, hreturned, join_isolated (run_of_exec hs (along_of_check orderly_sound rfl))⟩

/-- A batch fails once it has sent a chunk, and the next one sends none. -/
def failedThenEmpty : List (Arrival Unit) :=
  [.batchStarted [] 0, .treeTx 0 ⟨"a", "a", []⟩, .batchFailed "", .batchStarted [] 0,
    .treeSigningStarted [] ""].map arrives

theorem failed_batch_leaks : ∃ s, exec (join namedLibrary false willing) (.initial ())
    failedThenEmpty = some s ∧ ¬Chronicle (Isolated namedLibrary) s.log := by
  refine ⟨_, rfl, ?_⟩
  rintro ⟨hsigning, -⟩
  exact create_nil _ hsigning

end ArkadeSdk.Batch
