import ArkadeSdk.Lib.LabelledRun
import ArkadeSdk.Wallet.BatchSafe
import ArkadeSdk.Wallet.IntentWriters

/-! When the records of settlement intents follow the intents. -/

namespace ArkadeSdk.IntentRecords

open JsNumber BatchTree Batch LabelledRun

local instance lawfulBEq_inputOutpoint : LawfulBEq Outpoint := inferInstance

variable {w : Wallet}

/-- What holds of all but the settlement that runs. -/
structure Base (w : Wallet) (rows : Rows) (server : Server) (passes : List Pass)
    (log : List Entry) : Prop where
  sound : ∀ e ∈ rows, e.2.intentTxId = e.1 ∧ Sound w e.2
  recorded : ∀ id ∈ server.live, ∃ row, JsMap.get rows id = some row ∧
    isTerminalIntentState row.state = false
  unsettled : ∀ id ∈ server.live, ∀ o ∈ w.inputs id, server.settled o = none
  apart : ∀ id ∈ server.live, ∀ other ∈ server.live, other ≠ id →
    ∀ o ∈ w.inputs id, o ∉ w.inputs other
  pending : ∀ pass ∈ passes, PassOk w rows server pass
  returned : ∀ id txid, .returned id txid ∈ log → Succeeded rows id
  reconciled : ∀ next, .reconciled next ∈ log → next.state = .batchSucceeded →
    ∃ txid, ∀ o ∈ next.intentVtxos, server.settled o = some txid

structure Inv (w : Wallet) (s : State) : Prop where
  base : Base w s.rows s.server s.passes s.log
  settle : ∀ id phase, s.settle = some (id, phase) → PhaseOk w s.rows s.server id phase

section Base

variable {rows : Rows} {server : Server} {passes : List Pass} {log : List Entry}

theorem Base.row (h : Base w rows server passes log) {id : IntentTxId} {row : ArkIntent}
    (hrow : JsMap.get rows id = some row) : row.intentTxId = id ∧ Sound w row :=
  h.sound (id, row) (JsMap.mem_of_get hrow)

theorem Base.saved (h : Base w rows server passes log) {next : ArkIntent} (hsound : Sound w next)
    (hopen : Unfinished rows next.intentTxId)
    (hlive : next.intentTxId ∈ server.live → isTerminalIntentState next.state = false)
    (hfree : ∀ pass ∈ passes, ¬pass.Holds next.intentTxId) :
    Base w (JsMap.set next.intentTxId next rows) server passes log where
  sound := by
    intro e he
    rcases JsMap.mem_set he with he | rfl
    · exact h.sound e he
    · exact ⟨rfl, hsound⟩
  recorded := by
    intro id hid
    by_cases hsame : next.intentTxId = id
    · subst hsame
      refine ⟨next, ?_, hlive hid⟩
      rw [JsMap.get_set, if_pos rfl]
    · obtain ⟨row, hrow, hstate⟩ := h.recorded id hid
      refine ⟨row, ?_, hstate⟩
      rwa [JsMap.get_set, if_neg hsame]
  unsettled := h.unsettled
  apart := h.apart
  pending := fun pass hpass ↦ (h.pending pass hpass).saved (hfree pass hpass)
  returned := fun id txid hmem ↦ (h.returned id txid hmem).saved hopen
  reconciled := h.reconciled

theorem Base.released (h : Base w rows server passes log) {server' : Server}
    (hlive : server'.live ⊆ server.live) (hgrows : Grows server server')
    (hunsettled : ∀ id ∈ server'.live, ∀ o ∈ w.inputs id, server'.settled o = none) :
    Base w rows server' passes log where
  sound := h.sound
  recorded := fun id hid ↦ h.recorded id (hlive hid)
  unsettled := hunsettled
  apart := fun id hid other hother ↦ h.apart id (hlive hid) other (hlive hother)
  pending := fun pass hpass ↦ (h.pending pass hpass).grows hgrows
  returned := h.returned
  reconciled := by
    intro next hnext hstate
    obtain ⟨txid, hall⟩ := h.reconciled next hnext hstate
    exact ⟨txid, fun o ho ↦ hgrows o txid (hall o ho)⟩

theorem Base.deleteIntent (h : Base w rows server passes log) (id : IntentTxId) :
    Base w rows (server.deleteIntent w id) passes log := by
  have hlive : (server.deleteIntent w id).live ⊆ server.live := List.filter_subset_self _
  exact h.released hlive (Grows.refl server) fun id hid ↦ h.unsettled id (hlive hid)

theorem not_mem_deleteIntent (id : IntentTxId) (server : Server) :
    id ∉ (server.deleteIntent w id).live := by
  intro hmem
  have hother := (List.mem_filter.mp hmem).2
  simp at hother

theorem Base.settled (h : Base w rows server passes log) {next : ArkIntent} {told : Told}
    (hsound : Sound w next) (hne : next.intentVtxos ≠ []) (htold : Truthful server told)
    (hone : SettledByOne told next) :
    Consumed w server next.intentTxId ∧ next.intentTxId ∉ server.live ∧
      ∃ txid, ∀ o ∈ next.intentVtxos, server.settled o = some txid := by
  obtain ⟨txid, hone⟩ := hone
  have hsettled : ∀ o ∈ next.intentVtxos, server.settled o = some txid := by
    intro o ho
    obtain ⟨coin, hcoin, htxid⟩ := hone o ho
    exact htold o coin txid hcoin htxid
  have hinputs := hsound.inputs
  refine ⟨⟨hinputs ▸ hne, fun o ho ↦ ?_⟩, fun hlive ↦ ?_, txid, hsettled⟩
  · rw [hsettled o (hinputs ▸ ho)]
    rfl
  · obtain ⟨o, ho⟩ := List.exists_mem_of_ne_nil _ hne
    have hnone := h.unsettled _ hlive o (hinputs ▸ ho)
    rw [hsettled o ho] at hnone
    cases hnone

end Base

theorem Inv.enter {s : State} (h : Base w s.rows s.server s.passes s.log) {id : IntentTxId}
    {phase : Phase} (hphase : PhaseOk w s.rows s.server id phase) : Inv w (s.enter id phase) := by
  refine ⟨h, ?_⟩
  rintro _ _ ⟨⟩
  exact hphase

theorem Inv.goOn {s : State} (h : Base w s.rows s.server s.passes s.log) {id : IntentTxId}
    {after : After} (hdone : Done w s.rows s.server id after) : Inv w (s.goOn id after) := by
  refine ⟨h, ?_⟩
  intro id' phase hsettle
  obtain ⟨phase', hphase, heq⟩ := Option.map_eq_some_iff.mp hsettle
  obtain ⟨rfl, rfl⟩ := Prod.mk.inj heq
  exact hdone.phaseOk hphase

theorem Inv.register {s : State} (h : Base w s.rows s.server s.passes s.log) {id : IntentTxId}
    (again : Bool) (htracked : Tracked w s.rows s.server id) : Inv w (s.register id again) := by
  refine ⟨?_, ?_⟩
  · exact h.released (fun _ h ↦ h) (fun _ _ h ↦ h) h.unsettled
  · rintro _ _ ⟨⟩
    exact htracked

theorem inv_reading {s : State} {id : IntentTxId} {write : Write} {after : After} {ok : Bool}
    {now : ℤ} {t : State} (hinv : Inv w s)
    (hphase : PhaseOk w s.rows s.server id (.reading write after))
    (hcond : ReadCondition s.rows id ok after)
    (h : settleStep w s id (.reading write after) (.read ok now) = some t) : Inv w t := by
  obtain ⟨hfits, hsnapshot⟩ := hphase
  dsimp only [settleStep] at h
  split at h
  · rename_i hnone
    obtain rfl := Option.some.inj h
    refine Inv.goOn hinv.base ?_
    cases after with
    | check =>
      obtain ⟨rfl, hopen⟩ := hcond
      obtain ⟨patch, rfl⟩ := hsnapshot rfl
      rw [if_pos rfl] at hnone
      cases hrow : JsMap.get s.rows id with
      | none =>
        rw [hrow] at hnone
        cases hnone
      | some row =>
        have hnot := hopen row hrow
        simp [hrow, Write.next, hnot] at hnone
    | join | resume => exact hfits.2
    | commit =>
      obtain rfl : ok = true := hcond
      obtain ⟨htarget, ⟨row, hrow, htracks⟩, hlive⟩ := hfits
      rw [if_pos rfl, hrow] at hnone
      have hterminal := Write.next_none (by rw [htarget]; rfl) hnone
      rcases htracks with hopen | ⟨hstate, -⟩
      · rw [hopen] at hterminal
        cases hterminal
      · exact ⟨⟨row, hrow, hstate⟩, hlive⟩
    | delete | throw => trivial
  · rename_i next hnext
    obtain rfl := Option.some.inj h
    have hok : ok = true := by
      by_contra hok
      rw [if_neg hok] at hnext
      cases hnext
    rw [if_pos hok] at hnext
    have hwritten := Write.next_ok (w := w) (fun row hrow ↦ hinv.base.row hrow) hnext
    refine Inv.enter hinv.base ⟨hwritten.1, hwritten.2.1, Write.next_unfinished hnext, ?_⟩
    rw [hwritten.2.2]
    exact hfits

theorem inv_joining {s t : State} {id : IntentTxId} {intentId : String} {batch : Batch.State}
    {batchId : String} {event : SettlementEvent} {answers : Answers} {reason : String}
    (hinv : Inv w s) (htracked : Tracked w s.rows s.server id)
    (hcond : EventCondition s.server id batch event)
    (h : joinStep w s id intentId batch batchId event answers reason = some t) : Inv w t := by
  obtain ⟨batch', hstep, rfl⟩ := Option.map_eq_some_iff.mp h
  have hdeleting : Inv w (s.enter id (.deleting reason)) := Inv.enter hinv.base trivial
  have hjoining : Inv w (s.enter id (.joining intentId batch')) := Inv.enter hinv.base htracked
  cases event with
  | batchStarted intentIdHashes batchExpiry =>
    dsimp only
    split
    · exact hdeleting
    split
    · refine Inv.enter hinv.base ⟨⟨rfl, htracked⟩, ?_⟩
      intro hcheck
      cases hcheck
    · exact hjoining
  | batchFailed failure =>
    refine Inv.enter hinv.base ⟨hcond, ?_⟩
    intro hcheck
    cases hcheck
  | batchFinalized commitmentTxid =>
    dsimp only
    split
    · rename_i hover
      have hfinal : batch.step = .batchFinalization := by
        by_contra hnot
        unfold Batch.step at hstep
        dsimp only at hstep
        rw [if_neg hnot] at hstep
        split at hstep
        · cases hstep
        · rename_i hopen
          obtain rfl := Option.some.inj hstep
          exact hopen hover
      refine Inv.enter hinv.base ⟨⟨rfl, htracked, hcond hfinal⟩, ?_⟩
      intro hcheck
      cases hcheck
    · exact hjoining
  | treeTx | treeSignature | treeSigningStarted | treeNonces | batchFinalization | other =>
    dsimp only
    split
    · exact hdeleting
    · exact hjoining

theorem inv_saving {s : State} {id : IntentTxId} {next : ArkIntent} {after : After} {ok : Bool}
    (hinv : Inv w s) (hphase : PhaseOk w s.rows s.server id (.saving next after))
    (hcond : SettleCondition s id (.saving next after) (.saved ok)) :
    Inv w ((s.save ok next).goOn id after) := by
  obtain ⟨rfl, hsound, hopen, hfits⟩ := hphase
  obtain ⟨hwrite, hfree⟩ := hcond
  have hdone := hfits.done rfl hwrite
  cases ok with
  | false => exact Inv.goOn hinv.base hdone
  | true =>
    refine Inv.goOn (hinv.base.saved hsound hopen ?_ (hfree rfl)) hdone
    intro hlive
    cases after with
    | check => exact hfits
    | join | resume => exact hfits.1
    | commit => exact absurd hlive hfits.2.2
    | delete | throw => exact absurd hlive hfits

theorem inv_settle {s t : State} {id : IntentTxId} {phase : Phase} {answer : Answer}
    (hinv : Inv w s) (hsettle : s.settle = some (id, phase))
    (hcond : SettleCondition s id phase answer) (h : settleStep w s id phase answer = some t) :
    Inv w t := by
  have hphase := hinv.settle id phase hsettle
  have hbase := hinv.base
  have hcancel (s : State) (hbase : Base w s.rows s.server s.passes s.log)
      (hnot : id ∉ s.server.live) (reason : String) :
      Inv w (s.enter id (.reading (.persistIntentSnapshot
        ⟨.cancelled, none, none, some reason⟩) .throw)) :=
    Inv.enter hbase ⟨hnot, fun h ↦ (by cases h)⟩
  unfold settleStep at h
  split at h
  · exact inv_reading hinv hphase hcond h
  · obtain rfl := Option.some.inj h
    exact inv_saving hinv hphase hcond
  · obtain rfl := Option.some.inj h
    exact ⟨hbase, fun _ _ h ↦ (by cases h)⟩
  · obtain rfl := Option.some.inj h
    exact Inv.enter hbase trivial
  · obtain rfl := Option.some.inj h
    exact Inv.register hbase false hphase
  · obtain rfl := Option.some.inj h
    exact Inv.enter hbase ⟨⟨rfl, hphase⟩, fun h ↦ (by cases h)⟩
  · obtain rfl := Option.some.inj h
    split
    · exact Inv.enter hbase trivial
    · exact Inv.enter hbase hphase
  · obtain rfl := Option.some.inj h
    exact Inv.enter hbase trivial
  · split at h
    · obtain rfl := Option.some.inj h
      exact Inv.register (s := { s with server := s.server.deleteIntent w id })
        (hbase.deleteIntent id) true (Tracked.grows hphase (Grows.refl s.server))
    · obtain rfl := Option.some.inj h
      exact Inv.enter hbase trivial
  · exact inv_joining hinv hphase hcond h
  · obtain rfl := Option.some.inj h
    exact Inv.enter hbase trivial
  · rename_i commitmentTxid ok
    split at h
    · obtain rfl := Option.some.inj h
      refine ⟨{ hbase with returned := ?_, reconciled := ?_ }, fun _ _ h ↦ (by cases h)⟩
      · intro id' txid hmem
        rcases List.mem_cons.mp hmem with heq | hmem
        · cases heq
          exact hphase.1
        · exact hbase.returned id' txid hmem
      · intro next hmem
        rcases List.mem_cons.mp hmem with heq | hmem
        · cases heq
        · exact hbase.reconciled next hmem
    · obtain rfl := Option.some.inj h
      exact Inv.enter hbase ⟨hphase.2, fun h ↦ (by cases h)⟩
  · obtain rfl := Option.some.inj h
    split
    · exact hcancel { s with server := s.server.deleteIntent w id } (hbase.deleteIntent id)
        (not_mem_deleteIntent id s.server) _
    · rename_i hok
      exact hcancel s hbase (hcond.resolve_left hok) _
  · cases h

/-- A pass saves what the server bears out, over a record that nobody else writes. -/
theorem inv_pass_saved {s : State} {k : ℕ} {pass' : Pass} {next : ArkIntent}
    {rest : List ArkIntent} {told : Told} {now : ℤ} (hinv : Inv w s)
    (hpass' : PassOk w s.rows s.server pass') (hends : ∀ id, ¬pass'.Holds id)
    (hsaid : PassOk w s.rows s.server (.saving next rest told now))
    (hcond : PassCondition s k (.saving next rest told now) (.saved true)) :
    Inv w { ({ s with passes := s.passes.set k pass' } : State).save true next with
      log := .reconciled next :: s.log } := by
  obtain ⟨⟨row, hrow, hverdict⟩, -, htold⟩ := hsaid
  obtain ⟨hothers, hsettle, hwaiting⟩ := hcond
  have hopen : Unfinished s.rows next.intentTxId := by
    intro row' hrow'
    obtain rfl := Option.some.inj (hrow.symm.trans hrow')
    exact hverdict.unfinished
  have hsame : AllConsumed told row ↔ AllConsumed told next := by
    obtain ⟨hkey, hsound⟩ := hinv.base.row hrow
    rw [AllConsumed, AllConsumed, hsound.inputs, hverdict.sound.inputs, hkey]
  -- Either one batch took all inputs, or the record still waited to be submitted.
  have hverdicts : next.state = .batchSucceeded ∧ Consumed w s.server next.intentTxId ∧
      next.intentTxId ∉ s.server.live ∧
        (∃ txid, ∀ o ∈ next.intentVtxos, s.server.settled o = some txid) ∨
      next.state = .cancelled ∧ next.intentTxId ∉ s.server.live ∧
        ∀ phase, s.settle = some (next.intentTxId, phase) → phase.Abandoned := by
    rcases hverdict.ends with ⟨hstate, hne, hone⟩ | ⟨hstate, hseen, hnot⟩
    · exact .inl ⟨hstate, hinv.base.settled hverdict.sound hne htold hone⟩
    · exact .inr ⟨hstate, hwaiting row hrow hseen (mt hsame.mp hnot)⟩
  have hnot : next.intentTxId ∉ s.server.live := by
    rcases hverdicts with ⟨-, -, hnot, -⟩ | ⟨-, hnot, -⟩ <;> exact hnot
  have hbase : Base w s.rows s.server (s.passes.set k pass') s.log := by
    refine { hinv.base with pending := ?_ }
    intro p hp
    rcases List.mem_or_eq_of_mem_set hp with hp | rfl
    · exact hinv.base.pending p hp
    · exact hpass'
  have hfree : ∀ p ∈ s.passes.set k pass', ¬p.Holds next.intentTxId := by
    intro p hp
    obtain ⟨j, hj⟩ := List.mem_iff_getElem?.mp hp
    by_cases hjk : k = j
    · rw [List.getElem?_set, if_pos hjk] at hj
      split at hj
      · obtain rfl := Option.some.inj hj
        exact hends _
      · cases hj
    · rw [List.getElem?_set_ne hjk] at hj
      exact hothers j p hj (Ne.symm hjk)
  have hrows := hbase.saved hverdict.sound hopen (fun hlive ↦ absurd hlive hnot) hfree
  refine ⟨{ hrows with returned := ?_, reconciled := ?_ }, ?_⟩
  · intro id txid hmem
    rcases List.mem_cons.mp hmem with heq | hmem
    · cases heq
    · exact hrows.returned id txid hmem
  · intro next' hmem hstate
    rcases List.mem_cons.mp hmem with heq | hmem
    · cases heq
      rcases hverdicts with ⟨-, -, -, hone⟩ | ⟨hcancelled, -⟩
      · exact hone
      · rw [hstate] at hcancelled
        cases hcancelled
    · exact hrows.reconciled next' hmem hstate
  · intro id phase hphase
    refine (hinv.settle id phase hphase).saved hopen ?_ ?_
    · rintro rfl
      exact hsettle phase hphase
    · rintro rfl
      rcases hverdicts with ⟨hstate, hconsumed, -⟩ | ⟨-, -, habandoned⟩
      · exact .inr (.inr ⟨hstate, hconsumed⟩)
      · exact .inl (habandoned phase hphase)

theorem inv_pass {s t : State} {k : ℕ} {answer : PassAnswer} (hinv : Inv w s)
    (hfair : Fair w s (.pass k answer)) (hcond : Condition s (.pass k answer))
    (h : step w s (.pass k answer) = some t) : Inv w t := by
  obtain ⟨pass, hpass, h⟩ := Option.bind_eq_some_iff.mp h
  obtain ⟨⟨pass', saved⟩, hstep, h⟩ := Option.bind_eq_some_iff.mp h
  have hsaid := hinv.base.pending pass (List.mem_of_getElem? hpass)
  obtain ⟨hpass', hsaved⟩ :=
    passStep_ok (fun e he ↦ (hinv.base.sound e he).2) hfair (hcond pass hpass) hsaid hstep
  cases saved with
  | none =>
    obtain rfl := Option.some.inj h
    refine ⟨{ hinv.base with pending := ?_ }, hinv.settle⟩
    intro p hp
    rcases List.mem_or_eq_of_mem_set hp with hp | rfl
    · exact hinv.base.pending p hp
    · exact hpass'
  | some next =>
    obtain rfl := Option.some.inj h
    obtain ⟨hends, rest, told, now, rfl, rfl⟩ := hsaved next rfl
    exact inv_pass_saved hinv hpass' hends hsaid (hcond _ hpass)

theorem inv_accepts {s t : State} {id : IntentTxId} (hinv : Inv w s)
    (hfair : Fair w s (.accepts id)) (hcond : Condition s (.accepts id))
    (h : step w s (.accepts id) = some t) : Inv w t := by
  dsimp only [step] at h
  split at h
  swap
  · cases h
  obtain rfl := Option.some.inj h
  obtain ⟨again, hsettle⟩ := hcond
  obtain ⟨hnew, hfree⟩ := hfair
  obtain ⟨row, hrow, htracks⟩ : Tracked w s.rows s.server id := hinv.settle _ _ hsettle
  have hopen : isTerminalIntentState row.state = false := by
    rcases htracks with hopen | ⟨-, hne, hall⟩
    · exact hopen
    · obtain ⟨o, ho⟩ := List.exists_mem_of_ne_nil _ hne
      have hsome := hall o ho
      rw [(hfree o ho).1] at hsome
      cases hsome
  refine ⟨{ hinv.base with recorded := ?_, unsettled := ?_, apart := ?_, pending := ?_ }, ?_⟩
  · intro other hother
    rcases List.mem_cons.mp hother with rfl | hother
    · exact ⟨row, hrow, hopen⟩
    · exact hinv.base.recorded other hother
  · intro other hother
    rcases List.mem_cons.mp hother with rfl | hother
    · exact fun o ho ↦ (hfree o ho).1
    · exact hinv.base.unsettled other hother
  · intro a ha b hb hne o hoa hob
    rcases List.mem_cons.mp ha with rfl | ha'
    · rcases List.mem_cons.mp hb with rfl | hb'
      · exact hne rfl
      · exact (hfree o hoa).2 b hb' hob
    · rcases List.mem_cons.mp hb with rfl | hb'
      · exact (hfree o hob).2 a ha' hoa
      · exact hinv.base.apart a ha' b hb' hne o hoa hob
  · exact fun pass hpass ↦ (hinv.base.pending pass hpass).grows fun _ _ h ↦ h
  · intro id' phase hsettle'
    obtain ⟨rfl, rfl⟩ := Prod.mk.inj (Option.some.inj (hsettle.symm.trans hsettle'))
    exact ⟨row, hrow, .inl hopen⟩

theorem inv_finalizes {s : State} {id : IntentTxId} {commitmentTxid : Txid} (hinv : Inv w s)
    (hlive : id ∈ s.server.live) :
    Inv w { s with server := s.server.finalize w id commitmentTxid } := by
  have hsub : (s.server.finalize w id commitmentTxid).live ⊆ s.server.live :=
    List.filter_subset_self _
  have hgrows : Grows s.server (s.server.finalize w id commitmentTxid) := by
    intro o txid htxid
    dsimp only [Server.finalize]
    split
    · rename_i ho
      have hnone := hinv.base.unsettled id hlive o ho
      rw [htxid] at hnone
      cases hnone
    · exact htxid
  refine ⟨hinv.base.released hsub hgrows ?_, ?_⟩
  · intro other hother o ho
    have hne : other ≠ id := by simpa using (List.mem_filter.mp hother).2
    have hnot := hinv.base.apart other (hsub hother) id hlive hne.symm o ho
    dsimp only [Server.finalize]
    rw [if_neg hnot]
    exact hinv.base.unsettled other (hsub hother) o ho
  · exact fun id phase hsettle ↦ (hinv.settle id phase hsettle).grows (fun h ↦ hsub h) hgrows

theorem inv_step {s t : State} {i : Input} (hinv : Inv w s) (hok : Ok w s i)
    (h : step w s i = some t) : Inv w t := by
  obtain ⟨hfair, hcond⟩ := hok
  cases i with
  | starts id =>
    dsimp only [step] at h
    split at h
    · obtain rfl := Option.some.inj h
      exact Inv.enter hinv.base ⟨rfl, fun _ ↦ ⟨_, rfl⟩⟩
    · cases h
  | settle answer =>
    obtain ⟨⟨id, phase⟩, hsettle, h⟩ := Option.bind_eq_some_iff.mp h
    exact inv_settle hinv hsettle (hcond id phase hsettle) h
  | passStarts =>
    obtain rfl := Option.some.inj h
    refine ⟨{ hinv.base with pending := ?_ }, hinv.settle⟩
    intro pass hpass
    rcases List.mem_append.mp hpass with hpass | hpass
    · exact hinv.base.pending pass hpass
    · obtain rfl := List.mem_singleton.mp hpass
      trivial
  | pass k answer => exact inv_pass hinv hfair hcond h
  | crash =>
    obtain rfl := Option.some.inj h
    refine ⟨{ hinv.base with pending := ?_ }, fun _ _ h ↦ (by cases h)⟩
    intro pass hpass
    cases hpass
  | accepts id => exact inv_accepts hinv hfair hcond h
  | finalizes id commitmentTxid =>
    dsimp only [step] at h
    split at h
    · rename_i hlive
      obtain rfl := Option.some.inj h
      exact inv_finalizes hinv hlive
    · cases h
  | fails id =>
    obtain rfl := Option.some.inj h
    have hsub : s.server.live.filter (· ≠ id) ⊆ s.server.live := List.filter_subset_self _
    have hgrows := Grows.refl s.server
    refine ⟨hinv.base.released hsub hgrows fun id hid ↦ hinv.base.unsettled id (hsub hid), ?_⟩
    exact fun id phase hsettle ↦ (hinv.settle id phase hsettle).grows (fun h ↦ hsub h) hgrows
  | settles outpoint commitmentTxid =>
    obtain rfl := Option.some.inj h
    obtain ⟨hnone, hfree⟩ := hfair
    have hgrows : Grows s.server { s.server with
        settled := fun o ↦ if o = outpoint then some commitmentTxid else s.server.settled o } := by
      intro o txid htxid
      dsimp only
      split
      · rename_i ho
        rw [ho, hnone] at htxid
        cases htxid
      · exact htxid
    refine ⟨hinv.base.released (fun _ h ↦ h) hgrows ?_, ?_⟩
    · intro id hid o ho
      dsimp only
      split
      · rename_i hsame
        exact absurd ho (hsame ▸ hfree id hid)
      · exact hinv.base.unsettled id hid o ho
    · exact fun id phase hsettle ↦ (hinv.settle id phase hsettle).grows (fun h ↦ h) hgrows

theorem inv_initial : Inv w initial where
  base := {
    sound := fun _ h ↦ (by cases h)
    recorded := fun _ h ↦ (by cases h)
    unsettled := fun _ h ↦ (by cases h)
    apart := fun _ h ↦ (by cases h)
    pending := fun _ h ↦ (by cases h)
    returned := fun _ _ h ↦ (by cases h)
    reconciled := fun _ h ↦ (by cases h) }
  settle := fun _ _ h ↦ (by cases h)

def Keeps (rows rows' : Rows) : Prop :=
  ∀ id row, JsMap.get rows id = some row → isTerminalIntentState row.state = true →
    JsMap.get rows' id = some row

theorem Keeps.refl (rows : Rows) : Keeps rows rows := fun _ _ h _ ↦ h

def sampleWallet : Wallet where
  inputs id :=
    if id = "a" then [("vv", 0)] else if id = "b" then [("vv", 1)] else
    if id = "c" then [("vv", 2)] else []
  libraries := sampleLibraries
  handler _ _ := sampleHandler

def fairCheck (w : Wallet) (s : State) : Input → Bool
  | .accepts id => id ∉ s.server.live && (w.inputs id).all fun o ↦
      (s.server.settled o).isNone && s.server.live.all (o ∉ w.inputs ·)
  | .pass _ (.fetched (some vtxos) _) => vtxos.all fun e ↦
      e.2.settledBy.all fun txid ↦ s.server.settled e.1 = some txid
  | .settles _ _ => false
  | _ => true

/-- The condition, where at most one pass is left and it saves beside no settlement, nothing is live
and every intent is over one output. -/
def check (w : Wallet) (s : State) : Input → Bool
  | .settle answer =>
    match s.settle with
    | none => true
    | some (id, phase) =>
      match phase, answer with
      | .reading _ _, .read ok _ =>
        ok && (JsMap.get s.rows id).all (!isTerminalIntentState ·.state)
      | .saving _ _, .saved ok => ok && s.passes.all fun
        | .saving _ _ _ _ => false
        | _ => true
      | .joining _ _, .event _ (.batchFailed _) _ _ => false
      | .joining _ _, .event _ (.batchFinalized _) _ _ => id ∉ s.server.live
      | .deleting _, .deleted ok => ok
      | _, _ => true
  | .pass k (.fetched (some vtxos) now) => fairCheck w s (.pass k (.fetched (some vtxos) now)) &&
      match s.passes[k]? with
      | some (.fetching intents) => intents.all fun intent ↦
        match intent.intentVtxos with
        | [o] => (JsMap.get (toldOf vtxos) o).all fun coin ↦
            !isConsumed (some coin) || coin.settledBy.isSome
        | _ => false
      | _ => true
  | .pass _ (.saved _) => s.settle.isNone && s.passes.length ≤ 1 && s.server.live.isEmpty
  | .accepts id => fairCheck w s (.accepts id) && match s.settle with
      | some (id', .registering _) => id' = id
      | _ => false
  | .settles _ _ => false
  | _ => true

def writes (now : ℤ) : List Input := [.settle (.read true now), .settle (.saved true)]

end ArkadeSdk.IntentRecords
