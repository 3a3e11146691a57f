import ArkadeSdk.Lib.LabelledRun
import ArkadeSdk.Swap.OfferStatus
import Mathlib.Data.List.ReduceOption

/-! What holds between two steps of the calls and the watcher, where no marker is written on a
resolved record and each deposit is reported spent in one way. -/

namespace ArkadeSdk.OfferStatus

open WireFormat HexCodec LabelledRun

variable {Tree : Type} (L : OfferLibraries Tree) (serverPubkey : Bytes)

def Resolved (swap : AssetSwap) : Prop := swap.status ∈ TERMINAL

/-- A resolved record is written as it is. -/
def Keeps (before : Option AssetSwap) (after : AssetSwap) : Prop :=
  ∀ swap ∈ before, Resolved swap → after.status = swap.status ∧ after.spentTxid = swap.spentTxid

/-- The cancel was submitted from here, or the spend of the record's deposit was fetched and takes
the cancel leaf. -/
def Evidence (log : List Event) (id : String) (spentTxid : Option String) : Prop :=
  (∃ txid, Event.submitted id txid ∈ log ∧ spentTxid = some txid) ∨
    ∃ swap deposit txs, Event.fetched swap deposit txs ∈ log ∧ swap.id = id ∧
      deposit.txid = swap.fundingTxid ∧ ∃ data offer tx, base16.decode swap.offerHex = some data ∧
        Offer.decodeOffer data = .ok offer ∧ some tx ∈ txs ∧
        tx.Cancels L offer serverPubkey deposit

def Truthful : Event → List Event → Prop
  | .wrote _ before after, older =>
    Keeps before after ∧ (after.status = .cancelled → Evidence L serverPubkey older after.id
      after.spentTxid)
  | _, _ => True

/-- How the deposit of each record is spent in the end, and under which id. -/
abbrev Fate := String → Option (AssetSwapStatus × String)

def kindStatus : SpendKind → Option AssetSwapStatus
  | .cancelled => some .cancelled
  | .fulfilled => some .fulfilled
  | .indeterminate => none

/-- A marker is written on no resolved record, and whatever is reported of a deposit is its one
spend. -/
def Meets (fate : Fate) (s : State) : Input → Prop
  | .serve (.cancel call) (.saved (.ok ())) =>
    ∀ swapId updated answer, s.cancels[call]? = some ⟨.savingMark swapId updated, answer⟩ →
      ∀ swap ∈ s.swaps, swap.id = swapId → ¬Resolved swap
  | .serve (.cancel call) (.sent (.ok txid)) =>
    ∀ swapId answer, s.cancels[call]? = some ⟨.sending swapId true, answer⟩ →
      fate swapId = some (.cancelled, txid)
  | .serve .watcher (.txs txs) =>
    ∀ turn swap, s.watcher.phase = .classifying turn swap → ¬Resolved swap →
      ∀ status ∈ kindStatus (turn.classify L serverPubkey swap txs),
        fate swap.id = some (status, turn.spentTxid)
  | _ => True

/-- The record is not resolved yet, or as its deposit was spent. -/
def Open (fate : Fate) (swaps : List AssetSwap) (id : String) : Prop :=
  ∀ swap ∈ swaps, swap.id = id → Resolved swap →
    ∃ txid, swap.spentTxid = some txid ∧ fate id = some (swap.status, txid)

def Closed (swaps : List AssetSwap) (id : String) : Prop :=
  ∀ swap ∈ swaps, swap.id = id → Resolved swap

/-- Records as they were read. -/
structure Snapshot (fate : Fate) (swaps listed : List AssetSwap) : Prop where
  ids : ∀ id, id ∈ listed.map (·.id) ↔ id ∈ swaps.map (·.id)
  fresh : ∀ swap ∈ listed, ¬Resolved swap → swap.spentTxid = none ∧ Open fate swaps swap.id
  closed : ∀ swap ∈ listed, Resolved swap → Closed swaps swap.id

def Submitted (fate : Fate) (log : List Event) (id txid : String) : Prop :=
  fate id = some (.cancelled, txid) ∧ Event.submitted id txid ∈ log

def CancelInv (fate : Fate) (swaps : List AssetSwap) (log : List Event) :
    CancelPhase → Option Answer → Prop
  | .marking _, answer => ∀ listed, answer = some (.swaps (.ok listed)) → Snapshot fate swaps listed
  | .savingMark id updated, answer =>
    updated.id = id ∧ id ∈ swaps.map (·.id) ∧ updated.status = .cancelling ∧
      (updated.spentTxid = none ∨ Closed swaps id) ∧
      (answer = some (.saved (.ok ())) → Open fate swaps id)
  | .sending id true, answer =>
    Open fate swaps id ∧ ∀ txid, answer = some (.sent (.ok txid)) → Submitted fate log id txid
  | .recording id txid, answer =>
    Open fate swaps id ∧ Submitted fate log id txid ∧
      ∀ listed, answer = some (.swaps (.ok listed)) → Snapshot fate swaps listed
  | .savingOutcome id txid updated, _ =>
    Open fate swaps id ∧ Submitted fate log id txid ∧ id ∈ swaps.map (·.id) ∧ updated.id = id ∧
      updated.status = .cancelled ∧ updated.spentTxid = some txid
  | _, _ => True

/-- The spend that the watcher found out about, with what it is known from. -/
structure Found (fate : Fate) (swaps : List AssetSwap) (log : List Event) (id : String)
    (status : AssetSwapStatus) (txid : String) : Prop where
  isOpen : Open fate swaps id
  known : fate id = some (status, txid)
  retirable : status ∈ RETIRABLE
  evidence : status = .cancelled → Evidence L serverPubkey log id (some txid)

def WatchInv (fate : Fate) (swaps : List AssetSwap) (log : List Event) :
    WatchPhase → Option Answer → Prop
  | .idle, _ => True
  | .finding _, answer =>
    ∀ listed, answer = some (.swaps (.ok listed)) → Snapshot fate swaps listed
  | .classifying turn swap, answer =>
    swap.fundingTxid = turn.vtxo.txid ∧ (¬Resolved swap → Open fate swaps swap.id) ∧
      ∀ txs, answer = some (.txs txs) →
        (¬Resolved swap → ∀ status ∈ kindStatus (turn.classify L serverPubkey swap txs),
          fate swap.id = some (status, turn.spentTxid)) ∧
        ∀ list, txs = .ok list → Event.fetched swap turn.vtxo.deposit list ∈ log
  | .updating turn swap changes, answer =>
    Found L serverPubkey fate swaps log swap.id changes.status turn.spentTxid ∧
      changes.spentTxid = some turn.spentTxid ∧
      ∀ listed, answer = some (.swaps (.ok listed)) → Snapshot fate swaps listed
  | .saving turn _ updated, _ =>
    Found L serverPubkey fate swaps log updated.id updated.status turn.spentTxid ∧
      updated.id ∈ swaps.map (·.id) ∧ updated.spentTxid = some turn.spentTxid

structure Inv (fate : Fate) (s : State) : Prop where
  ids : (s.swaps.map (·.id)).Nodup
  fresh : ∀ swap ∈ s.swaps, ¬Resolved swap → swap.spentTxid = none
  cancels : ∀ waiting ∈ s.cancels, CancelInv fate s.swaps s.log waiting.phase waiting.answer
  watcher : WatchInv L serverPubkey fate s.swaps s.log s.watcher.phase s.watcher.answer
  log : Chronicle (Truthful L serverPubkey) s.log

/-- Nothing that was open or resolved is so no longer. -/
structure Advances (fate : Fate) (swaps swaps' : List AssetSwap) : Prop where
  ids : swaps'.map (·.id) = swaps.map (·.id)
  isOpen : ∀ id, Open fate swaps id → Open fate swaps' id
  closed : ∀ id, Closed swaps id → Closed swaps' id

theorem Advances.refl (fate : Fate) (swaps : List AssetSwap) : Advances fate swaps swaps :=
  ⟨rfl, fun _ ↦ id, fun _ ↦ id⟩

variable {fate : Fate} {swaps swaps' : List AssetSwap}

theorem upsert_eq {swap : AssetSwap} (h : swap.id ∈ swaps.map (·.id)) :
    upsert swap swaps = swaps.map fun s ↦ if s.id = swap.id then swap else s := by
  have hany : swaps.any (·.id = swap.id) = true := by
    obtain ⟨s, hs, hid⟩ := List.mem_map.mp h
    exact List.any_eq_true.mpr ⟨s, hs, by simpa using hid⟩
  rw [upsert, if_pos hany]

theorem mem_upsert {swap r : AssetSwap} (h : swap.id ∈ swaps.map (·.id)) (hr : r ∈ upsert swap swaps) :
    r = swap ∨ r ∈ swaps ∧ r.id ≠ swap.id := by
  rw [upsert_eq h] at hr
  obtain ⟨s, hs, rfl⟩ := List.mem_map.mp hr
  split
  · exact .inl rfl
  · rename_i hne
    exact .inr ⟨hs, hne⟩

theorem ids_upsert {swap : AssetSwap} (h : swap.id ∈ swaps.map (·.id)) :
    (upsert swap swaps).map (·.id) = swaps.map (·.id) := by
  rw [upsert_eq h, List.map_map]
  refine List.map_congr_left fun s _ ↦ ?_
  dsimp only [Function.comp_apply]
  split
  · rename_i hid
    exact hid.symm
  · rfl

/-- A write advances the store where it marks what is not resolved, or records the one spend. -/
theorem advances_upsert {swap : AssetSwap} (h : swap.id ∈ swaps.map (·.id))
    (hwrite : (∀ s ∈ swaps, s.id = swap.id → ¬Resolved s) ∧ ¬Resolved swap ∨
      Resolved swap ∧ ∃ txid, swap.spentTxid = some txid ∧
        fate swap.id = some (swap.status, txid)) : Advances fate swaps (upsert swap swaps) := by
  refine ⟨ids_upsert h, fun id hopen r hr hid hresolved ↦ ?_, fun id hclosed r hr hid ↦ ?_⟩
  · rcases mem_upsert h hr with rfl | ⟨hmem, -⟩
    · rcases hwrite with ⟨-, hnot⟩ | ⟨-, hspend⟩
      · exact absurd hresolved hnot
      · exact hid ▸ hspend
    · exact hopen r hmem hid hresolved
  · rcases mem_upsert h hr with rfl | ⟨hmem, -⟩
    · rcases hwrite with ⟨hopen, -⟩ | ⟨hresolved, -⟩
      · obtain ⟨s, hs, hsid⟩ := List.mem_map.mp h
        exact absurd (hclosed s hs (hsid.trans hid)) (hopen s hs hsid)
      · exact hresolved
    · exact hclosed r hmem hid

variable {L serverPubkey} {log log' : List Event}

theorem Evidence.mono {id : String} {spentTxid : Option String} (hlog : log ⊆ log')
    (h : Evidence L serverPubkey log id spentTxid) : Evidence L serverPubkey log' id spentTxid := by
  rcases h with ⟨txid, hmem, htxid⟩ | ⟨swap, deposit, txs, hmem, h⟩
  · exact .inl ⟨txid, hlog hmem, htxid⟩
  · exact .inr ⟨swap, deposit, txs, hlog hmem, h⟩

theorem Snapshot.advance {listed : List AssetSwap} (h : Snapshot fate swaps listed)
    (ha : Advances fate swaps swaps') : Snapshot fate swaps' listed where
  ids id := by rw [ha.ids, h.ids id]
  fresh swap hswap hnot := (h.fresh swap hswap hnot).imp_right (ha.isOpen _)
  closed swap hswap hresolved := ha.closed _ (h.closed swap hswap hresolved)

theorem Submitted.mono {id txid : String} (h : Submitted fate log id txid) (hlog : log ⊆ log') :
    Submitted fate log' id txid := ⟨h.1, hlog h.2⟩

theorem CancelInv.advance {phase : CancelPhase} {answer : Option Answer}
    (h : CancelInv fate swaps log phase answer) (ha : Advances fate swaps swaps')
    (hlog : log ⊆ log') : CancelInv fate swaps' log' phase answer := by
  cases phase with
  | selecting | checking | finished => trivial
  | marking swapId => exact fun listed hlisted ↦ (h listed hlisted).advance ha
  | savingMark swapId updated =>
    obtain ⟨hid, hmem, hstatus, hspent, hopen⟩ := h
    exact ⟨hid, ha.ids ▸ hmem, hstatus, hspent.imp_right (ha.closed _), ha.isOpen _ ∘ hopen⟩
  | sending swapId hasLocalRecord =>
    cases hasLocalRecord with
    | false => trivial
    | true =>
      obtain ⟨hopen, hsubmitted⟩ := h
      exact ⟨ha.isOpen _ hopen, fun txid htxid ↦ (hsubmitted txid htxid).mono hlog⟩
  | recording swapId txid =>
    obtain ⟨hopen, hsubmitted, hlisted⟩ := h
    exact ⟨ha.isOpen _ hopen, hsubmitted.mono hlog, fun listed h ↦ (hlisted listed h).advance ha⟩
  | savingOutcome swapId txid updated =>
    obtain ⟨hopen, hsubmitted, hmem, hupdated⟩ := h
    exact ⟨ha.isOpen _ hopen, hsubmitted.mono hlog, ha.ids ▸ hmem, hupdated⟩

theorem Found.advance {id txid : String} {status : AssetSwapStatus}
    (h : Found L serverPubkey fate swaps log id status txid) (ha : Advances fate swaps swaps')
    (hlog : log ⊆ log') : Found L serverPubkey fate swaps' log' id status txid :=
  ⟨ha.isOpen _ h.isOpen, h.known, h.retirable, fun hc ↦ (h.evidence hc).mono hlog⟩

theorem WatchInv.advance {phase : WatchPhase} {answer : Option Answer}
    (h : WatchInv L serverPubkey fate swaps log phase answer) (ha : Advances fate swaps swaps')
    (hlog : log ⊆ log') : WatchInv L serverPubkey fate swaps' log' phase answer := by
  cases phase with
  | idle => trivial
  | finding turn => exact fun listed hlisted ↦ (h listed hlisted).advance ha
  | classifying turn swap =>
    obtain ⟨hfunding, hopen, hanswer⟩ := h
    refine ⟨hfunding, ha.isOpen _ ∘ hopen, fun txs htxs ↦ ?_⟩
    exact (hanswer txs htxs).imp_right fun hfetched list hlist ↦ hlog (hfetched list hlist)
  | updating turn swap changes =>
    obtain ⟨hfound, hspent, hlisted⟩ := h
    exact ⟨hfound.advance ha hlog, hspent, fun listed h ↦ (hlisted listed h).advance ha⟩
  | saving turn changes updated =>
    obtain ⟨hfound, hmem, hspent⟩ := h
    exact ⟨hfound.advance ha hlog, ha.ids ▸ hmem, hspent⟩

theorem updatedIn_some {id : String} {changes : AssetSwapChanges} {updated : AssetSwap}
    (h : updatedIn swaps id changes = some updated) :
    ∃ swap ∈ swaps, swap.id = id ∧ updated = swap.merge changes := by
  have hmem := List.mem_of_find?_eq_some h
  have hid : updated.id = id := by simpa using List.find?_some h
  obtain ⟨swap, hswap, rfl⟩ := List.mem_map.mp hmem
  by_cases hsame : swap.id = id
  · exact ⟨swap, List.mem_mergeSort.mp hswap, hsame, if_pos hsame⟩
  · rw [if_neg hsame] at hid
    exact absurd hid hsame

theorem updatedIn_none {id : String} {changes : AssetSwapChanges}
    (h : updatedIn swaps id changes = none) : id ∉ swaps.map (·.id) := by
  intro hmem
  obtain ⟨swap, hswap, rfl⟩ := List.mem_map.mp hmem
  have hmerged : swap.merge changes ∈
      AssetSwap.mergeById swap.id changes (AssetSwap.byNewest swaps) :=
    List.mem_map.mpr ⟨swap, List.mem_mergeSort.mpr hswap, by simp⟩
  have hne := List.find?_eq_none.mp h _ hmerged
  simp [AssetSwap.merge] at hne

theorem eq_of_id {s r : AssetSwap} (hids : (swaps.map (·.id)).Nodup) (hs : s ∈ swaps)
    (hr : r ∈ swaps) (h : s.id = r.id) : s = r :=
  List.inj_on_of_nodup_map hids hs hr h

theorem snapshot_of_perm {listed : List AssetSwap} (hids : (swaps.map (·.id)).Nodup)
    (hfresh : ∀ swap ∈ swaps, ¬Resolved swap → swap.spentTxid = none)
    (h : listed.Perm swaps) : Snapshot fate swaps listed where
  ids id := (h.map (·.id)).mem_iff
  fresh swap hswap hnot := by
    have hmem := h.mem_iff.mp hswap
    refine ⟨hfresh swap hmem hnot, fun s hs hid hresolved ↦ ?_⟩
    rw [eq_of_id hids hs hmem hid] at hresolved
    exact absurd hresolved hnot
  closed swap hswap hresolved s hs hid := by
    rwa [eq_of_id hids hs (h.mem_iff.mp hswap) hid]

theorem serveStore_swaps {listed : List AssetSwap}
    (h : serveStore swaps .getAllSwaps (.swaps (.ok listed)) = some swaps') :
    swaps' = swaps ∧ listed.Perm swaps := by
  by_cases hperm : listed.Perm swaps
  · rw [serveStore, if_pos hperm] at h
    exact ⟨(Option.some.inj h).symm, hperm⟩
  · rw [serveStore, if_neg hperm] at h
    cases h

theorem serveStore_cases {request : Request} {answer : Answer}
    (h : serveStore swaps request answer = some swaps') :
    swaps' = swaps ∧ (∀ swap, request = .saveSwap swap → answer ≠ .saved (.ok ())) ∨
      ∃ swap, request = .saveSwap swap ∧ answer = .saved (.ok ()) ∧
        swaps' = upsert swap swaps := by
  unfold serveStore at h
  split at h
  case h_2 =>
    split at h
    · cases h
      exact .inl ⟨rfl, by simp⟩
    · cases h
  case h_4 =>
    cases h
    exact .inr ⟨_, rfl, rfl, rfl⟩
  case h_8 => cases h
  all_goals
    cases h
    exact .inl ⟨rfl, by simp⟩

/-- What a party does in one step leaves of the store and the log. -/
structure Served (fate : Fate) (s s' : State) : Prop where
  advances : Advances fate s.swaps s'.swaps
  fresh : ∀ swap ∈ s'.swaps, ¬Resolved swap → swap.spentTxid = none
  grows : s.log ⊆ s'.log
  log : Chronicle (Truthful L serverPubkey) s'.log

theorem fresh_upsert {swap : AssetSwap} (hmem : swap.id ∈ swaps.map (·.id))
    (hfresh : ∀ swap ∈ swaps, ¬Resolved swap → swap.spentTxid = none)
    (hswap : ¬Resolved swap → swap.spentTxid = none) :
    ∀ r ∈ upsert swap swaps, ¬Resolved r → r.spentTxid = none := by
  intro r hr hnot
  rcases mem_upsert hmem hr with rfl | ⟨hr, -⟩
  · exact hswap hnot
  · exact hfresh r hr hnot

theorem mem_of_find {id : String} {swap : AssetSwap} (h : swaps.find? (·.id = id) = some swap) :
    swap ∈ swaps ∧ swap.id = id :=
  ⟨List.mem_of_find?_eq_some h, by simpa using List.find?_some h⟩

theorem truthful_mark {party : Party} {updated : AssetSwap} (hstatus : updated.status = .cancelling)
    (h : ∀ swap ∈ swaps, swap.id = updated.id → ¬Resolved swap) :
    Truthful L serverPubkey (.wrote party (swaps.find? (·.id = updated.id)) updated) log := by
  refine ⟨fun swap hswap hresolved ↦ ?_, fun hc ↦ ?_⟩
  · obtain ⟨hmem, hid⟩ := mem_of_find hswap
    exact absurd hresolved (h swap hmem hid)
  · rw [hstatus] at hc
    cases hc

theorem truthful_outcome {party : Party} {updated : AssetSwap} {txid : String}
    (hopen : Open fate swaps updated.id) (hfate : fate updated.id = some (updated.status, txid))
    (hspent : updated.spentTxid = some txid)
    (hevidence : updated.status = .cancelled → Evidence L serverPubkey log updated.id (some txid)) :
    Truthful L serverPubkey (.wrote party (swaps.find? (·.id = updated.id)) updated) log := by
  refine ⟨fun swap hswap hresolved ↦ ?_, fun hc ↦ hspent ▸ hevidence hc⟩
  obtain ⟨hmem, hid⟩ := mem_of_find hswap
  obtain ⟨txid', hspent', hfate'⟩ := hopen swap hmem hid hresolved
  obtain ⟨hstatus, rfl⟩ : updated.status = swap.status ∧ txid = txid' := by
    simpa using hfate.symm.trans hfate'
  exact ⟨hstatus, hspent.trans hspent'.symm⟩

theorem resolved_of_retirable {swap : AssetSwap} (h : swap.status ∈ RETIRABLE) : Resolved swap := by
  unfold Resolved
  simp only [RETIRABLE, TERMINAL, List.mem_cons, List.not_mem_nil, or_false] at h ⊢
  exact h.imp_right .inl

theorem not_resolved_cancelling {swap : AssetSwap} (h : swap.status = .cancelling) :
    ¬Resolved swap := by
  unfold Resolved
  rw [h]
  decide

theorem written_eq_nil {party : Party} {request : Request} {answer : Answer}
    (h : ∀ swap, request = .saveSwap swap → answer ≠ .saved (.ok ())) :
    written party swaps (some request) answer = [] := by
  unfold written
  split
  · rename_i swap heq
    exact absurd rfl (h swap (Option.some.inj heq))
  · rfl

theorem CancelPhase.seen_truthful (phase : CancelPhase) (answer : Answer) :
    ∀ e ∈ phase.seen answer, ∀ older, Truthful L serverPubkey e older := by
  unfold CancelPhase.seen
  split
  · simp [Truthful]
  · simp

theorem WatchPhase.seen_truthful (phase : WatchPhase) (answer : Answer) :
    ∀ e ∈ phase.seen answer, ∀ older, Truthful L serverPubkey e older := by
  unfold WatchPhase.seen
  split
  · simp [Truthful]
  · simp

section Serve

variable {s s' : State} {answer : Answer}

theorem serveCancel_some {call : ℕ} (h : serveCancel s call answer = some s') :
    ∃ waiting request swaps', s.cancels[call]? = some waiting ∧
      waiting.phase.request = some request ∧ waiting.answer = none ∧
      serveStore s.swaps request answer = some swaps' ∧
      s' = { s with
        swaps := swaps'
        cancels := s.cancels.set call ⟨waiting.phase, some answer⟩
        log := waiting.phase.seen answer ++ written (.cancel call) s.swaps (some request) answer ++
          s.log } := by
  obtain ⟨waiting, hwaiting, h⟩ := Option.bind_eq_some_iff.mp h
  obtain ⟨request, hrequest, h⟩ := Option.bind_eq_some_iff.mp h
  split at h
  · cases h
  · rename_i hanswer
    obtain ⟨swaps', hswaps, h⟩ := Option.bind_eq_some_iff.mp h
    exact ⟨waiting, request, swaps', hwaiting, hrequest, by simpa using hanswer, hswaps,
      (Option.some.inj h).symm⟩

theorem cancelInv_served {phase : CancelPhase} {request : Request} {call : ℕ}
    (hids : (swaps.map (·.id)).Nodup)
    (hfresh : ∀ swap ∈ swaps, ¬Resolved swap → swap.spentTxid = none)
    (h : CancelInv fate swaps log phase none) (hrequest : phase.request = some request)
    (hserve : serveStore swaps request answer = some swaps)
    (hread : ∀ swap, request = .saveSwap swap → answer ≠ .saved (.ok ()))
    (hsent : ∀ swapId txid, phase = .sending swapId true → answer = .sent (.ok txid) →
      fate swapId = some (.cancelled, txid)) :
    CancelInv fate swaps (phase.seen answer ++ written (.cancel call) swaps (some request) answer ++
      log) phase (some answer) := by
  rw [written_eq_nil hread, List.append_nil]
  have hsnapshot : ∀ listed, request = .getAllSwaps → some answer = some (.swaps (.ok listed)) →
      Snapshot fate swaps listed := by
    rintro listed rfl hlisted
    rw [Option.some.inj hlisted] at hserve
    exact snapshot_of_perm hids hfresh (serveStore_swaps hserve).2
  cases phase with
  | selecting | checking | finished => trivial
  | marking swapId => exact fun listed ↦ hsnapshot listed (Option.some.inj hrequest).symm
  | savingMark swapId updated =>
    obtain ⟨hid, hmem, hstatus, hspent, -⟩ := h
    refine ⟨hid, hmem, hstatus, hspent, fun hsaved ↦ ?_⟩
    exact absurd (Option.some.inj hsaved) (hread updated (Option.some.inj hrequest).symm)
  | sending swapId hasLocalRecord =>
    cases hasLocalRecord with
    | false => trivial
    | true =>
      refine ⟨h.1, fun txid htxid ↦ ?_⟩
      have htxid := Option.some.inj htxid
      refine ⟨hsent swapId txid rfl htxid, ?_⟩
      rw [htxid]
      exact List.mem_cons_self
  | recording swapId txid =>
    obtain ⟨hopen, hsubmitted, -⟩ := h
    exact ⟨hopen, hsubmitted.mono (List.subset_append_right _ _), fun listed ↦
      hsnapshot listed (Option.some.inj hrequest).symm⟩
  | savingOutcome swapId txid updated =>
    obtain ⟨hopen, hsubmitted, hupdated⟩ := h
    exact ⟨hopen, hsubmitted.mono (List.subset_append_right _ _), hupdated⟩

variable (L serverPubkey) in
/-- A call's write is a marker on what is not resolved, or its own outcome. -/
theorem cancel_write (party : Party) {phase : CancelPhase} {updated : AssetSwap}
    (hfresh : ∀ swap ∈ swaps, ¬Resolved swap → swap.spentTxid = none)
    (h : CancelInv fate swaps log phase none) (hrequest : phase.request = some (.saveSwap updated))
    (hmark : ∀ swapId, phase = .savingMark swapId updated →
      ∀ swap ∈ swaps, swap.id = swapId → ¬Resolved swap) :
    Advances fate swaps (upsert updated swaps) ∧
      (∀ swap ∈ upsert updated swaps, ¬Resolved swap → swap.spentTxid = none) ∧
      Truthful L serverPubkey (.wrote party (swaps.find? (·.id = updated.id)) updated) log ∧
      CancelInv fate (upsert updated swaps) log phase (some (.saved (.ok ()))) := by
  cases phase with
  | selecting | checking | marking | sending | recording | finished => cases hrequest
  | savingMark swapId updated' =>
    obtain rfl : updated' = updated := by simpa [CancelPhase.request] using hrequest
    obtain ⟨rfl, hmem, hstatus, hspent, -⟩ := h
    have hmark := hmark _ rfl
    have hadvances : Advances fate swaps (upsert updated' swaps) :=
      advances_upsert hmem (.inl ⟨hmark, not_resolved_cancelling hstatus⟩)
    have hnone : updated'.spentTxid = none := by
      rcases hspent with hspent | hclosed
      · exact hspent
      · obtain ⟨s, hs, hid⟩ := List.mem_map.mp hmem
        exact absurd (hclosed s hs hid) (hmark s hs hid)
    refine ⟨hadvances, fresh_upsert hmem hfresh fun _ ↦ hnone, truthful_mark hstatus hmark, rfl,
      hadvances.ids ▸ hmem, hstatus, .inl hnone, fun _ ↦ hadvances.isOpen _ ?_⟩
    exact fun s hs hid hresolved ↦ absurd hresolved (hmark s hs hid)
  | savingOutcome swapId txid updated' =>
    obtain rfl : updated' = updated := by simpa [CancelPhase.request] using hrequest
    obtain ⟨hopen, hsubmitted, hmem, rfl, hstatus, hspent⟩ := h
    have hresolved : Resolved updated' := by
      unfold Resolved
      rw [hstatus]
      decide
    have hfate : fate updated'.id = some (updated'.status, txid) := by rw [hsubmitted.1, hstatus]
    have hadvances : Advances fate swaps (upsert updated' swaps) :=
      advances_upsert hmem (.inr ⟨hresolved, txid, hspent, hfate⟩)
    exact ⟨hadvances, fresh_upsert hmem hfresh fun hnot ↦ absurd hresolved hnot,
      truthful_outcome hopen hfate hspent fun _ ↦ .inl ⟨txid, hsubmitted.2, rfl⟩,
      hadvances.isOpen _ hopen, hsubmitted, hadvances.ids ▸ hmem, rfl, hstatus, hspent⟩

theorem serveCancel_inv {call : ℕ} (hs : Inv L serverPubkey fate s)
    (hok : Meets L serverPubkey fate s (.serve (.cancel call) answer))
    (h : serveCancel s call answer = some s') : Inv L serverPubkey fate s' := by
  obtain ⟨waiting, request, swaps', hwaiting, hrequest, hnone, hserve, rfl⟩ := serveCancel_some h
  obtain ⟨phase, waitingAnswer⟩ := waiting
  dsimp only at hrequest hnone ⊢
  subst hnone
  have hinv : CancelInv fate s.swaps s.log phase none :=
    hs.cancels _ (List.mem_of_getElem? hwaiting)
  have hgrows : s.log ⊆ phase.seen answer ++
      written (.cancel call) s.swaps (some request) answer ++ s.log :=
    List.subset_append_right _ _
  rcases serveStore_cases hserve with ⟨rfl, hread⟩ | ⟨updated, rfl, rfl, rfl⟩
  · have hsent : ∀ swapId txid, phase = .sending swapId true → answer = .sent (.ok txid) →
        fate swapId = some (.cancelled, txid) := by
      rintro swapId txid rfl rfl
      exact hok swapId none hwaiting
    refine ⟨hs.ids, hs.fresh, fun w hw ↦ ?_, hs.watcher.advance (.refl _ _) hgrows, ?_⟩
    · rcases List.mem_or_eq_of_mem_set hw with hw | rfl
      · exact (hs.cancels w hw).advance (.refl _ _) hgrows
      · exact cancelInv_served hs.ids hs.fresh hinv hrequest hserve hread hsent
    · rw [written_eq_nil hread, List.append_nil]
      exact hs.log.append (phase.seen_truthful answer)
  · have hmark : ∀ swapId, phase = .savingMark swapId updated →
        ∀ swap ∈ s.swaps, swap.id = swapId → ¬Resolved swap := by
      rintro swapId rfl
      exact hok swapId updated none hwaiting
    obtain ⟨hadvances, hfresh, htruthful, hcancel⟩ :=
      cancel_write L serverPubkey (.cancel call) hs.fresh hinv hrequest hmark
    have hseen : phase.seen (.saved (.ok ())) = [] := by
      cases phase <;> rfl
    refine ⟨hadvances.ids ▸ hs.ids, hfresh, fun w hw ↦ ?_, hs.watcher.advance hadvances hgrows, ?_⟩
    · rcases List.mem_or_eq_of_mem_set hw with hw | rfl
      · exact (hs.cancels w hw).advance hadvances hgrows
      · exact hcancel.advance (.refl _ _) hgrows
    · rw [hseen]
      exact ⟨htruthful, hs.log⟩

theorem serveWatcher_some (h : serveWatcher s answer = some s') :
    ∃ request swaps', s.watcher.phase.request = some request ∧ s.watcher.answer = none ∧
      serveStore s.swaps request answer = some swaps' ∧
      s' = { s with
        swaps := swaps'
        watcher := ⟨s.watcher.phase, some answer⟩
        log := s.watcher.phase.seen answer ++ written .watcher s.swaps (some request) answer ++
          s.log } := by
  obtain ⟨request, hrequest, h⟩ := Option.bind_eq_some_iff.mp h
  split at h
  · cases h
  · rename_i hanswer
    obtain ⟨swaps', hswaps, h⟩ := Option.bind_eq_some_iff.mp h
    exact ⟨request, swaps', hrequest, by simpa using hanswer, hswaps, (Option.some.inj h).symm⟩

theorem watchInv_served {phase : WatchPhase} {request : Request}
    (hids : (swaps.map (·.id)).Nodup)
    (hfresh : ∀ swap ∈ swaps, ¬Resolved swap → swap.spentTxid = none)
    (h : WatchInv L serverPubkey fate swaps log phase none)
    (hrequest : phase.request = some request)
    (hserve : serveStore swaps request answer = some swaps)
    (hread : ∀ swap, request = .saveSwap swap → answer ≠ .saved (.ok ()))
    (hclassified : ∀ turn swap txs, phase = .classifying turn swap → answer = .txs txs →
      ¬Resolved swap → ∀ status ∈ kindStatus (turn.classify L serverPubkey swap txs),
        fate swap.id = some (status, turn.spentTxid)) :
    WatchInv L serverPubkey fate swaps (phase.seen answer ++
      written .watcher swaps (some request) answer ++ log) phase (some answer) := by
  rw [written_eq_nil hread, List.append_nil]
  have hsnapshot : ∀ listed, request = .getAllSwaps → some answer = some (.swaps (.ok listed)) →
      Snapshot fate swaps listed := by
    rintro listed rfl hlisted
    rw [Option.some.inj hlisted] at hserve
    exact snapshot_of_perm hids hfresh (serveStore_swaps hserve).2
  have hgrows : log ⊆ phase.seen answer ++ log := List.subset_append_right _ _
  cases phase with
  | idle => trivial
  | finding turn => exact fun listed ↦ hsnapshot listed (Option.some.inj hrequest).symm
  | classifying turn swap =>
    obtain ⟨hfunding, hopen, -⟩ := h
    refine ⟨hfunding, hopen, fun txs htxs ↦ ?_⟩
    have htxs := Option.some.inj htxs
    refine ⟨hclassified turn swap txs rfl htxs, fun list hlist ↦ ?_⟩
    rw [htxs, hlist]
    exact List.mem_cons_self
  | updating turn swap changes =>
    obtain ⟨hfound, hspent, -⟩ := h
    exact ⟨hfound.advance (.refl _ _) hgrows, hspent, fun listed ↦
      hsnapshot listed (Option.some.inj hrequest).symm⟩
  | saving turn changes updated =>
    obtain ⟨hfound, hmem, hspent⟩ := h
    exact ⟨hfound.advance (.refl _ _) hgrows, hmem, hspent⟩

theorem serveWatcher_inv (hs : Inv L serverPubkey fate s)
    (hok : Meets L serverPubkey fate s (.serve .watcher answer))
    (h : serveWatcher s answer = some s') : Inv L serverPubkey fate s' := by
  obtain ⟨request, swaps', hrequest, hnone, hserve, rfl⟩ := serveWatcher_some h
  have hinv := hs.watcher
  rw [hnone] at hinv
  have hgrows : s.log ⊆ s.watcher.phase.seen answer ++
      written .watcher s.swaps (some request) answer ++ s.log := List.subset_append_right _ _
  rcases serveStore_cases hserve with ⟨rfl, hread⟩ | ⟨updated, rfl, rfl, rfl⟩
  · have hclassified : ∀ turn swap txs, s.watcher.phase = .classifying turn swap →
        answer = .txs txs → ¬Resolved swap →
        ∀ status ∈ kindStatus (turn.classify L serverPubkey swap txs),
          fate swap.id = some (status, turn.spentTxid) := by
      rintro turn swap txs hphase rfl
      exact hok turn swap hphase
    refine ⟨hs.ids, hs.fresh, fun w hw ↦ (hs.cancels w hw).advance (.refl _ _) hgrows,
      watchInv_served hs.ids hs.fresh hinv hrequest hserve hread hclassified, ?_⟩
    dsimp only
    rw [written_eq_nil hread, List.append_nil]
    exact hs.log.append (s.watcher.phase.seen_truthful answer)
  · cases hphase : s.watcher.phase with
    | idle | finding | classifying | updating =>
      rw [hphase] at hrequest
      cases hrequest
    | saving turn changes updated' =>
      rw [hphase] at hrequest hinv hgrows
      obtain rfl : updated' = updated := by simpa [WatchPhase.request] using hrequest
      obtain ⟨hfound, hmem, hspent⟩ := hinv
      have hresolved : Resolved updated' := resolved_of_retirable hfound.retirable
      have hadvances : Advances fate s.swaps (upsert updated' s.swaps) :=
        advances_upsert hmem (.inr ⟨hresolved, _, hspent, hfound.known⟩)
      refine ⟨hadvances.ids ▸ hs.ids, fresh_upsert hmem hs.fresh fun hnot ↦ absurd hresolved hnot,
        fun w hw ↦ (hs.cancels w hw).advance hadvances hgrows, ?_, ?_⟩
      · exact ⟨hfound.advance hadvances hgrows, hadvances.ids ▸ hmem, hspent⟩
      · exact ⟨truthful_outcome hfound.isOpen hfound.known hspent hfound.evidence, hs.log⟩

theorem CancelPhase.resume_inv {phase phase' : CancelPhase}
    (h : CancelInv fate swaps log phase (some answer)) (hresume : phase.resume answer = some phase') :
    CancelInv fate swaps log phase' none := by
  unfold CancelPhase.resume at hresume
  split at hresume
  · cases hresume
    split <;> trivial
  · cases hresume
    split
    · trivial
    · split <;> simp [CancelInv]
  · rename_i swapId listed
    cases hresume
    split
    · trivial
    · rename_i list
      have hsnapshot := h list rfl
      split
      · rename_i updated hupdated
        obtain ⟨swap, hswap, hid, rfl⟩ := updatedIn_some hupdated
        have hmem : swapId ∈ swaps.map (·.id) :=
          (hsnapshot.ids swapId).mp (List.mem_map.mpr ⟨swap, hswap, hid⟩)
        refine ⟨hid, hmem, rfl, ?_, fun hanswer ↦ by cases hanswer⟩
        by_cases hresolved : Resolved swap
        · exact .inr (hid ▸ hsnapshot.closed swap hswap hresolved)
        · refine .inl ?_
          rw [AssetSwap.merge, (hsnapshot.fresh swap hswap hresolved).1]
          rfl
      · rename_i hnone
        have hmem := (hsnapshot.ids swapId).not.mp (updatedIn_none hnone)
        refine ⟨fun swap hswap hid ↦ ?_, fun txid hanswer ↦ by cases hanswer⟩
        exact absurd (List.mem_map.mpr ⟨swap, hswap, hid⟩) hmem
  · cases hresume
    split
    · trivial
    · obtain ⟨-, -, -, -, hopen⟩ := h
      exact ⟨hopen rfl, fun txid hanswer ↦ by cases hanswer⟩
  · rename_i swapId hasLocalRecord txid
    cases hresume
    split
    · trivial
    · rename_i txid
      split
      · rename_i hlocal
        subst hlocal
        obtain ⟨hopen, hsubmitted⟩ := h
        exact ⟨hopen, hsubmitted txid rfl, fun listed hanswer ↦ by cases hanswer⟩
      · trivial
  · rename_i swapId txid listed
    cases hresume
    split
    · trivial
    · rename_i list
      obtain ⟨hopen, hsubmitted, hlisted⟩ := h
      split
      · rename_i updated hupdated
        obtain ⟨swap, hswap, hid, rfl⟩ := updatedIn_some hupdated
        exact ⟨hopen, hsubmitted, ((hlisted list rfl).ids swapId).mp
          (List.mem_map.mpr ⟨swap, hswap, hid⟩), hid, rfl, rfl⟩
      · trivial
  · cases hresume
    trivial
  · cases hresume

theorem nextTurn_inv (event : SpendEvent) (vtxos : List SpentVtxo) :
    WatchInv L serverPubkey fate swaps log (nextTurn event vtxos) none := by
  induction vtxos with
  | nil => trivial
  | cons vtxo rest ih =>
    unfold nextTurn
    split
    · exact fun listed hanswer ↦ by cases hanswer
    · exact ih

theorem dequeue_inv {phase : WatchPhase} {queue : List SpendEvent}
    (h : WatchInv L serverPubkey fate swaps log phase none) :
    WatchInv L serverPubkey fate swaps log (dequeue phase queue).1 none := by
  induction queue generalizing phase with
  | nil =>
    unfold dequeue
    split
    · trivial
    · rename_i heq
      cases heq
    · exact h
  | cons event queue ih =>
    unfold dequeue
    split
    · rename_i heq
      cases heq
    · rename_i heq
      obtain ⟨rfl, rfl⟩ := List.cons.inj heq
      refine ih ?_
      unfold handleSpend
      split
      · exact nextTurn_inv _ _
      · trivial
    · exact h

theorem kindStatus_of_spendUpdate {swap : AssetSwap} {txid : String} {kind : SpendKind} {time : ℤ}
    {changes : AssetSwapChanges} (h : spendUpdate swap txid kind time = some changes) :
    kindStatus kind = some changes.status := by
  unfold spendUpdate at h
  split at h
  · cases h
  · cases kind <;> cases h <;> rfl

theorem Turn.classify_cancelled {turn : Turn} {swap : AssetSwap}
    {txs : Except String (List (Option SpendTx))}
    (h : turn.classify L serverPubkey swap txs = .cancelled) :
    ∃ list data offer tx, txs = .ok list ∧ base16.decode swap.offerHex = some data ∧
      Offer.decodeOffer data = .ok offer ∧ some tx ∈ list ∧
      tx.Cancels L offer serverPubkey turn.vtxo.deposit := by
  unfold Turn.classify at h
  split at h
  · rename_i list data hdata
    split at h
    · rename_i offer hoffer
      split at h
      · obtain ⟨tx, htx, hcancels⟩ := classifyDepositSpend_cancelled h
        exact ⟨list, data, offer, tx, rfl, hdata, hoffer, List.reduceOption_mem_iff.mp htx,
          hcancels⟩
      · cases h
    · cases h
  · cases h

theorem Turn.decide_inv {turn : Turn} {swap : AssetSwap} {kind : SpendKind}
    (hopen : ¬Resolved swap → Open fate swaps swap.id)
    (hfate : ¬Resolved swap → ∀ status ∈ kindStatus kind,
      fate swap.id = some (status, turn.spentTxid))
    (hevidence : kind = .cancelled →
      Evidence L serverPubkey log swap.id (some turn.spentTxid)) :
    WatchInv L serverPubkey fate swaps log (turn.decide swap kind) none := by
  unfold Turn.decide
  split
  · rename_i changes hchanges
    obtain ⟨hnot, hspent, hretirable, hcancelled⟩ := spendUpdate_some hchanges
    exact ⟨⟨hopen hnot, hfate hnot _ (kindStatus_of_spendUpdate hchanges), hretirable,
      hevidence ∘ hcancelled⟩, hspent, fun listed hanswer ↦ by cases hanswer⟩
  · exact nextTurn_inv _ _

/-- Up to the watcher's next await. No open record names a spend, so that none is recognized. -/
theorem WatchPhase.resume_inv {phase phase' : WatchPhase}
    (h : WatchInv L serverPubkey fate swaps log phase (some answer))
    (hresume : phase.resume L serverPubkey answer = some phase') :
    WatchInv L serverPubkey fate swaps log phase' none := by
  unfold WatchPhase.resume at hresume
  split at hresume
  · rename_i turn listed
    cases hresume
    split
    · exact nextTurn_inv _ _
    · rename_i swap hfind
      cases listed with
      | error error => simp [Turn.find, AssetSwap.byNewest, Except.toOption] at hfind
      | ok list =>
        have hsnapshot := h list rfl
        have hswap : swap ∈ list := List.mem_mergeSort.mp (List.mem_of_find?_eq_some hfind)
        obtain ⟨hfunding, -⟩ : swap.fundingTxid = turn.vtxo.txid ∧
            swap.swapPkScript = turn.event.contractScript := by
          simpa using List.find?_some hfind
        have hopen : ¬Resolved swap → Open fate swaps swap.id := fun hnot ↦
          (hsnapshot.fresh swap hswap hnot).2
        split
        · rename_i hrecognizes
          obtain ⟨hspent, hstatus⟩ : swap.spentTxid = some turn.spentTxid ∧
              swap.status = .cancelling := by
            simpa [Turn.recognizes] using hrecognizes
          rw [(hsnapshot.fresh swap hswap (not_resolved_cancelling hstatus)).1] at hspent
          cases hspent
        · split
          · exact Turn.decide_inv hopen (by simp [kindStatus]) (fun hkind ↦ by cases hkind)
          · exact ⟨hfunding, hopen, fun txs hanswer ↦ by cases hanswer⟩
  · rename_i turn swap txs
    cases hresume
    obtain ⟨hfunding, hopen, hanswer⟩ := h
    obtain ⟨hfate, hfetched⟩ := hanswer txs rfl
    refine Turn.decide_inv hopen hfate fun hkind ↦ ?_
    obtain ⟨list, data, offer, tx, rfl, hdata, hoffer, htx, hcancels⟩ := Turn.classify_cancelled hkind
    exact .inr ⟨swap, turn.vtxo.deposit, list, hfetched list rfl, rfl, hfunding.symm, data, offer,
      tx, hdata, hoffer, htx, hcancels⟩
  · rename_i turn swap changes listed
    cases hresume
    obtain ⟨hfound, hspent, hlisted⟩ := h
    split
    · exact nextTurn_inv _ _
    · rename_i list
      split
      · rename_i updated hupdated
        obtain ⟨swap', hswap', hid, rfl⟩ := updatedIn_some hupdated
        have hmem : swap.id ∈ swaps.map (·.id) :=
          ((hlisted list rfl).ids swap.id).mp (List.mem_map.mpr ⟨swap', hswap', hid⟩)
        have hsame : (swap'.merge changes).id = swap.id := hid
        refine ⟨hsame ▸ hfound, hsame ▸ hmem, ?_⟩
        rw [AssetSwap.merge, hspent]
        rfl
      · exact nextTurn_inv _ _
  · cases hresume
    exact nextTurn_inv _ _
  · cases hresume

end Serve

end ArkadeSdk.OfferStatus
