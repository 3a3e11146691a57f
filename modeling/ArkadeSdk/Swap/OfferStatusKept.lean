import ArkadeSdk.Swap.OfferBatch
import ArkadeSdk.Swap.OfferStatusInvariant

/-! A resolved record stays as it was resolved. -/

namespace ArkadeSdk.OfferStatus

open WireFormat HexCodec LabelledRun

variable {Tree : Type} {L : OfferLibraries Tree} {serverPubkey : Bytes} {fate : Fate}
  {swaps : List AssetSwap} {log : List Event}

theorem cancelOffer_inv (serverKey : Bytes) (offerHex : String) (fundingTxid : Option String) :
    CancelInv fate swaps log (cancelOffer L serverKey offerHex fundingTxid) none := by
  unfold cancelOffer
  split
  · trivial
  · split
    · trivial
    · split <;> trivial

theorem resumeCancel_inv {s s' : State} {call : ℕ} (hs : Inv L serverPubkey fate s)
    (h : resumeCancel s call = some s') : Inv L serverPubkey fate s' := by
  obtain ⟨waiting, hwaiting, h⟩ := Option.bind_eq_some_iff.mp h
  obtain ⟨answer, hanswer, h⟩ := Option.bind_eq_some_iff.mp h
  obtain ⟨phase, hphase, h⟩ := Option.bind_eq_some_iff.mp h
  obtain rfl := Option.some.inj h
  have hinv := hs.cancels waiting (List.mem_of_getElem? hwaiting)
  rw [hanswer] at hinv
  refine ⟨hs.ids, hs.fresh, fun w hw ↦ ?_, hs.watcher, hs.log⟩
  rcases List.mem_or_eq_of_mem_set hw with hw | rfl
  · exact hs.cancels w hw
  · exact CancelPhase.resume_inv hinv hphase

theorem resumeWatcher_inv {s s' : State} (hs : Inv L serverPubkey fate s)
    (h : resumeWatcher L serverPubkey s = some s') : Inv L serverPubkey fate s' := by
  obtain ⟨answer, hanswer, h⟩ := Option.bind_eq_some_iff.mp h
  obtain ⟨phase, hphase, h⟩ := Option.bind_eq_some_iff.mp h
  obtain rfl := Option.some.inj h
  have hinv := hs.watcher
  rw [hanswer] at hinv
  exact ⟨hs.ids, hs.fresh, hs.cancels, dequeue_inv (WatchPhase.resume_inv hinv hphase), hs.log⟩

theorem step_inv {s s' : State} {input : Input} (hs : Inv L serverPubkey fate s)
    (hok : Meets L serverPubkey fate s input) (h : step L serverPubkey s input = some s') :
    Inv L serverPubkey fate s' := by
  cases input with
  | cancelOffer serverKey offerHex fundingTxid =>
    obtain rfl := Option.some.inj h
    refine ⟨hs.ids, hs.fresh, fun w hw ↦ ?_, hs.watcher, hs.log⟩
    rcases List.mem_append.mp hw with hw | hw
    · exact hs.cancels w hw
    · obtain rfl := List.mem_singleton.mp hw
      exact cancelOffer_inv serverKey offerHex fundingTxid
  | spent event =>
    simp only [step] at h
    split at h
    · obtain rfl := Option.some.inj h
      have hidle : WatchInv L serverPubkey fate s.swaps s.log .idle none := trivial
      exact ⟨hs.ids, hs.fresh, hs.cancels, dequeue_inv hidle, hs.log⟩
    · obtain rfl := Option.some.inj h
      exact ⟨hs.ids, hs.fresh, hs.cancels, hs.watcher, hs.log⟩
  | serve party answer =>
    cases party with
    | cancel call => exact serveCancel_inv hs hok h
    | watcher => exact serveWatcher_inv hs hok h
  | resume party =>
    cases party with
    | cancel call => exact resumeCancel_inv hs h
    | watcher => exact resumeWatcher_inv hs h

/-- Records as they were stored before anybody cancels or watches: each under its own id, and the
unresolved ones without a spend. -/
structure Initial (s : State) : Prop where
  ids : (s.swaps.map (·.id)).Nodup
  fresh : ∀ swap ∈ s.swaps, ¬Resolved swap → swap.spentTxid = none
  cancels : s.cancels = []
  watcher : s.watcher = ⟨.idle, none⟩
  log : s.log = []

/-- Where no marker is written on a resolved record and each deposit is reported spent in one way,
no write changes how a record was resolved, and each record that is written as cancelled was
cancelled from here or is seen to be. -/
theorem resolved_never_regresses {s s' : State} (hs : Initial s)
    (h : Run (step L serverPubkey) (Meets L serverPubkey fate) s s') {newer older : List Event}
    {party : Party} {before : Option AssetSwap} {after : AssetSwap}
    (hlog : s'.log = newer ++ .wrote party before after :: older) :
    Keeps before after ∧ (after.status = .cancelled →
      Evidence L serverPubkey older after.id after.spentTxid) := by
  have hinit : Inv L serverPubkey fate s := by
    refine ⟨hs.ids, hs.fresh, ?_, ?_, ?_⟩
    · simp [hs.cancels]
    · rw [hs.watcher]
      trivial
    · rw [hs.log]
      trivial
  have hinv : Inv L serverPubkey fate s' := h.invariant (fun _ _ _ ↦ step_inv) hinit
  exact (hlog ▸ hinv.log).entry

def sampleKey : Bytes := List.replicate 32 9

def sampleLibraries : OfferLibraries (List Bytes) :=
  ⟨Offer.fillLibraries, fun _ ↦ Offer.sellOffer.swapPkScript⟩

def samplePayload : Bytes :=
  [0x01, 0, 34] ++ Offer.sellOffer.swapPkScript ++ [0x02, 0, 8, 0, 0, 0, 0, 0, 0, 3, 232] ++
  [0x0b, 0, 34] ++ (List.replicate 32 1 ++ [0, 0]) ++
  [0x05, 0, 34] ++ Offer.sellOffer.makerPkScript ++ [0x07, 0, 32] ++
  Offer.sellOffer.makerPublicKey ++ [0x08, 0, 32] ++ Offer.sellOffer.emulatorPubkey

example : (Offer.decodeOffer samplePayload).toOption.map (·.wantAmount) = some 1000 := by
  decide +kernel

def sampleSwap : AssetSwap where
  id := base16.encode [1]
  fromAsset := "asset"
  toAsset := "btc"
  fromAmount := "50"
  toAmount := "1000"
  swapAddress := ""
  swapPkScript := "script"
  offerHex := base16.encode samplePayload
  fundingTxid := base16.encode [1]
  spentTxid := none
  status := .pending
  createdAt := 0
  completedAt := none

section Late

def single (swap : AssetSwap) (call : Waiting CancelPhase) (watcher : Waiting WatchPhase)
    (log : List Event) : State := ⟨[swap], [call], watcher, [], log⟩

variable {swap : AssetSwap} {call : Waiting CancelPhase} {watcher : Waiting WatchPhase}

theorem upsert_singleton {updated : AssetSwap} (h : updated.id = swap.id) :
    upsert updated [swap] = [updated] := by
  simp [upsert, h]

theorem updatedIn_singleton (swap : AssetSwap) (changes : AssetSwapChanges) :
    updatedIn [swap] swap.id changes = some (swap.merge changes) := by
  simp [updatedIn, AssetSwap.byNewest, AssetSwap.mergeById, AssetSwap.merge]

theorem serve_call {phase : CancelPhase} {request : Request} {answer : Answer} {swap' : AssetSwap}
    (hrequest : phase.request = some request)
    (hserve : serveStore [swap] request answer = some [swap']) :
    step L serverPubkey (single swap ⟨phase, none⟩ watcher log) (.serve (.cancel 0) answer) =
      some (single swap' ⟨phase, some answer⟩ watcher
        (phase.seen answer ++ written (.cancel 0) [swap] (some request) answer ++ log)) := by
  simp [step, serveCancel, single, hrequest, hserve]

theorem resume_call {phase phase' : CancelPhase} {answer : Answer}
    (h : phase.resume answer = some phase') :
    step L serverPubkey (single swap ⟨phase, some answer⟩ watcher log) (.resume (.cancel 0)) =
      some (single swap ⟨phase', none⟩ watcher log) := by
  simp [step, resumeCancel, single, h]

theorem serveStore_list (swap : AssetSwap) :
    serveStore [swap] .getAllSwaps (.swaps (.ok [swap])) = some [swap] := by
  simp [serveStore]

theorem serveStore_save (swap : AssetSwap) {updated : AssetSwap} (h : updated.id = swap.id) :
    serveStore [swap] (.saveSwap updated) (.saved (.ok ())) = some [updated] := by
  simp [serveStore, upsert_singleton h]

theorem written_save (party : Party) (swap : AssetSwap) {updated : AssetSwap}
    (h : updated.id = swap.id) : written party [swap] (some (.saveSwap updated)) (.saved (.ok ())) =
      [.wrote party (some swap) updated] := by
  simp [written, h]

def Quiet : Input → Prop
  | .serve (.cancel _) (.saved (.ok ())) | .serve (.cancel _) (.sent (.ok _))
  | .serve .watcher (.txs _) => False
  | _ => True

theorem saves {ok : State → Input → Prop} {phase : CancelPhase} {updated : AssetSwap}
    (hrequest : phase.request = some (.saveSwap updated)) (hid : updated.id = swap.id)
    (hseen : phase.seen (.saved (.ok ())) = [])
    (hok : ok (single swap ⟨phase, none⟩ watcher log) (.serve (.cancel 0) (.saved (.ok ())))) :
    Run (step L serverPubkey) ok (single swap ⟨phase, none⟩ watcher log)
      (single updated ⟨phase, some (.saved (.ok ()))⟩ watcher
        (.wrote (.cancel 0) (some swap) updated :: log)) := by
  have hserved : step L serverPubkey (single swap ⟨phase, none⟩ watcher log)
      (.serve (.cancel 0) (.saved (.ok ()))) =
        some (single updated ⟨phase, some (.saved (.ok ()))⟩ watcher
          (.wrote (.cancel 0) (some swap) updated :: log)) := by
    rw [serve_call hrequest (serveStore_save swap hid), hseen, written_save _ _ hid]
    rfl
  exact (Run.refl _).tail hok hserved

section Quiet

variable {ok : State → Input → Prop} (hquiet : ∀ s i, Quiet i → ok s i)
include hquiet

theorem asks {phase phase' : CancelPhase} {request : Request} (answer : Answer)
    (hanswer : Quiet (.serve (.cancel 0) answer)) (hrequest : phase.request = some request)
    (hserve : serveStore [swap] request answer = some [swap])
    (hseen : phase.seen answer ++ written (.cancel 0) [swap] (some request) answer = [])
    (hresume : phase.resume answer = some phase') :
    Run (step L serverPubkey) ok (single swap ⟨phase, none⟩ watcher log)
      (single swap ⟨phase', none⟩ watcher log) := by
  have hserved : step L serverPubkey (single swap ⟨phase, none⟩ watcher log)
      (.serve (.cancel 0) answer) = some (single swap ⟨phase, some answer⟩ watcher log) := by
    rw [serve_call hrequest hserve, hseen, List.nil_append]
  exact ((Run.refl _).tail (hquiet _ _ hanswer) hserved).tail
    (hquiet _ (.resume (.cancel 0)) trivial) (resume_call hresume)

theorem cancel_marks {offerHex : String}
    (h : cancelOffer L serverPubkey offerHex none = .selecting none)
    (hmark : ok (single swap ⟨.savingMark swap.id (swap.merge cancelling), none⟩ ⟨.idle, none⟩ [])
      (.serve (.cancel 0) (.saved (.ok ())))) :
    Run (step L serverPubkey) ok ⟨[swap], [], ⟨.idle, none⟩, [], []⟩
      (single (swap.merge cancelling) ⟨.savingMark swap.id (swap.merge cancelling),
        some (.saved (.ok ()))⟩ ⟨.idle, none⟩
        [.wrote (.cancel 0) (some swap) (swap.merge cancelling)]) := by
  have hstart : step L serverPubkey ⟨[swap], [], ⟨.idle, none⟩, [], []⟩
      (.cancelOffer serverPubkey offerHex none) =
        some (single swap ⟨.selecting none, none⟩ ⟨.idle, none⟩ []) := by
    simp [step, h, single]
  have hlisted : (CancelPhase.checking swap.id).resume (.swaps (.ok [swap])) =
      some (.marking swap.id) := by
    simp [CancelPhase.resume]
  have hmarking : (CancelPhase.marking swap.id).resume (.swaps (.ok [swap])) =
      some (.savingMark swap.id (swap.merge cancelling)) := by
    simp [CancelPhase.resume, updatedIn_singleton]
  have hselected := (Run.refl _).tail (hquiet _ (.cancelOffer _ _ _) trivial) hstart
  have hchecked := hselected.trans (asks hquiet (.utxos (.ok [⟨swap.id, 0⟩])) trivial rfl rfl rfl rfl)
  have hread := hchecked.trans
    (asks hquiet (.swaps (.ok [swap])) trivial rfl (serveStore_list swap) rfl hlisted)
  have hmarked := hread.trans
    (asks hquiet (.swaps (.ok [swap])) trivial rfl (serveStore_list swap) rfl hmarking)
  exact hmarked.trans (saves rfl rfl rfl hmark)

theorem cancel_records (txid : String)
    (hsent : ok (single swap ⟨.sending swap.id true, none⟩ ⟨.idle, none⟩ log)
      (.serve (.cancel 0) (.sent (.ok txid))))
    (hrecord : ok (single swap ⟨.savingOutcome swap.id txid (swap.merge (cancelledBy txid)), none⟩
      ⟨.idle, none⟩ (.submitted swap.id txid :: log)) (.serve (.cancel 0) (.saved (.ok ())))) :
    Run (step L serverPubkey) ok
      (single swap ⟨.savingMark swap.id swap, some (.saved (.ok ()))⟩ ⟨.idle, none⟩ log)
      (single (swap.merge (cancelledBy txid)) ⟨.savingOutcome swap.id txid
        (swap.merge (cancelledBy txid)), some (.saved (.ok ()))⟩ ⟨.idle, none⟩
        (.wrote (.cancel 0) (some swap) (swap.merge (cancelledBy txid)) ::
          .submitted swap.id txid :: log)) := by
  have hmarked : step L serverPubkey
      (single swap ⟨.savingMark swap.id swap, some (.saved (.ok ()))⟩ ⟨.idle, none⟩ log)
      (.resume (.cancel 0)) =
        some (single swap ⟨.sending swap.id true, none⟩ ⟨.idle, none⟩ log) := resume_call rfl
  have hsubmitted : step L serverPubkey
      (single swap ⟨.sending swap.id true, none⟩ ⟨.idle, none⟩ log)
      (.serve (.cancel 0) (.sent (.ok txid))) =
        some (single swap ⟨.sending swap.id true, some (.sent (.ok txid))⟩ ⟨.idle, none⟩
          (.submitted swap.id txid :: log)) := by
    rw [serve_call rfl rfl]
    rfl
  have hsent' : (CancelPhase.sending swap.id true).resume (.sent (.ok txid)) =
      some (.recording swap.id txid) := rfl
  have hrecording : (CancelPhase.recording swap.id txid).resume (.swaps (.ok [swap])) =
      some (.savingOutcome swap.id txid (swap.merge (cancelledBy txid))) := by
    simp [CancelPhase.resume, updatedIn_singleton]
  have hsending := (Run.refl _).tail (hquiet _ (.resume (.cancel 0)) trivial) hmarked
  have hread := (hsending.tail hsent hsubmitted).tail
    (hquiet _ (.resume (.cancel 0)) trivial) (resume_call hsent')
  have hsaving := hread.trans
    (asks hquiet (.swaps (.ok [swap])) trivial rfl (serveStore_list swap) rfl hrecording)
  exact hsaving.trans (saves rfl rfl rfl hrecord)

end Quiet

end Late

theorem cancelOffer_sample :
    cancelOffer sampleLibraries sampleKey (base16.encode samplePayload) none = .selecting none := by
  have h : (Offer.decodeOffer samplePayload).toOption.any (fun offer ↦
      (offerLeaves sampleLibraries offer sampleKey).isSome) = true := by decide +kernel
  rw [cancelOffer, base16.decode_encode]
  cases hoffer : Offer.decodeOffer samplePayload with
  | error error => simp [hoffer, Except.toOption] at h
  | ok offer =>
    simp only [hoffer, Except.toOption, Option.any_some] at h
    obtain ⟨leaves, hleaves⟩ := Option.isSome_iff_exists.mp h
    simp only [hoffer, hleaves]

theorem initial_of_swap {swap : AssetSwap} (h : ¬Resolved swap → swap.spentTxid = none) :
    Initial ⟨[swap], [], ⟨.idle, none⟩, [], []⟩ := by
  refine ⟨by simp, fun r hr ↦ ?_, rfl, rfl, rfl⟩
  obtain rfl := List.mem_singleton.mp hr
  exact h

def fulfilledSwap : AssetSwap := { sampleSwap with status := .fulfilled, spentTxid := some "f2" }

/-- An offer that was filled is marked as being cancelled. -/
theorem cancelOffer_reopens : ∃ s s' newer older party before after, Initial s ∧
    Run (step sampleLibraries sampleKey) (fun _ _ ↦ True) s s' ∧
    s'.log = newer ++ .wrote party before after :: older ∧ ¬Keeps before after := by
  have hrun : Run (step sampleLibraries sampleKey) (fun _ _ ↦ True)
      ⟨[fulfilledSwap], [], ⟨.idle, none⟩, [], []⟩ _ :=
    cancel_marks (fun _ _ _ ↦ trivial) cancelOffer_sample trivial
  refine ⟨_, _, [], [], _, _, _, initial_of_swap fun h ↦ absurd ?_ h, hrun, rfl, fun hkeeps ↦ ?_⟩
  · unfold Resolved
    decide
  · have hstatus := (hkeeps fulfilledSwap rfl (by unfold Resolved; decide)).1
    cases hstatus

/-- An offer that is cancelled while nothing else moves is recorded as this wallet cancelled it. -/
theorem cancelOffer_recorded : ∃ s s' older, Initial s ∧
    Run (step sampleLibraries sampleKey)
      (Meets sampleLibraries sampleKey fun _ ↦ some (.cancelled, "c1")) s s' ∧
    s'.log = .wrote (.cancel 0) (some (sampleSwap.merge cancelling))
      ((sampleSwap.merge cancelling).merge (cancelledBy "c1")) :: older ∧
    Evidence sampleLibraries sampleKey older sampleSwap.id (some "c1") := by
  have hquiet : ∀ s i, Quiet i →
      Meets sampleLibraries sampleKey (fun _ ↦ some (.cancelled, "c1")) s i := by
    intro s i hi
    unfold Meets
    split
    · exact hi.elim
    · exact hi.elim
    · exact hi.elim
    · trivial
  have hpending : ∀ swap, swap.status = .pending ∨ swap.status = .cancelling → ¬Resolved swap := by
    intro swap h
    unfold Resolved
    rcases h with h | h <;> simp [h, TERMINAL]
  have hmarked := cancel_marks hquiet cancelOffer_sample
    (fun swapId updated answer _ swap hswap _ ↦ by
      obtain rfl : swap = sampleSwap := List.mem_singleton.mp hswap
      exact hpending _ (.inl rfl))
  have hinitial : Initial ⟨[sampleSwap], [], ⟨.idle, none⟩, [], []⟩ := initial_of_swap fun _ ↦ rfl
  have hrun := hmarked.trans (cancel_records hquiet "c1" (fun _ _ _ ↦ rfl) (by
      intro swapId updated answer hcall
      cases hcall))
  have hevidence := (resolved_never_regresses hinitial hrun (List.nil_append _).symm).2 rfl
  exact ⟨_, _, _, hinitial, hrun, rfl, hevidence⟩

end ArkadeSdk.OfferStatus
