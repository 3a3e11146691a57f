import ArkadeSdk.Boltz.SwapManager
import ArkadeSdk.Lib.LabelledRun

/-! When a status that comes while a swap is locked is acted on all the same. -/

namespace ArkadeSdk.SwapManager.Lock

open LabelledRun

/-- Whether the last status of an object came while its swap was locked. A stop ends the matter, as
does a removal. -/
def cameLocked : List Entry → Ref → SwapId → Bool
  | [], _, _ => false
  | .updated ref' _ _ locked :: log, ref, id => if ref' = ref then locked else cameLocked log ref id
  | .unknown ref' _ :: log, ref, id => ref' ≠ ref && cameLocked log ref id
  | .removed id' :: log, ref, id => id' ≠ id && cameLocked log ref id
  | .stopped :: _, _, _ => false
  | _ :: log, ref, id => cameLocked log ref id

def startedSince : List Entry → Ref → List Callback
  | [], _ => []
  | .updated ref' _ _ _ :: log, ref | .unknown ref' _ :: log, ref =>
    if ref' = ref then [] else startedSince log ref
  | .started _ ref' callback :: log, ref =>
    if ref' = ref then callback :: startedSince log ref else startedSince log ref
  | _ :: log, ref => startedSince log ref

/-- The last status of an object came under the lock, and what it calls for was not started. -/
def Due (config : Config) (s : State) (ref : Ref) : Prop :=
  ∃ swap callback, s.swap? ref = some swap ∧ cameLocked s.log ref swap.id = true ∧
    autonomousAction config swap = some callback ∧ callback ∉ startedSince s.log ref

def Armed (s : State) (ref : Ref) : Prop :=
  ∃ swap, s.swap? ref = some swap ∧ (JsMap.get s.refundRetryTimers swap.id).isSome = true

/-- What leads to an action or a timer when it goes on well: the save of an update, a claim that a
signature follows, and a refund that may be deferred. -/
def picksUp (config : Config) (swap : BoltzSwap) : Phase → Bool
  | .saving _ => true
  | .calling .claimArk _ => (signing config swap).isSome
  | .calling .refund _ | .calling .refundArk _ | .scheduling _ _ _ _ => true
  | _ => false

/-- A task other than `k`, if it is one, will look after an object. -/
def PickedUp (config : Config) (s : State) (k : Option ℕ) (ref : Ref) : Prop :=
  ∃ j task swap, k ≠ some j ∧ s.tasks[j]? = some task ∧ task.ref = ref ∧
    s.swap? ref = some swap ∧ picksUp config swap task.phase = true

def Served (config : Config) (s : State) (k : Option ℕ) (ref : Ref) : Prop :=
  Due config s ref → Armed s ref ∨ PickedUp config s k ref

/-- A callback that leads on to a signature or a retry. -/
def carriesOn (config : Config) (swap : BoltzSwap) : Callback → Outcome → Bool
  | .claimArk, .resolves _ _ _ => (signing config swap).isSome
  | .refund, .resolves _ skipped _ | .refundArk, .resolves _ skipped _ => 0 < skipped
  | .refundArk, .rejects => true
  | _, _ => false

def TaskCondition (config : Config) (s : State) (k : ℕ) (task : Task) (swap : BoltzSwap) :
    Phase → Answer → Prop
  | .saving _, .saved ok _ => ok = false ∨ swap.id ∈ s.swapsInProgress →
      Served config s (some k) task.ref
  | .calling callback _, .called outcome _ => carriesOn config swap callback outcome = false →
      Served config s (some k) task.ref
  | .scheduling callback _ again _, .saved ok _ => ok = false →
      ¬(callback = .refundArk ∧ again = false) → Served config s (some k) task.ref
  | .returned ran, .goesOn _ => task.caller = .update → ran = false → swap.isFinalStatus = true →
      JsMap.get s.refundRetryTimers swap.id = none → JsMap.get s.monitoredSwaps swap.id = none
  | _, _ => True

/-- The last task that could look after a status which came under the lock goes on well, the timer
that it rests on finds the lock free, and an update that was skipped is not the one that finds its
swap final. -/
def Condition (config : Config) (s : State) : Input → Prop
  | .refundRetry id => ∀ ref, s.idOf ref = some id → Due config s ref →
      PickedUp config s none ref ∨
        s.isRunning = true ∧ JsMap.get s.monitoredSwaps id = some ref ∧ id ∉ s.swapsInProgress
  | .task k answer => ∀ task swap, s.tasks[k]? = some task → s.swap? task.ref = some swap →
      TaskCondition config s k task swap task.phase answer
  | _ => True

structure Inv (config : Config) (s : State) : Prop where
  served : ∀ ref, Served config s none ref
  known : ∀ ref id, cameLocked s.log ref id = true → (s.swap? ref).isSome = true
  ran : ∀ id ref, Entry.completed id ref false ∉ s.log

def core (swap : BoltzSwap) : SwapId × SwapKind × BoltzSwapStatus :=
  (swap.id, swap.kind, swap.status)

variable {config : Config} {s t u : State} {ref : Ref} {k : ℕ} {id : SwapId} {swap : BoltzSwap}
  {callback : Callback} {task : Task} {phase : Phase} {caller : Caller}

theorem autonomousAction_congr {swap swap' : BoltzSwap} (h : core swap = core swap') :
    autonomousAction config swap = autonomousAction config swap' := by
  obtain ⟨_, kind, status, _, _⟩ := swap
  obtain ⟨_, kind', status', _, _⟩ := swap'
  obtain ⟨-, rfl, rfl⟩ := by simpa [core] using h
  rfl

theorem signing_congr {swap swap' : BoltzSwap} (h : core swap = core swap') :
    signing config swap = signing config swap' := by
  obtain ⟨_, kind, status, _, _⟩ := swap
  obtain ⟨_, kind', status', _, _⟩ := swap'
  obtain ⟨-, rfl, rfl⟩ := by simpa [core] using h
  rfl

theorem picksUp_congr {swap swap' : BoltzSwap} (h : core swap = core swap') :
    picksUp config swap phase = picksUp config swap' phase := by
  unfold picksUp
  rw [signing_congr h]

theorem autonomousAction_of_signing (h : signing config swap = some callback) :
    autonomousAction config swap = some callback := by
  obtain ⟨id, kind, status, retry, txid⟩ := swap
  cases kind with
  | reverse | submarine => cases h
  | chain source target =>
    cases target with
    | btc => cases h
    | ark =>
      have hstatus : status = .transactionClaimPending := by
        by_contra hne
        simp [signing, isChainSignableStatus, hne] at h
      subst hstatus
      exact h

/-- An entry that changes nothing of what is due, unless it is the start of a callback. -/
def Calm : Entry → Prop
  | .updated _ _ _ _ | .unknown _ _ | .removed _ | .stopped | .completed _ _ false => False
  | _ => True

/-- Only task `k` stops looking after a swap, and no status changes. -/
structure Frame (k : ℕ) (s t : State) : Prop where
  cores : ∀ ref, (t.swap? ref).map core = (s.swap? ref).map core
  timers : ∀ id, (JsMap.get s.refundRetryTimers id).isSome = true →
    (JsMap.get t.refundRetryTimers id).isSome = true
  tasks : ∀ (j : ℕ) task, j ≠ k → s.tasks[j]? = some task → t.tasks[j]? = some task
  log : ∃ entries, (∀ e ∈ entries, Calm e) ∧ t.log = entries ++ s.log

theorem cameLocked_calm {entries log : List Entry} (h : ∀ e ∈ entries, Calm e) :
    cameLocked (entries ++ log) ref id = cameLocked log ref id := by
  induction entries with
  | nil => rfl
  | cons e entries ih =>
    obtain ⟨he, hentries⟩ := List.forall_mem_cons.mp h
    rw [← ih hentries]
    cases e with
    | updated | unknown | removed | stopped => exact he.elim
    | _ => rfl

theorem startedSince_calm {entries log : List Entry} (h : ∀ e ∈ entries, Calm e)
    (hmem : callback ∈ startedSince log ref) : callback ∈ startedSince (entries ++ log) ref := by
  induction entries with
  | nil => exact hmem
  | cons e entries ih =>
    obtain ⟨he, hentries⟩ := List.forall_mem_cons.mp h
    have ih := ih hentries
    cases e with
    | updated | unknown => exact he.elim
    | started id ref' callback' =>
      show callback ∈ if ref' = ref then _ else _
      split
      · exact List.mem_cons_of_mem _ ih
      · exact ih
    | _ => exact ih

namespace Frame

theorem refl (k : ℕ) (s : State) : Frame k s s where
  cores _ := rfl
  timers _ := id
  tasks _ _ _ := id
  log := ⟨[], fun _ he ↦ absurd he List.not_mem_nil, rfl⟩

theorem trans (h : Frame k s t) (h' : Frame k t u) : Frame k s u where
  cores ref := (h'.cores ref).trans (h.cores ref)
  timers id hid := h'.timers id (h.timers id hid)
  tasks j task hj htask := h'.tasks j task hj (h.tasks j task hj htask)
  log := by
    obtain ⟨entries, hentries, hlog⟩ := h.log
    obtain ⟨entries', hentries', hlog'⟩ := h'.log
    refine ⟨entries' ++ entries, ?_, by rw [hlog', hlog, List.append_assoc]⟩
    intro e he
    rcases List.mem_append.mp he with he | he
    · exact hentries' e he
    · exact hentries e he

theorem same (h : Frame k s t) (hobjects : u.objects = t.objects)
    (htimers : u.refundRetryTimers = t.refundRetryTimers) (htasks : u.tasks = t.tasks)
    (hlog : u.log = t.log) : Frame k s u where
  cores := by
    simp only [State.swap?, hobjects]
    exact h.cores
  timers := by
    rw [htimers]
    exact h.timers
  tasks := by
    rw [htasks]
    exact h.tasks
  log := by
    rw [hlog]
    exact h.log

theorem with_poll_timers (h : Frame k s t) (pollRetryTimers : JsMap.Entries SwapId Ref) :
    Frame k s { t with pollRetryTimers := pollRetryTimers } := h.same rfl rfl rfl rfl

theorem with_counts (h : Frame k s t) (notFoundCounts : JsMap.Entries SwapId ℕ) :
    Frame k s { t with notFoundCounts := notFoundCounts } := h.same rfl rfl rfl rfl

theorem add (h : Frame k s t) {e : Entry} (he : Calm e) : Frame k s (t.add e) where
  cores := h.cores
  timers := h.timers
  tasks := h.tasks
  log := by
    obtain ⟨entries, hentries, hlog⟩ := h.log
    exact ⟨e :: entries, List.forall_mem_cons.mpr ⟨he, hentries⟩, congrArg _ hlog⟩

theorem enter (h : Frame k s t) : Frame k s (t.enter k phase) where
  cores := h.cores
  timers := h.timers
  tasks j task hj htask := by
    have hne : ¬k = j := fun hk ↦ hj hk.symm
    simp only [State.enter, List.getElem?_modify, if_neg hne]
    rw [h.tasks j task hj htask]
    rfl
  log := h.log

theorem spawn (h : Frame k s t) : Frame k s (t.spawn ref caller phase) where
  cores := h.cores
  timers := h.timers
  tasks j task hj htask := by
    have ht := h.tasks j task hj htask
    exact (List.getElem?_append_left (List.getElem?_eq_some_iff.mp ht).1).trans ht
  log := h.log

theorem turn (h : Frame k s t) (task : Task) :
    Frame k s { t with tasks := t.tasks.set k task } where
  cores := h.cores
  timers := h.timers
  tasks j task' hj htask :=
    (List.getElem?_set_ne fun hk ↦ hj hk.symm).trans (h.tasks j task' hj htask)
  log := h.log

theorem modify (h : Frame k s t) {f : BoltzSwap → BoltzSwap}
    (hf : ∀ swap, core (f swap) = core swap) : Frame k s (t.modify ref f) where
  cores ref' := by
    rw [← h.cores ref', State.swap?_modify, Option.map_map]
    congr 1
    funext swap
    simp only [Function.comp_apply]
    split
    · exact hf swap
    · rfl
  timers := h.timers
  tasks := h.tasks
  log := h.log

theorem arm (h : Frame k s t) (delayMs : ℤ) : Frame k s (t.armRefundRetryTimer id delayMs) where
  cores := h.cores
  timers id' hid := by
    simp only [State.armRefundRetryTimer, JsMap.get_set]
    split
    · rfl
    · exact h.timers id' hid
  tasks := h.tasks
  log := h.log

theorem finish (h : Frame k s t) : Frame k s (t.finish k id) :=
  Frame.enter (h.same rfl rfl rfl rfl)

theorem call (h : Frame k s t) : Frame k s (t.call k ref id callback) := by
  have hs : Frame k s (t.add (.started id ref callback)) := h.add trivial
  cases callback with
  | claimArk | claimBtc =>
    apply Frame.enter
    exact hs.same rfl rfl rfl rfl
  | claim | refund | refundArk | signServerClaim => exact hs.enter

theorem executeAutonomousAction (h : Frame k s t) :
    Frame k s (t.executeAutonomousAction config k ref swap) := by
  unfold State.executeAutonomousAction
  split
  · exact h.enter
  split
  · exact h.enter
  · exact Frame.call (h.same rfl rfl rfl rfl)

theorem modify_retry (h : Frame k s t) (retry : Option RefundRetryState) :
    Frame k s (t.modify ref fun swap ↦ { swap with refundRetry := retry }) :=
  h.modify fun _ ↦ rfl

theorem scheduleRefundRetry (h : Frame k s t) (delayMs now : ℤ) (again : Bool) :
    Frame k s (t.scheduleRefundRetry k ref swap callback delayMs now again) :=
  (h.modify_retry _).enter

theorem executedOr (h : Frame k s t) (thrown : Bool) :
    Frame k s (t.executedOr ref callback thrown) := by
  cases thrown with
  | false => exact h.add trivial
  | true => exact h.add trivial

theorem clearRefundRetry (h : Frame k s t) (thrown : Bool) :
    Frame k s (t.clearRefundRetry k ref swap callback thrown) := by
  unfold State.clearRefundRetry
  split
  · exact (h.executedOr thrown).finish
  · exact (h.modify_retry none).enter

theorem add_executed (h : Frame k s t) : Frame k s (t.add (.executed ref callback)) :=
  h.add trivial

theorem add_failed (h : Frame k s t) : Frame k s (t.add (.failed ref)) := h.add trivial

theorem claimed (h : Frame k s t) (ref : Ref) (callback : Callback) (promises : List ClaimPromise)
    (txid : String) :
    Frame k s (let t := { t with promises := promises }
      let t := if txid = "" then t else t.modify ref fun swap ↦ { swap with claimTxid := some txid }
      t.add (.executed ref callback)) := by
  have hs : Frame k s { t with promises := promises } := h.same rfl rfl rfl rfl
  apply add_executed
  split
  · exact hs
  · exact hs.modify fun _ ↦ rfl

theorem afterCall (h : Frame k s t) {promise : Option ℕ} {now : ℤ} (outcome : Outcome) :
    Frame k s (afterCall config t k ref swap callback promise now outcome) := by
  cases outcome with
  | resolves txid skipped retryAt =>
    have hrefund : Frame k s (let t := t.add (.refunded swap.id skipped)
        if 0 < skipped then
          t.scheduleRefundRetry k ref swap callback (refundRetryDelayMs retryAt now) now false
        else t.clearRefundRetry k ref swap callback false) := by
      have ht : Frame k s (t.add (.refunded swap.id skipped)) := h.add trivial
      dsimp only
      split
      · exact ht.scheduleRefundRetry _ _ _
      · exact ht.clearRefundRetry _
    cases callback with
    | claim | signServerClaim => exact h.add_executed.finish
    | refund | refundArk => exact hrefund
    | claimBtc => exact (h.claimed ref .claimBtc _ txid).finish
    | claimArk =>
      have hs := h.claimed ref .claimArk
        ((promise.map (t.promises.set · (.resolved txid))).getD t.promises) txid
      unfold SwapManager.afterCall
      dsimp only at hs ⊢
      split
      · exact hs.call
      · exact hs.finish
  | rejects =>
    have hthrew : Frame k s (t.add (.refundThrew swap.id callback)) := h.add trivial
    cases callback with
    | claim => exact h.add_failed.finish
    | signServerClaim => exact h.finish
    | claimArk | claimBtc =>
      apply Frame.finish
      apply Frame.add_failed
      exact h.same rfl rfl rfl rfl
    | refund => exact hthrew.clearRefundRetry _
    | refundArk => exact hthrew.add_failed.scheduleRefundRetry _ _ _

theorem saveFailed (h : Frame k s t) {again : Bool} {now : ℤ} :
    Frame k s (saveFailed t k ref swap callback again now) := by
  unfold SwapManager.saveFailed
  split
  · exact h.add_failed.scheduleRefundRetry _ _ _
  · exact h.add_failed.finish

theorem dropTimers (h : Frame k s t) (htimer : JsMap.get t.refundRetryTimers id = none) :
    Frame k s (t.dropTimers id) where
  cores := h.cores
  timers id' hid := by
    have ht := h.timers id' hid
    simp only [State.dropTimers, JsMap.get_erase]
    split
    · rename_i heq
      rw [← heq, htimer] at ht
      cases ht
    · exact ht
  tasks := h.tasks
  log := h.log

theorem finalizeMonitoredSwap (h : Frame k s t) {ran : Bool}
    (htimer : JsMap.get t.refundRetryTimers swap.id = none)
    (hran : JsMap.get t.monitoredSwaps swap.id ≠ none → ran = true) :
    Frame k s (t.finalizeMonitoredSwap ref swap ran) := by
  unfold State.finalizeMonitoredSwap
  split
  · exact h
  · rename_i hm
    obtain rfl : ran = true := hran (by simpa using hm)
    have hs : Frame k s (t.add (.unsubscribed swap.id)) := h.add trivial
    have hdropped : Frame k s ((t.add (.unsubscribed swap.id)).dropTimers swap.id) :=
      hs.dropTimers htimer
    have hcompleted : Frame k s (((t.add (.unsubscribed swap.id)).dropTimers swap.id).add
        (.completed swap.id ref true)) := hdropped.add trivial
    exact hcompleted.same rfl rfl rfl rfl

end Frame

theorem due_of_frame (hf : Frame k s t) (h : Due config t ref) : Due config s ref := by
  obtain ⟨swap, callback, hswap, hlocked, haction, hstarted⟩ := h
  have hcore := hf.cores ref
  rw [hswap] at hcore
  obtain ⟨old, hold, hcore⟩ := Option.map_eq_some_iff.mp hcore.symm
  obtain ⟨entries, hentries, hlog⟩ := hf.log
  rw [hlog, cameLocked_calm hentries] at hlocked
  refine ⟨old, callback, hold, ?_, (autonomousAction_congr hcore).trans haction, fun hmem ↦ ?_⟩
  · rw [show old.id = swap.id from congrArg Prod.fst hcore]
    exact hlocked
  · rw [hlog] at hstarted
    exact hstarted (startedSince_calm hentries hmem)

theorem armed_of_frame (hf : Frame k s t) (h : Armed s ref) : Armed t ref := by
  obtain ⟨swap, hswap, htimer⟩ := h
  have hcore := hf.cores ref
  rw [hswap] at hcore
  obtain ⟨new, hnew, hcore⟩ := Option.map_eq_some_iff.mp hcore
  refine ⟨new, hnew, hf.timers _ ?_⟩
  rw [show new.id = swap.id from congrArg Prod.fst hcore]
  exact htimer

theorem pickedUp_of_frame (hf : Frame k s t) (h : PickedUp config s (some k) ref) :
    PickedUp config t none ref := by
  obtain ⟨j, task, swap, hne, htask, href, hswap, hpicks⟩ := h
  have hcore := hf.cores ref
  rw [hswap] at hcore
  obtain ⟨new, hnew, hcore⟩ := Option.map_eq_some_iff.mp hcore
  refine ⟨j, task, new, nofun, hf.tasks j task (fun hj ↦ hne (congrArg some hj.symm)) htask, href,
    hnew, ?_⟩
  rw [picksUp_congr hcore]
  exact hpicks

theorem served_of_frame (hf : Frame k s t) (h : Served config s (some k) ref) :
    Served config t none ref := by
  intro hdue
  rcases h (due_of_frame hf hdue) with h | h
  · exact .inl (armed_of_frame hf h)
  · exact .inr (pickedUp_of_frame hf h)

theorem known_of_frame (hf : Frame k s t)
    (h : ∀ ref id, cameLocked s.log ref id = true → (s.swap? ref).isSome = true) (ref : Ref)
    (id : SwapId) (hlocked : cameLocked t.log ref id = true) : (t.swap? ref).isSome = true := by
  obtain ⟨entries, hentries, hlog⟩ := hf.log
  rw [hlog, cameLocked_calm hentries] at hlocked
  have hcore := congrArg Option.isSome (hf.cores ref)
  simp only [Option.isSome_map] at hcore
  rw [hcore]
  exact h ref id hlocked

theorem ran_of_frame (hf : Frame k s t) (h : ∀ id ref, Entry.completed id ref false ∉ s.log)
    (id : SwapId) (ref : Ref) : Entry.completed id ref false ∉ t.log := by
  intro hmem
  obtain ⟨entries, hentries, hlog⟩ := hf.log
  rw [hlog] at hmem
  rcases List.mem_append.mp hmem with hmem | hmem
  · exact hentries _ hmem
  · exact h id ref hmem

namespace Inv

/-- What task `k` does not look after, others do. -/
theorem elsewhere (h : Inv config s)
    (hk : ∀ task swap, s.tasks[k]? = some task → task.ref = ref → s.swap? ref = some swap →
      picksUp config swap task.phase = false) : Served config s (some k) ref := by
  intro hdue
  rcases h.served ref hdue with h | ⟨j, task, swap, -, htask, href, hswap, hpicks⟩
  · exact .inl h
  · refine .inr ⟨j, task, swap, ?_, htask, href, hswap, hpicks⟩
    intro hj
    obtain rfl := Option.some.inj hj
    rw [hk task swap htask href hswap] at hpicks
    cases hpicks

theorem of_frame (h : Inv config s) (hf : Frame k s t)
    (hserved : ∀ task swap, s.tasks[k]? = some task → s.swap? task.ref = some swap →
      picksUp config swap task.phase = true → Served config t none task.ref) : Inv config t where
  served ref := by
    by_cases hk : ∃ task swap, s.tasks[k]? = some task ∧ task.ref = ref ∧ s.swap? ref = some swap ∧
        picksUp config swap task.phase = true
    · obtain ⟨task, swap, htask, rfl, hswap, hpicks⟩ := hk
      exact hserved task swap htask hswap hpicks
    · apply served_of_frame hf
      apply h.elsewhere
      intro task swap htask href hswap
      by_contra hpicks
      exact hk ⟨task, swap, htask, href, hswap, by simpa using hpicks⟩
  known := known_of_frame hf h.known
  ran := ran_of_frame hf h.ran

theorem of_idle (h : Inv config s) (hf : Frame k s t) (hk : s.tasks[k]? = some task)
    (hidle : ∀ swap, picksUp config swap task.phase = false) : Inv config t :=
  h.of_frame hf fun task' swap hk' _ hpicks ↦ by
    obtain rfl := Option.some.inj (hk.symm.trans hk')
    rw [hidle swap] at hpicks
    cases hpicks

/-- A task that looks after its swap goes on, and what it leaves is looked after. -/
theorem of_task (h : Inv config s) (hf : Frame k s t) (hk : s.tasks[k]? = some task)
    (hserved : Served config t none task.ref) : Inv config t :=
  h.of_frame hf fun task' _ hk' _ _ ↦ by
    obtain rfl := Option.some.inj (hk.symm.trans hk')
    exact hserved

theorem of_length (h : Inv config s) (hf : Frame s.tasks.length s t) : Inv config t :=
  h.of_frame hf fun task _ hk ↦ by
    rw [List.getElem?_eq_none (Nat.le_refl _)] at hk
    cases hk

end Inv

theorem call_log : (s.call k ref id callback).log = .started id ref callback :: s.log := by
  cases callback <;> rfl

theorem call_objects : (s.call k ref id callback).objects = s.objects := by
  cases callback <;> rfl

theorem mem_startedSince (id : SwapId) (log : List Entry) :
    callback ∈ startedSince (.started id ref callback :: log) ref := by
  rw [startedSince, if_pos rfl]
  exact List.mem_cons_self

theorem served_of_call (hswap : s.swap? ref = some swap)
    (haction : autonomousAction config swap = some callback) :
    Served config (s.call k ref id callback) none ref := by
  rintro ⟨swap', callback', hswap', -, haction', hstarted⟩
  rw [State.swap?, call_objects] at hswap'
  obtain rfl := Option.some.inj (hswap.symm.trans hswap')
  obtain rfl := Option.some.inj (haction.symm.trans haction')
  rw [call_log] at hstarted
  exact absurd (mem_startedSince id s.log) hstarted

theorem served_of_executed (hswap : s.swap? ref = some swap)
    (hfree : swap.id ∉ s.swapsInProgress) :
    Served config (s.executeAutonomousAction config k ref swap) none ref := by
  unfold State.executeAutonomousAction
  rw [if_neg hfree]
  split
  · rename_i hnone
    rintro ⟨swap', callback, hswap', -, haction, -⟩
    obtain rfl := Option.some.inj (hswap.symm.trans hswap')
    rw [hnone] at haction
    cases haction
  · rename_i callback haction
    exact served_of_call (s := { s with swapsInProgress := swap.id :: s.swapsInProgress }) hswap
      haction

theorem served_of_signed {promise : Option ℕ} {now : ℤ} {txid : String} {skipped : ℕ}
    {retryAt : Option ℤ} (hswap : s.swap? ref = some swap)
    (hsign : (signing config swap).isSome = true) :
    Served config (afterCall config s k ref swap .claimArk promise now
      (.resolves txid skipped retryAt)) none ref := by
  obtain ⟨sign, hsign⟩ := Option.isSome_iff_exists.mp hsign
  have haction := autonomousAction_of_signing hsign
  unfold afterCall
  dsimp only
  rw [hsign]
  dsimp only
  split
  · exact served_of_call hswap haction
  · have hclaimed : autonomousAction config { swap with claimTxid := some txid } = some sign := by
      rw [← haction]
      exact autonomousAction_congr rfl
    exact served_of_call (State.swap?_modify_self hswap) hclaimed

theorem pickedUp_of_spawn (hswap : s.swap? ref = some swap)
    (hpicks : picksUp config swap phase = true) :
    PickedUp config (s.spawn ref caller phase) none ref :=
  ⟨s.tasks.length, ⟨ref, caller, phase⟩, swap, nofun, List.getElem?_concat_length, rfl, hswap,
    hpicks⟩

theorem pickedUp_of_schedule {now delayMs : ℤ} {again : Bool} {swap' : BoltzSwap}
    (hk : s.tasks[k]? = some task) (hswap : s.swap? task.ref = some swap') :
    PickedUp config (s.scheduleRefundRetry k task.ref swap callback delayMs now again) none
      task.ref :=
  ⟨k, _, _, nofun, State.tasks_enter_self hk, rfl, State.swap?_modify_self hswap, rfl⟩

theorem pickedUp_spawn (h : PickedUp config s none ref) (ref' : Ref) :
    PickedUp config (s.spawn ref' caller phase) none ref := by
  obtain ⟨j, task, swap, -, htask, href, hswap, hpicks⟩ := h
  refine ⟨j, task, swap, nofun, ?_, href, hswap, hpicks⟩
  exact (List.getElem?_append_left (List.getElem?_eq_some_iff.mp htask).1).trans htask

def Others (e : Entry) (ref : Ref) : Prop :=
  ∀ (log : List Entry) (ref' : Ref), ref ≠ ref' → (∀ id, cameLocked (e :: log) ref' id =
    cameLocked log ref' id) ∧ startedSince (e :: log) ref' = startedSince log ref'

theorem served_of_other {ref' : Ref} {f : BoltzSwap → BoltzSwap} {e : Entry} (hne : ref ≠ ref')
    (he : Others e ref) (h : Served config s none ref') :
    Served config ((s.modify ref f).add e) none ref' := by
  obtain ⟨hlocked, hstarted⟩ := he s.log ref' hne
  have hsame : ((s.modify ref f).add e).swap? ref' = s.swap? ref' := State.swap?_modify_ne hne
  rintro ⟨swap, callback, hswap, hl, haction, hs⟩
  rw [hsame] at hswap
  rcases h ⟨swap, callback, hswap, (hlocked _).symm.trans hl, haction, hstarted ▸ hs⟩ with
    ⟨swap', hswap', htimer⟩ | ⟨j, task, swap', hj, htask, href, hswap', hpicks⟩
  · exact .inl ⟨swap', hsame.trans hswap', htimer⟩
  · exact .inr ⟨j, task, swap', hj, htask, href, hsame.trans hswap', hpicks⟩

namespace Inv

theorem counted (h : Inv config s) (notFoundCounts : JsMap.Entries SwapId ℕ) :
    Inv config { s with notFoundCounts := notFoundCounts } :=
  h.of_length ((Frame.refl _ s).with_counts _)

theorem modified {f : BoltzSwap → BoltzSwap} {e : Entry} (h : Inv config s)
    (hswap : s.swap? ref = some swap) (he : Others e ref)
    (hran : ∀ id ref', e ≠ .completed id ref' false)
    (hself : Served config (((s.modify ref f).add e).spawn ref caller phase) none ref) :
    Inv config (((s.modify ref f).add e).spawn ref caller phase) where
  served ref' := by
    by_cases href : ref = ref'
    · exact href ▸ hself
    · intro hdue
      rcases served_of_other href he (h.served ref') hdue with harmed | hpicked
      · exact .inl harmed
      · exact .inr (pickedUp_spawn hpicked ref)
  known ref' id hlocked := by
    show ((s.modify ref f).swap? ref').isSome = true
    rw [State.swap?_modify, Option.isSome_map]
    by_cases href : ref = ref'
    · exact href ▸ Option.isSome_of_mem hswap
    · exact h.known ref' id (((he s.log ref' href).1 id).symm.trans hlocked)
  ran id ref' hmem := by
    rcases List.mem_cons.mp hmem with hmem | hmem
    · exact hran id ref' hmem.symm
    · exact h.ran id ref' hmem

theorem handleSwapStatusUpdate (h : Inv config s) (hswap : s.swap? ref = some swap)
    (newStatus : BoltzSwapStatus) : Inv config (s.handleSwapStatusUpdate ref swap newStatus) := by
  have hc := h.counted (JsMap.erase swap.id s.notFoundCounts)
  unfold State.handleSwapStatusUpdate
  dsimp only
  split
  · exact hc
  apply hc.modified hswap
  · exact fun _ _ hne ↦ ⟨fun _ ↦ if_neg hne, if_neg hne⟩
  · exact nofun
  · intro _
    exact .inr (pickedUp_of_spawn (State.swap?_modify_self hswap) rfl)

theorem markSwapAsUnknownToProvider (h : Inv config s) (hswap : s.swap? ref = some swap) :
    Inv config (s.markSwapAsUnknownToProvider ref swap) := by
  have hc := h.counted (JsMap.erase swap.id s.notFoundCounts)
  unfold State.markSwapAsUnknownToProvider
  dsimp only
  split
  · exact h
  rename_i htimer
  have htimer : JsMap.get s.refundRetryTimers swap.id = none := by simpa using htimer
  split
  · exact hc
  have hm : Inv config (((State.modify { s with
      notFoundCounts := JsMap.erase swap.id s.notFoundCounts } ref fun swap ↦ { swap with
        status := .swapExpired }).add (.unknown ref swap)).spawn ref .update
          (.forgetting { swap with status := .swapExpired })) := by
    apply hc.modified hswap
    · exact fun _ _ hne ↦ ⟨fun _ ↦ by simp [cameLocked, hne], if_neg hne⟩
    · intro _ _ hne
      cases hne
    · rintro ⟨_, _, _, hlocked, -⟩
      simp [State.add, State.spawn, cameLocked] at hlocked
  exact hm.of_length (Frame.dropTimers (.refl _ _) htimer)

theorem handleSwapNotFound (h : Inv config s) (hswap : s.swap? ref = some swap) :
    Inv config (s.handleSwapNotFound ref swap) := by
  unfold State.handleSwapNotFound
  dsimp only
  split
  · exact h
  split
  · exact (h.counted _).markSwapAsUnknownToProvider hswap
  · exact h.counted _

theorem afterAction {ran : Bool} (h : Inv config s) (hk : s.tasks[k]? = some task)
    (hphase : task.phase = .returned ran)
    (hok : task.caller = .update → ran = false → swap.isFinalStatus = true →
      JsMap.get s.refundRetryTimers swap.id = none → JsMap.get s.monitoredSwaps swap.id = none) :
    Inv config (afterAction s k task.ref swap ran task.caller) := by
  have hidle : ∀ swap, picksUp config swap task.phase = false := fun swap ↦ by
    rw [hphase]
    rfl
  apply h.of_idle _ hk hidle
  have hf : Frame k s (s.enter k .ended) := (Frame.refl k s).enter
  cases hcaller : task.caller with
  | resume => exact (Frame.refl k s).enter
  | update =>
    unfold SwapManager.afterAction
    dsimp only
    split
    · rename_i hdrop
      obtain ⟨hfin, htimer⟩ := (Bool.and_eq_true _ _).mp hdrop
      have htimer := Option.isNone_iff_eq_none.mp htimer
      apply hf.finalizeMonitoredSwap htimer
      intro hm
      by_contra hran
      exact hm (hok hcaller (Bool.eq_false_iff.mpr hran) hfin htimer)
    · exact hf
  | retry =>
    unfold SwapManager.afterAction
    dsimp only
    split
    · rename_i hdrop
      obtain ⟨hran, htimer⟩ := (Bool.and_eq_true _ _).mp hdrop
      exact hf.finalizeMonitoredSwap (Option.isNone_iff_eq_none.mp htimer) fun _ ↦
        ((Bool.and_eq_true _ _).mp hran).1
    · exact hf

theorem resumed (hf : Frame k s t) (now : ℤ) : Frame k s (resumePersistedRefundRetries t now) := by
  apply List.foldlRecOn
  · exact hf
  · intro u hu e _
    split
    · exact hu
    split
    · split
      · exact hu
      · exact hu.arm _
    · exact hu

theorem startStep {answer : Answer} (h : Inv config s) (hk : s.tasks[k]? = some task)
    (ht : startStep config s k task.phase answer = some t) : Inv config t := by
  have hidle : ∀ swap, picksUp config swap task.phase = false := by
    intro swap
    cases hphase : task.phase with
    | connecting | resuming => rfl
    | _ => rw [hphase] at ht; cases answer <;> cases ht
  apply h.of_idle _ hk hidle
  unfold SwapManager.startStep at ht
  split at ht
  · obtain rfl := Option.some.inj ht
    split
    · exact (resumed (.refl k s) _).enter
    · exact (Frame.refl k s).enter
  · obtain rfl := Option.some.inj ht
    exact (Frame.refl k s).enter
  · obtain ⟨ref, href, ht⟩ := Option.bind_eq_some_iff.mp ht
    obtain ⟨swap, hswap, ht⟩ := Option.bind_eq_some_iff.mp ht
    split at ht
    · obtain rfl := Option.some.inj ht
      exact .refl k s
    · obtain rfl := Option.some.inj ht
      exact ((Frame.refl k s).turn _).executeAutonomousAction
  · cases ht

/-- A task that does not look after its swap goes on to one that may. -/
theorem polled {poll : Poll} {again : Bool} (h : Inv config s) (hk : s.tasks[k]? = some task)
    (hphase : task.phase = .polling again) (hswap : s.swap? task.ref = some swap)
    (ht : taskStep config s k task swap (.polling again) (.polled poll) = some t) :
    Inv config t := by
  have hidle : ∀ swap, picksUp config swap task.phase = false := fun swap ↦ by
    rw [hphase]
    rfl
  have hended : Inv config (s.enter k .ended) := h.of_idle (Frame.refl k s).enter hk hidle
  cases poll with
  | found status =>
    obtain rfl := Option.some.inj ht
    exact (hended.counted _).handleSwapStatusUpdate hswap status
  | notFound =>
    obtain rfl := Option.some.inj ht
    exact hended.handleSwapNotFound hswap
  | rateLimited =>
    obtain rfl := Option.some.inj ht
    split
    · exact hended
    · exact h.of_idle ((Frame.refl k s).with_poll_timers _).enter hk hidle
  | fails =>
    obtain rfl := Option.some.inj ht
    exact hended

/-- The save of an update ends: what is due is begun, unless the swap is locked. -/
theorem saved {copy : BoltzSwap} {ok : Bool} {now : ℤ} (h : Inv config s)
    (hauto : config.enableAutoActions = true) (hk : s.tasks[k]? = some task)
    (hswap : s.swap? task.ref = some swap)
    (hok : TaskCondition config s k task swap (.saving copy) (.saved ok now))
    (ht : taskStep config s k task swap (.saving copy) (.saved ok now) = some t) :
    Inv config t := by
  obtain rfl := Option.some.inj ht
  split
  · rename_i hfailed
    have hf : Frame k s (s.enter k .ended) := (Frame.refl k s).enter
    exact h.of_task hf hk (served_of_frame hf (hok (.inl hfailed)))
  · have hf : Frame k s ((s.add (.saved task.ref copy)).executeAutonomousAction config k task.ref
        swap) := Frame.executeAutonomousAction ((Frame.refl k s).add trivial)
    apply h.of_task hf hk
    by_cases hlock : swap.id ∈ s.swapsInProgress
    · exact served_of_frame hf (hok (.inr hlock))
    · exact served_of_executed (s := s.add (.saved task.ref copy)) hswap hlock

theorem called {promise : Option ℕ} {outcome : Outcome} {now : ℤ} (h : Inv config s)
    (hk : s.tasks[k]? = some task) (hphase : task.phase = .calling callback promise)
    (hswap : s.swap? task.ref = some swap)
    (hok : carriesOn config swap callback outcome = false → Served config s (some k) task.ref) :
    Inv config (afterCall config s k task.ref swap callback promise now outcome) := by
  have hf : Frame k s (afterCall config s k task.ref swap callback promise now outcome) :=
    (Frame.refl k s).afterCall outcome
  apply h.of_task hf hk
  by_cases hon : carriesOn config swap callback outcome = true
  · cases outcome with
    | rejects =>
      cases callback with
      | refundArk => exact fun _ ↦ .inr (pickedUp_of_schedule hk hswap)
      | _ => cases hon
    | resolves txid skipped retryAt =>
      have hrefund : 0 < skipped → Served config (let s := s.add (.refunded swap.id skipped)
          if 0 < skipped then s.scheduleRefundRetry k task.ref swap callback
            (refundRetryDelayMs retryAt now) now false
          else s.clearRefundRetry k task.ref swap callback false) none task.ref := by
        intro hskipped
        dsimp only
        rw [if_pos hskipped]
        exact fun _ ↦ .inr (pickedUp_of_schedule hk hswap)
      cases callback with
      | claim | signServerClaim | claimBtc => cases hon
      | refund => exact hrefund (of_decide_eq_true hon)
      | refundArk => exact hrefund (of_decide_eq_true hon)
      | claimArk => exact served_of_signed hswap hon
  · exact served_of_frame hf (hok (by simpa using hon))

theorem taskStep {answer : Answer} (h : Inv config s) (hauto : config.enableAutoActions = true)
    (hk : s.tasks[k]? = some task) (hswap : s.swap? task.ref = some swap)
    (hok : TaskCondition config s k task swap task.phase answer)
    (ht : taskStep config s k task swap task.phase answer = some t) : Inv config t := by
  cases hphase : task.phase with
  | connecting | resuming | ended => rw [hphase] at ht; cases answer <;> cases ht
  | polling again =>
    rw [hphase] at ht
    cases answer with
    | polled poll => exact h.polled hk hphase hswap ht
    | saved | called | goesOn | next => cases ht
  | saving copy =>
    rw [hphase] at ht hok
    cases answer with
    | saved ok now => exact h.saved hauto hk hswap hok ht
    | polled | called | goesOn | next => cases ht
  | calling callback promise =>
    rw [hphase] at ht hok
    cases answer with
    | called outcome now =>
      obtain rfl := Option.some.inj ht
      exact h.called hk hphase hswap hok
    | polled | saved | goesOn | next => cases ht
  | scheduling callback delayMs again copy =>
    rw [hphase] at ht hok
    cases answer with
    | saved ok now =>
      obtain rfl := Option.some.inj ht
      split
      · have hs : Frame k s (s.add (.saved task.ref copy)) := (Frame.refl k s).add trivial
        have htimer : (JsMap.get (JsMap.set swap.id delayMs s.refundRetryTimers) swap.id).isSome =
            true := by
          rw [JsMap.get_set, if_pos rfl]
          rfl
        dsimp only
        split
        · exact h.of_task (hs.arm delayMs).finish hk fun _ ↦ .inl ⟨swap, hswap, htimer⟩
        · exact h.of_task (hs.arm delayMs).add_executed.finish hk fun _ ↦
            .inl ⟨swap, hswap, htimer⟩
      · rename_i hfailed
        have hf : Frame k s (saveFailed s k task.ref swap callback again now) :=
          (Frame.refl k s).saveFailed
        apply h.of_task hf hk
        by_cases hagain : callback = .refundArk ∧ again = false
        · unfold SwapManager.saveFailed
          rw [if_pos hagain]
          exact fun _ ↦ .inr (pickedUp_of_schedule hk hswap)
        · exact served_of_frame hf (hok (by simpa using hfailed) hagain)
    | polled | called | goesOn | next => cases ht
  | clearing callback thrown copy =>
    have hidle : ∀ swap, picksUp config swap task.phase = false := fun swap ↦ by
      rw [hphase]
      rfl
    rw [hphase] at ht hok
    cases answer with
    | saved ok now =>
      obtain rfl := Option.some.inj ht
      apply h.of_idle _ hk hidle
      have hf : Frame k s (s.add (.saved task.ref copy)) := (Frame.refl k s).add trivial
      split
      · exact (hf.executedOr thrown).finish
      · exact (Frame.refl k s).saveFailed
    | polled | called | goesOn | next => cases ht
  | returned ran =>
    rw [hphase] at ht hok
    cases answer with
    | goesOn now =>
      obtain rfl := Option.some.inj ht
      exact h.afterAction hk hphase hok
    | polled | saved | called | next => cases ht
  | removing copy =>
    have hidle : ∀ swap, picksUp config swap task.phase = false := fun swap ↦ by
      rw [hphase]
      rfl
    rw [hphase] at ht hok
    cases answer with
    | saved ok now =>
      obtain rfl := Option.some.inj ht
      apply h.of_idle _ hk hidle
      have hf : Frame k s (s.add (.saved task.ref copy)) := (Frame.refl k s).add trivial
      split
      · exact (hf.with_counts _).enter
      · exact (Frame.refl k s).enter
    | polled | called | goesOn | next => cases ht
  | forgetting copy =>
    have hidle : ∀ swap, picksUp config swap task.phase = false := fun swap ↦ by
      rw [hphase]
      rfl
    rw [hphase] at ht hok
    cases answer with
    | saved ok now =>
      obtain rfl := Option.some.inj ht
      apply h.of_idle _ hk hidle
      have hf : Frame k s (s.add (.saved task.ref copy)) := (Frame.refl k s).add trivial
      have hu : Frame k s (if ok = true then s.add (.saved task.ref copy) else s) := by
        split
        · exact hf
        · exact .refl k s
      have hfailed : Frame k s (((if ok = true then s.add (.saved task.ref copy) else s).add
          (.failed task.ref)).add (.unsubscribed swap.id)) := hu.add_failed.add trivial
      exact hfailed.enter
    | polled | called | goesOn | next => cases ht

theorem create (h : Inv config s) : Inv config { s with objects := s.objects ++ [swap] } := by
  have hold : ∀ {ref' swap'}, s.swap? ref' = some swap' →
      State.swap? { s with objects := s.objects ++ [swap] } ref' = some swap' := by
    intro ref' swap' hswap
    exact (List.getElem?_append_left (List.getElem?_eq_some_iff.mp hswap).1).trans hswap
  refine ⟨fun ref ↦ ?_, fun ref id hlocked ↦ ?_, h.ran⟩
  · rintro ⟨swap', callback, hswap, hlocked, haction, hstarted⟩
    obtain ⟨old, hswap'⟩ := Option.isSome_iff_exists.mp (h.known ref _ hlocked)
    obtain rfl := Option.some.inj ((hold hswap').symm.trans hswap)
    rcases h.served ref ⟨old, callback, hswap', hlocked, haction, hstarted⟩ with
      ⟨new, hnew, htimer⟩ | ⟨j, task, new, hj, htask, href, hnew, hpicks⟩
    · exact .inl ⟨new, hold hnew, htimer⟩
    · exact .inr ⟨j, task, new, hj, htask, href, hold hnew, hpicks⟩
  · obtain ⟨old, hswap'⟩ := Option.isSome_iff_exists.mp (h.known ref id hlocked)
    exact Option.isSome_of_mem (hold hswap')

theorem monitored (hf : Frame k s t) (ref : Ref) (swap : BoltzSwap) :
    Frame k s (monitor t ref swap) := by
  apply Frame.add
  · exact hf.same rfl rfl rfl rfl
  · trivial

theorem start {swaps : List (Ref × BoltzSwap)} (h : Inv config s) :
    Inv config (start config s swaps) := by
  apply h.of_length
  refine Frame.spawn (List.foldlRecOn _ _ ?_ ?_)
  · exact (Frame.refl _ s).same rfl rfl rfl rfl
  · exact fun t ht e _ ↦ monitored ht e.1 e.2

theorem stop (h : Inv config s) (hlog : t.log = .stopped :: s.log) : Inv config t where
  served ref := by
    rintro ⟨_, _, _, hlocked, -⟩
    rw [hlog] at hlocked
    cases hlocked
  known ref id hlocked := by
    rw [hlog] at hlocked
    cases hlocked
  ran id ref hmem := by
    rw [hlog] at hmem
    rcases List.mem_cons.mp hmem with hmem | hmem
    · cases hmem
    · exact h.ran id ref hmem

theorem dropped (h : Inv config s) (id : SwapId) :
    Inv config ((s.dropTimers id).add (.removed id)) where
  served ref := by
    rintro ⟨swap, callback, hswap, hlocked, haction, hstarted⟩
    obtain ⟨hne, hlocked⟩ := (Bool.and_eq_true _ _).mp hlocked
    have hne : id ≠ swap.id := of_decide_eq_true hne
    rcases h.served ref ⟨swap, callback, hswap, hlocked, haction, hstarted⟩ with
      ⟨swap', hswap', htimer⟩ | hpicked
    · obtain rfl := Option.some.inj (hswap'.symm.trans hswap)
      refine .inl ⟨swap', hswap', ?_⟩
      rw [← htimer]
      simp only [State.add, State.dropTimers, JsMap.get_erase, if_neg hne]
    · exact .inr hpicked
  known ref id' hlocked := h.known ref id' ((Bool.and_eq_true _ _).mp hlocked).2
  ran id' ref hmem := by
    rcases List.mem_cons.mp hmem with hmem | hmem
    · cases hmem
    · exact h.ran id' ref hmem

theorem removeSwap (h : Inv config s) (id : SwapId) : Inv config (removeSwap s id) := by
  have hunsubscribed : Inv config (s.add (.unsubscribed id)) :=
    h.of_length ((Frame.refl _ s).add trivial)
  have hd := hunsubscribed.dropped id
  have hf : ∀ chainClaimPromises notFoundCounts, Frame s.tasks.length
      (((s.add (.unsubscribed id)).dropTimers id).add (.removed id))
      { ((s.add (.unsubscribed id)).dropTimers id).add (.removed id) with
        chainClaimPromises := chainClaimPromises
        notFoundCounts := notFoundCounts } := fun _ _ ↦
    (Frame.refl _ _).same rfl rfl rfl rfl
  unfold SwapManager.removeSwap
  dsimp only
  split
  · exact hd.of_length (hf _ _)
  split
  · exact hd.of_length (hf _ _)
  split
  · exact hd.of_length ((hf _ s.notFoundCounts).modify_retry none).spawn
  · exact hd.of_length (hf _ _)

/-- A refund timer goes off: what rested on it is looked after otherwise, or begun. -/
theorem refundRetry (h : Inv config s)
    (hok : ∀ ref, s.idOf ref = some id → Due config s ref → PickedUp config s none ref ∨
      s.isRunning = true ∧ JsMap.get s.monitoredSwaps id = some ref ∧ id ∉ s.swapsInProgress)
    (ht : step config s (.refundRetry id) = some t) : Inv config t := by
  obtain ⟨_, -, ht⟩ := Option.bind_eq_some_iff.mp ht
  dsimp only at ht
  have hfired : ∀ ref, Due config s ref →
      Armed { s with refundRetryTimers := JsMap.erase id s.refundRetryTimers } ref ∨
        PickedUp config s none ref ∨
          s.idOf ref = some id ∧ s.isRunning = true ∧ JsMap.get s.monitoredSwaps id = some ref ∧
            id ∉ s.swapsInProgress := by
    intro ref hdue
    rcases h.served ref hdue with ⟨swap, hswap, htimer⟩ | hpicked
    · by_cases hid : id = swap.id
      · have hidOf : s.idOf ref = some id := hid ▸ State.idOf_of_swap? hswap
        exact .inr ((hok ref hidOf hdue).imp_right fun hfree ↦ ⟨hidOf, hfree⟩)
      · refine .inl ⟨swap, hswap, ?_⟩
        rw [← htimer]
        simp only [JsMap.get_erase, if_neg hid]
    · exact .inr (.inl hpicked)
  have hstays : (∀ ref, ¬(s.isRunning = true ∧ JsMap.get s.monitoredSwaps id = some ref)) →
      Inv config { s with refundRetryTimers := JsMap.erase id s.refundRetryTimers } := by
    intro hnot
    refine ⟨fun ref hdue ↦ ?_, h.known, h.ran⟩
    rcases hfired ref hdue with harmed | hpicked | ⟨-, hrunning, hmonitored, -⟩
    · exact .inl harmed
    · exact .inr hpicked
    · exact absurd ⟨hrunning, hmonitored⟩ (hnot ref)
  split at ht
  · rename_i hstopped
    obtain rfl := Option.some.inj ht
    apply hstays
    rintro ref ⟨hrunning, -⟩
    rw [hstopped] at hrunning
    cases hrunning
  split at ht
  · rename_i hnone
    obtain rfl := Option.some.inj ht
    apply hstays
    rintro ref ⟨-, hmonitored⟩
    rw [hnone] at hmonitored
    cases hmonitored
  · rename_i ref₀ href₀
    obtain ⟨swap₀, hswap₀, ht⟩ := Option.bind_eq_some_iff.mp ht
    obtain rfl := Option.some.inj ht
    have hf : Frame s.tasks.length
        { s with refundRetryTimers := JsMap.erase id s.refundRetryTimers }
        (State.executeAutonomousAction config
          (State.spawn { s with refundRetryTimers := JsMap.erase id s.refundRetryTimers } ref₀
            .retry (.returned false)) s.tasks.length ref₀ swap₀) :=
      (Frame.refl _ _).spawn.executeAutonomousAction
    have hknown := known_of_frame hf
    have hran := ran_of_frame hf
    refine ⟨fun ref hdue ↦ ?_, hknown h.known, hran h.ran⟩
    have hbefore := due_of_frame hf hdue
    rcases hfired ref hbefore with harmed | hpicked | ⟨hid, -, href, hfree⟩
    · exact .inl (armed_of_frame hf harmed)
    · obtain ⟨j, task, swap, -, htask, href, hswap, hpicks⟩ := hpicked
      have hother : some s.tasks.length ≠ some j := by
        intro hj
        obtain rfl := Option.some.inj hj
        exact absurd (List.getElem?_eq_some_iff.mp htask).1 (Nat.lt_irrefl _)
      have hpicked : PickedUp config
          { s with refundRetryTimers := JsMap.erase id s.refundRetryTimers }
          (some s.tasks.length) ref := ⟨j, task, swap, hother, htask, href, hswap, hpicks⟩
      exact .inr (pickedUp_of_frame hf hpicked)
    · obtain rfl := Option.some.inj (href₀.symm.trans href)
      obtain ⟨swap, hswap, rfl⟩ := State.idOf_eq_some.mp hid
      obtain rfl := Option.some.inj (hswap₀.symm.trans hswap)
      have hserved : Served config (State.executeAutonomousAction config
          (State.spawn { s with refundRetryTimers := JsMap.erase swap₀.id s.refundRetryTimers } ref₀
            .retry (.returned false)) s.tasks.length ref₀ swap₀) none ref₀ :=
        served_of_executed hswap₀ hfree
      exact hserved hdue

end Inv

theorem inv_step {input : Input} (hauto : config.enableAutoActions = true) (h : Inv config s)
    (hok : Condition config s input) (ht : step config s input = some t) : Inv config t := by
  cases input with
  | create swap =>
    obtain rfl := Option.some.inj ht
    exact h.create
  | start refs =>
    simp only [step] at ht
    split at ht
    · cases ht
    obtain ⟨swaps, hswaps, ht⟩ := Option.bind_eq_some_iff.mp ht
    obtain rfl := Option.some.inj ht
    exact h.start
  | stop =>
    simp only [step] at ht
    split at ht
    · obtain rfl := Option.some.inj ht
      exact h.stop rfl
    · cases ht
  | addSwap ref =>
    obtain ⟨swap, -, rfl⟩ := Option.map_eq_some_iff.mp ht
    exact h.of_length (Inv.monitored (.refl _ s) ref swap)
  | removeSwap id =>
    obtain rfl := Option.some.inj ht
    exact h.removeSwap id
  | message id status =>
    simp only [step] at ht
    split at ht
    · cases ht
    obtain ⟨ref, -, ht⟩ := Option.bind_eq_some_iff.mp ht
    obtain ⟨swap, hswap, ht⟩ := Option.bind_eq_some_iff.mp ht
    obtain rfl := Option.some.inj ht
    exact h.handleSwapStatusUpdate hswap status
  | poll id =>
    simp only [step] at ht
    split at ht
    · cases ht
    obtain ⟨ref, -, ht⟩ := Option.bind_eq_some_iff.mp ht
    split at ht
    · cases ht
    obtain rfl := Option.some.inj ht
    exact h.of_length (Frame.refl _ s).spawn
  | pollRetry id =>
    obtain ⟨ref, -, ht⟩ := Option.bind_eq_some_iff.mp ht
    obtain rfl := Option.some.inj ht
    exact h.of_length ((Frame.refl _ s).with_poll_timers _).spawn
  | refundRetry id => exact h.refundRetry hok ht
  | task k answer =>
    obtain ⟨task, hk, ht⟩ := Option.bind_eq_some_iff.mp ht
    split at ht
    · rename_i hstart
      obtain rfl := Option.some.inj ht
      exact h.startStep hk hstart
    · obtain ⟨swap, hswap, ht⟩ := Option.bind_eq_some_iff.mp ht
      exact h.taskStep hauto hk hswap (hok task swap hk hswap) ht

/-- No callback is under way for an object, nor an update or a save that may lead to one. -/
def Quiescent (s : State) (ref : Ref) : Prop :=
  ∀ (k : ℕ) task, s.tasks[k]? = some task → task.ref = ref → match task.phase with
    | .saving _ | .calling _ _ | .scheduling _ _ _ _ | .clearing _ _ _ => False
    | _ => True

/-- What a status that came under the lock calls for has been started since, or a retry is armed.
No update that was skipped finalizes a swap. -/
structure ActionsKept (config : Config) (s : State) : Prop where
  acted : ∀ ref swap callback, s.swap? ref = some swap → Quiescent s ref →
    cameLocked s.log ref swap.id = true → autonomousAction config swap = some callback →
      callback ∈ startedSince s.log ref ∨
        (JsMap.get s.refundRetryTimers swap.id).isSome = true
  ran : ∀ id ref ran, Entry.completed id ref ran ∈ s.log → ran = true

theorem inv_initial : Inv config initial where
  served _ := by
    rintro ⟨_, _, _, hlocked, -⟩
    cases hlocked
  known _ _ hlocked := by cases hlocked
  ran _ _ := List.not_mem_nil

theorem actions_kept (hauto : config.enableAutoActions = true)
    (h : Run (step config) (Condition config) initial s) : ActionsKept config s := by
  have hinv : Inv config s :=
    h.invariant (fun _ _ _ hs hok ht ↦ inv_step hauto hs hok ht) inv_initial
  constructor
  · intro ref swap callback hswap hquiet hlocked haction
    by_contra hnot
    obtain ⟨hstarted, htimer⟩ := not_or.mp hnot
    rcases hinv.served ref ⟨swap, callback, hswap, hlocked, haction, hstarted⟩ with
      ⟨swap', hswap', harmed⟩ | ⟨j, task, swap', -, htask, href, -, hpicks⟩
    · obtain rfl := Option.some.inj (hswap.symm.trans hswap')
      exact htimer harmed
    · have hq := hquiet j task htask href
      cases hphase : task.phase with
      | saving | calling | scheduling | clearing =>
        rw [hphase] at hq
        exact hq
      | _ =>
        rw [hphase] at hpicks
        cases hpicks
  · intro id ref ran hmem
    cases ran with
    | true => rfl
    | false => exact absurd hmem (hinv.ran id ref)

def sampleConfig : Config := ⟨true, true⟩

def expiring : List Input :=
  [.create ⟨"s", .chain .ark .btc, .swapCreated, none, none⟩, .start [0],
    .message "s" .transactionServerMempool, .task 1 (.saved true 0), .message "s" .swapExpired,
    .task 2 (.saved true 0), .task 2 (.goesOn 0), .task 1 (.called .rejects 0),
    .task 1 (.goesOn 0)]

/-- A swap expires while its claim is under way, and the claim fails: it is finalized, and its
refund is never begun. -/
theorem expiry_lost : ∃ s, exec (step sampleConfig) initial expiring = some s ∧
    Entry.completed "s" 0 false ∈ s.log ∧ ¬ActionsKept sampleConfig s := by
  obtain ⟨s, hs, hmem, htasks, hswap, hlog, htimers⟩ : ∃ s,
      exec (step sampleConfig) initial expiring = some s ∧
      Entry.completed "s" 0 false ∈ s.log ∧
      s.tasks.map (·.phase) = [.connecting, .ended, .ended] ∧
      s.swap? 0 = some ⟨"s", .chain .ark .btc, .swapExpired, none, none⟩ ∧
      (cameLocked s.log 0 "s" = true ∧ startedSince s.log 0 = []) ∧ s.refundRetryTimers = [] :=
    ⟨_, rfl, by decide, rfl, rfl, by decide, rfl⟩
  refine ⟨s, hs, hmem, fun h ↦ ?_⟩
  have hquiet : Quiescent s 0 := by
    intro k task hk _
    have hphase : (s.tasks.map (·.phase))[k]? = some task.phase := by
      rw [List.getElem?_map, hk, Option.map_some]
    rw [htasks] at hphase
    match k with
    | 0 | 1 | 2 =>
      rw [← Option.some.inj hphase]
      trivial
    | k + 3 => cases hphase
  rcases h.acted 0 _ .refundArk hswap hquiet hlog.1 rfl with hstarted | htimer
  · rw [hlog.2] at hstarted
    cases hstarted
  · rw [htimers] at htimer
    cases htimer

def claimed : List Input :=
  [.create ⟨"s", .chain .btc .ark, .swapCreated, none, none⟩, .start [0],
    .message "s" .transactionServerMempool, .task 1 (.saved true 0),
    .message "s" .transactionClaimPending]

def signed : List Input :=
  [.task 2 (.saved true 0), .task 1 (.called (.resolves "cc" 0 none) 0),
    .task 1 (.called (.resolves "" 0 none) 0)]

/-- The signature that comes due while the claim is under way. -/
theorem actions_kept_sample : ∃ s t, exec (step sampleConfig) initial claimed = some s ∧
    exec (step sampleConfig) s signed = some t ∧ ActionsKept sampleConfig t := by
  have hclaimed : Along (step sampleConfig) (Condition sampleConfig) initial claimed := by
    refine ⟨trivial, fun a ha ↦ ⟨trivial, fun b hb ↦ ⟨trivial, fun c hc ↦ ⟨?_, fun d hd ↦
      ⟨trivial, fun _ _ ↦ trivial⟩⟩⟩⟩⟩
    obtain rfl := Option.some.inj ha
    obtain rfl := Option.some.inj hb
    obtain rfl := Option.some.inj hc
    intro task swap hk hswap
    obtain rfl := Option.some.inj hk
    obtain rfl := Option.some.inj hswap
    rintro (hfailed | hlocked)
    · cases hfailed
    · cases hlocked
  have hsigned : ∀ s, exec (step sampleConfig) initial claimed = some s →
      Along (step sampleConfig) (Condition sampleConfig) s signed := by
    intro s hs
    obtain rfl := Option.some.inj hs
    refine ⟨fun task swap hk hswap ↦ ?_, fun a ha ↦ ⟨fun task swap hk hswap ↦ ?_, fun b hb ↦
      ⟨fun task swap hk hswap ↦ ?_, fun _ _ ↦ trivial⟩⟩⟩
    · obtain rfl := Option.some.inj hk
      intro _ _
      exact .inr ⟨1, _, _, nofun, rfl, rfl, rfl, rfl⟩
    · obtain rfl := Option.some.inj ha
      obtain rfl := Option.some.inj hk
      obtain rfl := Option.some.inj hswap
      exact fun hnot ↦ absurd hnot (by decide)
    · obtain rfl := Option.some.inj ha
      obtain rfl := Option.some.inj hb
      obtain rfl := Option.some.inj hk
      rintro - ⟨swap', callback, hswap', -, haction, hstarted⟩
      obtain rfl := Option.some.inj hswap'
      obtain rfl := Option.some.inj haction
      exact absurd hstarted (by decide)
  obtain ⟨s, t, hs, ht⟩ : ∃ s t, exec (step sampleConfig) initial claimed = some s ∧
      exec (step sampleConfig) s signed = some t := ⟨_, _, rfl, rfl⟩
  exact ⟨s, t, hs, ht, actions_kept rfl ((run_of_exec hs hclaimed).trans
    (run_of_exec ht (hsigned s hs)))⟩

end ArkadeSdk.SwapManager.Lock
