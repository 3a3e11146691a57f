import ArkadeSdk.Boltz.SwapManager
import ArkadeSdk.Lib.LabelledRun

/-! When a final status stays, is reported once, and nothing is done for a swap afterwards. -/

namespace ArkadeSdk.SwapManager

open LabelledRun

/-- Whether a swap has been monitored since it was last dropped. -/
def alive : List Entry → SwapId → Bool
  | [], _ => false
  | .monitored id' _ :: log, id => id' = id || alive log id
  | .completed id' _ _ :: log, id | .removed id' :: log, id => id' ≠ id && alive log id
  | .unknown _ swap :: log, id => swap.id ≠ id && alive log id
  | _ :: log, id => alive log id

def lastStatus : List Entry → SwapId → Option BoltzSwapStatus
  | [], _ => none
  | .updated _ swap newStatus _ :: log, id =>
    if swap.id = id then some newStatus else lastStatus log id
  | .unknown _ swap :: log, id => if swap.id = id then some .swapExpired else lastStatus log id
  | _ :: log, id => lastStatus log id

/-- A callback or a completion comes while a swap is monitored. What is saved after it was dropped
has its last status. -/
def Good : Entry → List Entry → Prop
  | .started id _ _, log | .completed id _ _, log => alive log id = true
  | .saved _ copy, log => alive log copy.id = false →
      ∀ status, lastStatus log copy.id = some status → copy.status = status
  | _, _ => True

namespace Phase

/-- An action that holds the lock. -/
def Acting : Phase → Prop
  | .calling _ _ | .scheduling _ _ _ _ | .clearing _ _ _ => True
  | _ => False

/-- What may lead to a callback or a save, unless it is the last save of a swap that was dropped. -/
def Live : Phase → Prop
  | .saving _ | .scheduling _ _ _ _ | .clearing _ _ _ => True
  | .calling callback _ => callback = .claimArk ∨ callback = .refund ∨ callback = .refundArk
  | _ => False

def copy : Phase → Option BoltzSwap
  | .saving copy | .scheduling _ _ _ copy | .clearing _ _ copy | .removing copy
  | .forgetting copy => some copy
  | _ => none

/-- What neither holds the lock nor leads to a callback or a save by itself. -/
def Quiet : Phase → Prop
  | .polling _ | .returned _ | .connecting | .resuming | .ended => True
  | _ => False

theorem Quiet.not_acting {phase : Phase} (h : phase.Quiet) : ¬phase.Acting := by
  cases phase with
  | polling | returned | connecting | resuming | ended => exact id
  | _ => exact h.elim

theorem Quiet.not_live {phase : Phase} (h : phase.Quiet) : ¬phase.Live := by
  cases phase with
  | polling | returned | connecting | resuming | ended => exact id
  | _ => exact h.elim

theorem Quiet.copy {phase : Phase} (h : phase.Quiet) : phase.copy = none := by
  cases phase with
  | polling | returned | connecting | resuming | ended => rfl
  | _ => exact h.elim

end Phase

namespace State

/-- Neither an update nor an action of a swap is under way, nor a save. Polls may be. -/
def Idle (s : State) (id : SwapId) : Prop :=
  ∀ (k : ℕ) task, s.tasks[k]? = some task → s.idOf task.ref = some id →
    ¬task.phase.Live ∧ task.phase.copy = none

end State

/-- The provider's statuses of a swap in order: none but final ones after a final one. -/
def Absorbing (history : SwapId → ℕ → BoltzSwapStatus) (swap : BoltzSwap) : Prop :=
  ∀ i j, i ≤ j → swap.kind.isFinalStatus (history swap.id i) = true →
    swap.kind.isFinalStatus (history swap.id j) = true

/-- An answer that reaches a swap in a final status is none from before. -/
def InOrder (history : SwapId → ℕ → BoltzSwapStatus) (swap : BoltzSwap) (status : BoltzSwapStatus) :
    Prop :=
  swap.isFinalStatus = true → swap.status ≠ status →
    ∃ i j, i ≤ j ∧ history swap.id i = swap.status ∧ history swap.id j = status

def TaskCondition (history : SwapId → ℕ → BoltzSwapStatus) (s : State) (swap : BoltzSwap)
    (caller : Caller) : Phase → Answer → Prop
  | .polling _, .polled (.found status) => InOrder history swap status ∧
      (JsMap.get s.monitoredSwaps swap.id = none → swap.status = status)
  | .polling _, .polled .notFound => (JsMap.get s.monitoredSwaps swap.id).isSome = true →
      NOT_FOUND_THRESHOLD ≤ (JsMap.get s.notFoundCounts swap.id).getD 0 + 1 → s.Idle swap.id
  | .returned ran, .goesOn _ => caller = .update ∨ caller = .retry ∧ ran = true →
      (JsMap.get s.monitoredSwaps swap.id).isSome = true → swap.isFinalStatus = true →
        JsMap.get s.refundRetryTimers swap.id = none → s.Idle swap.id
  | _, _ => True

/-- Answers come in order, and tell nothing new of a swap that was dropped. A swap is dropped when
nothing else is under way for it, and removed from under the object that was updated last. -/
def Condition (history : SwapId → ℕ → BoltzSwapStatus) (s : State) : Input → Prop
  | .create swap => Absorbing history swap
  | .message id status => ∀ ref swap, JsMap.get s.monitoredSwaps id = some ref →
      s.swap? ref = some swap → InOrder history swap status
  | .removeSwap id => s.Idle id ∧ ∀ ref swap status, JsMap.get s.monitoredSwaps id = some ref →
      s.swap? ref = some swap → lastStatus s.log id = some status → swap.status = status
  | .task k answer => ∀ task swap, s.tasks[k]? = some task → s.swap? task.ref = some swap →
      TaskCondition history s swap task.caller task.phase answer
  | _ => True

structure Inv (history : SwapId → ℕ → BoltzSwapStatus) (finals : Ref → Prop) (s : State) :
    Prop where
  alive : ∀ id, alive s.log id = (JsMap.get s.monitoredSwaps id).isSome
  monitored : ∀ id ref, JsMap.get s.monitoredSwaps id = some ref → s.idOf ref = some id
  live : ∀ (k : ℕ) task, s.tasks[k]? = some task → task.phase.Live →
    ∃ id, s.idOf task.ref = some id ∧ SwapManager.alive s.log id = true
  locked : ∀ (k : ℕ) task, s.tasks[k]? = some task → task.phase.Acting →
    ∃ id, s.idOf task.ref = some id ∧ id ∈ s.swapsInProgress
  apart : ∀ (j k : ℕ) task other id, s.tasks[j]? = some task → s.tasks[k]? = some other →
    task.phase.Acting → other.phase.Acting → s.idOf task.ref = some id →
      s.idOf other.ref = some id → j = k
  copies : ∀ (k : ℕ) task copy, s.tasks[k]? = some task → task.phase.copy = some copy →
    s.idOf task.ref = some copy.id ∧ (SwapManager.alive s.log copy.id = false →
      ∀ status, lastStatus s.log copy.id = some status → copy.status = status)
  absorbing : ∀ ref swap, s.swap? ref = some swap → Absorbing history swap
  finals : ∀ ref, finals ref → ∃ swap, s.swap? ref = some swap ∧ swap.isFinalStatus = true
  log : Chronicle Good s.log

namespace State

variable {s : State} {ref : Ref} {k : ℕ} {id : SwapId} {phase : Phase} {f : BoltzSwap → BoltzSwap}

theorem Idle.enter (h : s.Idle id) (hphase : phase.Quiet) : (s.enter k phase).Idle id := by
  intro j task hj hid
  rcases tasks_enter hj with ⟨-, hj⟩ | ⟨-, old, -, rfl⟩
  · exact h j task hj hid
  · exact ⟨hphase.not_live, hphase.copy⟩

theorem Idle.modify (h : s.Idle id) (hf : ∀ swap, (f swap).id = swap.id) :
    (s.modify ref f).Idle id := by
  intro j task hj hid
  rw [idOf_modify hf] at hid
  exact h j task hj hid

/-- Task `k` holds the lock of a swap. -/
def Holder (s : State) (k : ℕ) (id : SwapId) : Prop :=
  ∃ task, s.tasks[k]? = some task ∧ task.phase.Acting ∧ s.idOf task.ref = some id

end State

namespace Inv

variable {history : SwapId → ℕ → BoltzSwapStatus} {finals : Ref → Prop} {s : State}
  {ref : Ref} {k : ℕ} {id : SwapId} {phase : Phase} {caller : Caller} {task : Task}
  {f : BoltzSwap → BoltzSwap} {e : Entry}

theorem same {t : State} (h : Inv history finals s) (hobjects : t.objects = s.objects)
    (hmonitored : t.monitoredSwaps = s.monitoredSwaps)
    (hlocks : t.swapsInProgress = s.swapsInProgress) (htasks : t.tasks = s.tasks)
    (hlog : t.log = s.log) : Inv history finals t := by
  have hidOf : t.idOf = s.idOf := by
    funext ref
    simp only [State.idOf, State.swap?, hobjects]
  constructor
  · rw [hlog, hmonitored]
    exact h.alive
  · rw [hmonitored, hidOf]
    exact h.monitored
  · rw [htasks, hidOf, hlog]
    exact h.live
  · rw [htasks, hidOf, hlocks]
    exact h.locked
  · rw [htasks, hidOf]
    exact h.apart
  · rw [htasks, hidOf, hlog]
    exact h.copies
  · simp only [State.swap?, hobjects]
    exact h.absorbing
  · simp only [State.swap?, hobjects]
    exact h.finals
  · rw [hlog]
    exact h.log

theorem add (h : Inv history finals s) (hgood : Good e s.log)
    (halive : ∀ id, SwapManager.alive (e :: s.log) id = SwapManager.alive s.log id)
    (hlast : ∀ id, SwapManager.alive s.log id = false →
      lastStatus (e :: s.log) id = lastStatus s.log id) : Inv history finals (s.add e) where
  alive id := (halive id).trans (h.alive id)
  monitored := h.monitored
  live k task hk hlive := by
    obtain ⟨id, hid, hal⟩ := h.live k task hk hlive
    exact ⟨id, hid, (halive id).trans hal⟩
  locked := h.locked
  apart := h.apart
  copies k task copy hk hcopy := by
    obtain ⟨hid, hst⟩ := h.copies k task copy hk hcopy
    refine ⟨hid, fun hal status hlast' ↦ ?_⟩
    have hal' : SwapManager.alive s.log copy.id = false := (halive _).symm.trans hal
    exact hst hal' status ((hlast _ hal').symm.trans hlast')
  absorbing := h.absorbing
  finals := h.finals
  log := ⟨hgood, h.log⟩

theorem add_plain (h : Inv history finals s) (hgood : ∀ log, Good e log)
    (halive : ∀ log, SwapManager.alive (e :: log) = SwapManager.alive log)
    (hlast : ∀ log, lastStatus (e :: log) = lastStatus log) : Inv history finals (s.add e) :=
  h.add (hgood _) (fun _ ↦ congrFun (halive _) _) fun _ _ ↦ congrFun (hlast _) _

theorem add_unsubscribed (h : Inv history finals s) :
    Inv history finals (s.add (.unsubscribed id)) :=
  h.add_plain (fun _ ↦ trivial) (fun _ ↦ rfl) fun _ ↦ rfl

theorem add_done {callback : Callback} (h : Inv history finals s) :
    Inv history finals (s.add (.executed ref callback)) :=
  h.add_plain (fun _ ↦ trivial) (fun _ ↦ rfl) fun _ ↦ rfl

theorem add_failed (h : Inv history finals s) : Inv history finals (s.add (.failed ref)) :=
  h.add_plain (fun _ ↦ trivial) (fun _ ↦ rfl) fun _ ↦ rfl

theorem modify (h : Inv history finals s) (hid : ∀ swap, (f swap).id = swap.id)
    (hkind : ∀ swap, (f swap).kind = swap.kind)
    (hfinal : ∀ swap, s.swap? ref = some swap → swap.isFinalStatus = true →
      (f swap).isFinalStatus = true) : Inv history finals (s.modify ref f) where
  alive := h.alive
  monitored id ref' hm := (State.idOf_modify hid).trans (h.monitored id ref' hm)
  live k task hk hlive := by
    simp only [State.idOf_modify hid]
    exact h.live k task hk hlive
  locked k task hk hacting := by
    simp only [State.idOf_modify hid]
    exact h.locked k task hk hacting
  apart j k task other id hj hk hacting hacting' hid' hid'' := by
    rw [State.idOf_modify hid] at hid' hid''
    exact h.apart j k task other id hj hk hacting hacting' hid' hid''
  copies k task copy hk hcopy := by
    rw [State.idOf_modify hid]
    exact h.copies k task copy hk hcopy
  absorbing ref' swap hswap := by
    rw [State.swap?_modify] at hswap
    obtain ⟨old, hold, rfl⟩ := Option.map_eq_some_iff.mp hswap
    split
    · simp only [Absorbing, hid, hkind]
      exact h.absorbing ref' old hold
    · exact h.absorbing ref' old hold
  finals ref' hf := by
    obtain ⟨swap, hswap, hfin⟩ := h.finals ref' hf
    rw [State.swap?_modify, hswap]
    refine ⟨_, rfl, ?_⟩
    split
    · rename_i href
      subst href
      exact hfinal swap hswap hfin
    · exact hfin
  log := h.log

theorem enter_quiet (h : Inv history finals s) (hphase : phase.Quiet) :
    Inv history finals (s.enter k phase) where
  alive := h.alive
  monitored := h.monitored
  live j task hj hlive := by
    rcases State.tasks_enter hj with ⟨-, hj⟩ | ⟨-, old, -, rfl⟩
    · exact h.live j task hj hlive
    · exact absurd hlive hphase.not_live
  locked j task hj hacting := by
    rcases State.tasks_enter hj with ⟨-, hj⟩ | ⟨-, old, -, rfl⟩
    · exact h.locked j task hj hacting
    · exact absurd hacting hphase.not_acting
  apart i j task other id hi hj hacting hacting' hid hid' := by
    rcases State.tasks_enter hi with ⟨-, hi⟩ | ⟨-, old, -, rfl⟩
    · rcases State.tasks_enter hj with ⟨-, hj⟩ | ⟨-, old, -, rfl⟩
      · exact h.apart i j task other id hi hj hacting hacting' hid hid'
      · exact absurd hacting' hphase.not_acting
    · exact absurd hacting hphase.not_acting
  copies j task copy hj hcopy := by
    rcases State.tasks_enter hj with ⟨-, hj⟩ | ⟨-, old, -, rfl⟩
    · exact h.copies j task copy hj hcopy
    · rw [hphase.copy] at hcopy
      cases hcopy
  absorbing := h.absorbing
  finals := h.finals
  log := h.log

/-- An action of a monitored swap goes on, or begins where no other one holds the lock. -/
theorem enter_acting (h : Inv history finals s) (hk : s.tasks[k]? = some task)
    (hid : s.idOf task.ref = some id) (hal : SwapManager.alive s.log id = true)
    (hlock : id ∈ s.swapsInProgress)
    (halone : ∀ (j : ℕ) other, j ≠ k → s.tasks[j]? = some other → other.phase.Acting →
      s.idOf other.ref ≠ some id)
    (hcopy : ∀ copy, phase.copy = some copy → copy.id = id) :
    Inv history finals (s.enter k phase) where
  alive := h.alive
  monitored := h.monitored
  live j task' hj hlive := by
    rcases State.tasks_enter hj with ⟨-, hj⟩ | ⟨-, old, hold, rfl⟩
    · exact h.live j task' hj hlive
    · obtain rfl := Option.some.inj (hk.symm.trans hold)
      exact ⟨id, hid, hal⟩
  locked j task' hj hacting := by
    rcases State.tasks_enter hj with ⟨-, hj⟩ | ⟨-, old, hold, rfl⟩
    · exact h.locked j task' hj hacting
    · obtain rfl := Option.some.inj (hk.symm.trans hold)
      exact ⟨id, hid, hlock⟩
  apart i j task' other id' hi hj hacting hacting' hid' hid'' := by
    rcases State.tasks_enter hi with ⟨hne, hi⟩ | ⟨rfl, old, hold, rfl⟩
    · rcases State.tasks_enter hj with ⟨-, hj⟩ | ⟨-, old, hold, rfl⟩
      · exact h.apart i j task' other id' hi hj hacting hacting' hid' hid''
      · obtain rfl := Option.some.inj (hk.symm.trans hold)
        obtain rfl := Option.some.inj (hid.symm.trans hid'')
        exact absurd hid' (halone i task' hne hi hacting)
    · obtain rfl := Option.some.inj (hk.symm.trans hold)
      obtain rfl := Option.some.inj (hid.symm.trans hid')
      rcases State.tasks_enter hj with ⟨hne, hj⟩ | ⟨rfl, -⟩
      · exact absurd hid'' (halone j other hne hj hacting')
      · rfl
  copies j task' copy hj hc := by
    rcases State.tasks_enter hj with ⟨-, hj⟩ | ⟨-, old, hold, rfl⟩
    · exact h.copies j task' copy hj hc
    · obtain rfl := Option.some.inj (hk.symm.trans hold)
      obtain rfl := hcopy copy hc
      exact ⟨hid, fun hal' ↦ absurd hal (hal' ▸ Bool.false_ne_true)⟩
  absorbing := h.absorbing
  finals := h.finals
  log := h.log

theorem spawn (h : Inv history finals s) (hacting : ¬phase.Acting)
    (hlive : phase.Live → ∃ id, s.idOf ref = some id ∧ SwapManager.alive s.log id = true)
    (hcopy : ∀ copy, phase.copy = some copy → s.idOf ref = some copy.id ∧
      (SwapManager.alive s.log copy.id = false →
        ∀ status, lastStatus s.log copy.id = some status → copy.status = status)) :
    Inv history finals (s.spawn ref caller phase) where
  alive := h.alive
  monitored := h.monitored
  live j task hj hl := by
    rcases State.tasks_spawn hj with hj | ⟨-, rfl⟩
    · exact h.live j task hj hl
    · exact hlive hl
  locked j task hj ha := by
    rcases State.tasks_spawn hj with hj | ⟨-, rfl⟩
    · exact h.locked j task hj ha
    · exact absurd ha hacting
  apart i j task other id hi hj ha ha' hid hid' := by
    rcases State.tasks_spawn hi with hi | ⟨-, rfl⟩
    · rcases State.tasks_spawn hj with hj | ⟨-, rfl⟩
      · exact h.apart i j task other id hi hj ha ha' hid hid'
      · exact absurd ha' hacting
    · exact absurd ha hacting
  copies j task copy hj hc := by
    rcases State.tasks_spawn hj with hj | ⟨-, rfl⟩
    · exact h.copies j task copy hj hc
    · exact hcopy copy hc
  absorbing := h.absorbing
  finals := h.finals
  log := h.log

theorem spawn_quiet (h : Inv history finals s) (hphase : phase.Quiet) :
    Inv history finals (s.spawn ref caller phase) :=
  h.spawn hphase.not_acting (fun hl ↦ absurd hl hphase.not_live) fun copy hc ↦ by
    rw [hphase.copy] at hc
    cases hc

theorem finish (h : Inv history finals s) (hk : s.Holder k id) :
    Inv history finals (s.finish k id) := by
  obtain ⟨task, hk, hacting, hid⟩ := hk
  have hquiet : (Phase.returned true).Quiet := trivial
  have hstill : ∀ (j : ℕ) other, ((s.unlock id).enter k (.returned true)).tasks[j]? = some other →
      other.phase.Acting → j ≠ k ∧ s.tasks[j]? = some other := by
    intro j other hj ha
    rcases State.tasks_enter hj with hj | ⟨-, old, -, rfl⟩
    · exact hj
    · exact absurd ha hquiet.not_acting
  have hq := h.enter_quiet (k := k) hquiet
  exact {
    alive := h.alive
    monitored := h.monitored
    live := hq.live
    locked := by
      intro j other hj ha
      obtain ⟨hne, hother⟩ := hstill j other hj ha
      obtain ⟨id', hid', hlock⟩ := h.locked j other hother ha
      refine ⟨id', hid', List.mem_filter.mpr ⟨hlock, decide_eq_true ?_⟩⟩
      rintro rfl
      exact hne (h.apart j k other task id' hother hk ha hacting hid' hid)
    apart := hq.apart
    copies := hq.copies
    absorbing := h.absorbing
    finals := h.finals
    log := h.log }

theorem lock (h : Inv history finals s) (id : SwapId) :
    Inv history finals { s with swapsInProgress := id :: s.swapsInProgress } where
  alive := h.alive
  monitored := h.monitored
  live := h.live
  locked k task hk hacting := by
    obtain ⟨id', hid, hlock⟩ := h.locked k task hk hacting
    exact ⟨id', hid, List.mem_cons_of_mem _ hlock⟩
  apart := h.apart
  copies := h.copies
  absorbing := h.absorbing
  finals := h.finals
  log := h.log

theorem call (h : Inv history finals s) (hk : s.tasks[k]? = some task)
    (hid : s.idOf task.ref = some id) (hal : SwapManager.alive s.log id = true)
    (hlock : id ∈ s.swapsInProgress)
    (halone : ∀ (j : ℕ) other, j ≠ k → s.tasks[j]? = some other → other.phase.Acting →
      s.idOf other.ref ≠ some id) (callback : Callback) :
    Inv history finals (s.call k ref id callback) := by
  have hs : Inv history finals (s.add (.started id ref callback)) :=
    h.add hal (fun _ ↦ rfl) fun _ _ ↦ rfl
  have henter : ∀ {t : State} promise, Inv history finals t →
      t.tasks = s.tasks → t.objects = s.objects → t.swapsInProgress = s.swapsInProgress →
      SwapManager.alive t.log id = true →
      Inv history finals (t.enter k (.calling callback promise)) := by
    intro t promise ht htasks hobjects hin hal'
    have hidOf : t.idOf = s.idOf := by
      funext ref'
      simp only [State.idOf, State.swap?, hobjects]
    have hk' : t.tasks[k]? = some task := by rw [htasks, hk]
    have hid' : t.idOf task.ref = some id := by rw [hidOf, hid]
    apply ht.enter_acting hk' hid' hal'
    · rw [hin]
      exact hlock
    · intro j other hne hj ha
      rw [htasks] at hj
      rw [hidOf]
      exact halone j other hne hj ha
    · intro copy hc
      cases hc
  have hp : ∀ promises chainClaimPromises, Inv history finals
      { s.add (.started id ref callback) with
        promises := promises
        chainClaimPromises := chainClaimPromises } := fun _ _ ↦
    hs.same rfl rfl rfl rfl rfl
  cases callback with
  | claim | refund | refundArk | signServerClaim => exact henter none hs rfl rfl rfl hal
  | claimArk | claimBtc => exact henter _ (hp _ _) rfl rfl rfl hal

theorem executeAutonomousAction {config : Config} {swap : BoltzSwap} (h : Inv history finals s)
    (hk : s.tasks[k]? = some task) (hid : s.idOf task.ref = some swap.id)
    (hal : SwapManager.alive s.log swap.id = true) :
    Inv history finals (s.executeAutonomousAction config k ref swap) := by
  unfold State.executeAutonomousAction
  split
  · exact h.enter_quiet trivial
  · rename_i hfree
    split
    · exact h.enter_quiet trivial
    · apply (h.lock swap.id).call hk hid hal List.mem_cons_self
      intro j other _ hj ha hsame
      obtain ⟨id', hid', hlock⟩ := h.locked j other hj ha
      obtain rfl := Option.some.inj (hid'.symm.trans hsame)
      exact hfree hlock

theorem monitor {swap : BoltzSwap} (h : Inv history finals s) (hswap : s.swap? ref = some swap) :
    Inv history finals (monitor s ref swap) where
  alive id := by
    show (decide (swap.id = id) || SwapManager.alive s.log id) = _
    simp only [SwapManager.monitor, State.add, JsMap.get_set, h.alive]
    by_cases hid : swap.id = id <;> simp [hid]
  monitored id ref' hm := by
    simp only [SwapManager.monitor, State.add, JsMap.get_set] at hm
    split at hm
    · rename_i hid
      obtain rfl := Option.some.inj hm
      rw [← hid]
      exact State.idOf_of_swap? hswap
    · exact h.monitored id ref' hm
  live k task hk hlive := by
    obtain ⟨id, hid, hal⟩ := h.live k task hk hlive
    exact ⟨id, hid, (Bool.or_eq_true _ _).mpr (.inr hal)⟩
  locked := h.locked
  apart := h.apart
  copies k task copy hk hcopy := by
    obtain ⟨hid, hst⟩ := h.copies k task copy hk hcopy
    exact ⟨hid, fun hal ↦ hst ((Bool.or_eq_false_iff).mp hal).2⟩
  absorbing := h.absorbing
  finals := h.finals
  log := ⟨trivial, h.log⟩

theorem drop (h : Inv history finals s) (hidle : s.Idle id) (hgood : Good e s.log)
    (halive : ∀ id', SwapManager.alive (e :: s.log) id' =
      (decide (id ≠ id') && SwapManager.alive s.log id'))
    (hlast : ∀ id', id ≠ id' → lastStatus (e :: s.log) id' = lastStatus s.log id') :
    Inv history finals ((s.dropTimers id).add e) where
  alive id' := by
    show SwapManager.alive (e :: s.log) id' = _
    rw [halive, h.alive]
    simp only [State.add, State.dropTimers, JsMap.get_erase]
    by_cases hid : id = id' <;> simp [hid]
  monitored id' ref' hm := by
    simp only [State.add, State.dropTimers, JsMap.get_erase] at hm
    split at hm
    · cases hm
    · exact h.monitored id' ref' hm
  live k task hk hlive := by
    obtain ⟨id', hid, hal⟩ := h.live k task hk hlive
    refine ⟨id', hid, (halive id').trans ?_⟩
    rw [hal, Bool.and_true, decide_eq_true_eq]
    rintro rfl
    exact (hidle k task hk hid).1 hlive
  locked := h.locked
  apart := h.apart
  copies k task copy hk hcopy := by
    obtain ⟨hid, hst⟩ := h.copies k task copy hk hcopy
    have hne : id ≠ copy.id := by
      rintro rfl
      rw [(hidle k task hk hid).2] at hcopy
      cases hcopy
    refine ⟨hid, fun hal status hl ↦ ?_⟩
    have hal' := (halive copy.id).symm.trans hal
    rw [decide_eq_true hne, Bool.true_and] at hal'
    exact hst hal' status ((hlast _ hne).symm.trans hl)
  absorbing := h.absorbing
  finals := h.finals
  log := ⟨hgood, h.log⟩

theorem finalizeMonitoredSwap {swap : BoltzSwap} {ran : Bool} (h : Inv history finals s)
    (hidle : (JsMap.get s.monitoredSwaps swap.id).isSome = true → s.Idle swap.id) :
    Inv history finals (s.finalizeMonitoredSwap ref swap ran) := by
  unfold State.finalizeMonitoredSwap
  split
  · exact h
  · rename_i hm
    have hm : (JsMap.get s.monitoredSwaps swap.id).isSome = true := by
      rwa [Option.isNone_iff_eq_none, ← ne_eq, Option.ne_none_iff_isSome] at hm
    have hs : Inv history finals (s.add (.unsubscribed swap.id)) := h.add_unsubscribed
    have hd : Inv history finals (((s.add (.unsubscribed swap.id)).dropTimers swap.id).add
        (.completed swap.id ref ran)) :=
      hs.drop (hidle hm) ((h.alive _).trans hm) (fun id' ↦ rfl) fun _ _ ↦ rfl
    exact hd.same rfl rfl rfl rfl rfl

/-- What a task that holds the lock of a monitored swap needs for its next part. -/
theorem holder_alive (h : Inv history finals s) (hk : s.tasks[k]? = some task)
    (hlive : task.phase.Live) (hid : s.idOf task.ref = some id) :
    SwapManager.alive s.log id = true := by
  obtain ⟨id', hid', hal⟩ := h.live k task hk hlive
  obtain rfl := Option.some.inj (hid.symm.trans hid')
  exact hal

theorem holder_alone (h : Inv history finals s) (hk : s.tasks[k]? = some task)
    (hacting : task.phase.Acting) (hid : s.idOf task.ref = some id) :
    id ∈ s.swapsInProgress ∧ ∀ (j : ℕ) other, j ≠ k → s.tasks[j]? = some other →
      other.phase.Acting → s.idOf other.ref ≠ some id := by
  obtain ⟨id', hid', hlock⟩ := h.locked k task hk hacting
  obtain rfl := Option.some.inj (hid.symm.trans hid')
  exact ⟨hlock, fun j other hne hj ha hsame ↦
    hne (h.apart j k other task id hj hk ha hacting hsame hid)⟩

theorem enter_next (h : Inv history finals s) (hk : s.tasks[k]? = some task)
    (hacting : task.phase.Acting) (hlive : task.phase.Live) (hid : s.idOf task.ref = some id)
    (hcopy : ∀ copy, phase.copy = some copy → copy.id = id) :
    Inv history finals (s.enter k phase) := by
  obtain ⟨hlock, halone⟩ := h.holder_alone hk hacting hid
  exact h.enter_acting hk hid (h.holder_alive hk hlive hid) hlock halone hcopy

variable {config : Config} {swap : BoltzSwap} {callback : Callback} {promise : Option ℕ}

theorem executedOr (h : Inv history finals s) (thrown : Bool) :
    Inv history finals (s.executedOr ref callback thrown) := by
  cases thrown with
  | false => exact h.add_plain (fun _ ↦ trivial) (fun _ ↦ rfl) fun _ ↦ rfl
  | true => exact h.add_plain (fun _ ↦ trivial) (fun _ ↦ rfl) fun _ ↦ rfl

theorem modify_retry (h : Inv history finals s) (retry : Option RefundRetryState) :
    Inv history finals (s.modify ref fun swap ↦ { swap with refundRetry := retry }) :=
  h.modify (fun _ ↦ rfl) (fun _ ↦ rfl) fun _ _ hfin ↦ hfin

theorem scheduleRefundRetry (h : Inv history finals s) (hk : s.tasks[k]? = some task)
    (hacting : task.phase.Acting) (hlive : task.phase.Live) (hid : s.idOf task.ref = some swap.id)
    (delayMs now : ℤ) (again : Bool) :
    Inv history finals (s.scheduleRefundRetry k ref swap callback delayMs now again) := by
  have hid' : (s.modify ref fun swap ↦ { swap with
      refundRetry := some ⟨true, some (nextRefundRetryAt delayMs now)⟩ }).idOf task.ref =
        some swap.id := (State.idOf_modify fun _ ↦ by rfl).trans hid
  apply (h.modify_retry _).enter_next hk hacting hlive hid'
  · intro copy hcopy
    obtain rfl := Option.some.inj hcopy
    rfl

theorem clearRefundRetry (h : Inv history finals s) (hk : s.tasks[k]? = some task)
    (hacting : task.phase.Acting) (hlive : task.phase.Live) (hid : s.idOf task.ref = some swap.id)
    (thrown : Bool) : Inv history finals (s.clearRefundRetry k ref swap callback thrown) := by
  unfold State.clearRefundRetry
  split
  · exact (h.executedOr thrown).finish ⟨task, hk, hacting, hid⟩
  · have hid' : (s.modify ref fun swap ↦ { swap with refundRetry := none }).idOf task.ref =
        some swap.id := (State.idOf_modify fun _ ↦ by rfl).trans hid
    apply (h.modify_retry _).enter_next hk hacting hlive hid'
    · intro copy hcopy
      obtain rfl := Option.some.inj hcopy
      rfl

theorem with_promises (h : Inv history finals s) (promises : List ClaimPromise) :
    Inv history finals { s with promises := promises } :=
  h.same rfl rfl rfl rfl rfl

theorem claimed (h : Inv history finals s) (ref : Ref) (txid : String) :
    ∃ t, t = (if txid = "" then s else
      s.modify ref fun swap ↦ { swap with claimTxid := some txid }) ∧
      Inv history finals t ∧ t.tasks = s.tasks ∧ t.idOf = s.idOf := by
  split
  · exact ⟨s, rfl, h, rfl, rfl⟩
  · exact ⟨_, rfl, h.modify (fun _ ↦ rfl) (fun _ ↦ rfl) fun _ _ hfin ↦ hfin, rfl,
      funext fun _ ↦ State.idOf_modify fun _ ↦ by rfl⟩

theorem resolves (h : Inv history finals s) (hk : s.tasks[k]? = some task)
    (hphase : task.phase = .calling callback promise) (hswap : s.swap? task.ref = some swap)
    (txid : String) (skipped : ℕ) (retryAt : Option ℤ) (now : ℤ) :
    Inv history finals
      (afterCall config s k task.ref swap callback promise now
        (.resolves txid skipped retryAt)) := by
  have hacting : task.phase.Acting := hphase ▸ trivial
  have hid : s.idOf task.ref = some swap.id := State.idOf_of_swap? hswap
  have hholder : s.Holder k swap.id := ⟨task, hk, hacting, hid⟩
  have hrefund : callback = .refund ∨ callback = .refundArk → Inv history finals
      (let s := s.add (.refunded swap.id skipped)
      if 0 < skipped then
        s.scheduleRefundRetry k task.ref swap callback (refundRetryDelayMs retryAt now) now false
      else s.clearRefundRetry k task.ref swap callback false) := by
    intro hcallback
    have hlive : task.phase.Live := hphase ▸ Or.inr hcallback
    have hs : Inv history finals (s.add (.refunded swap.id skipped)) :=
      h.add_plain (fun _ ↦ trivial) (fun _ ↦ rfl) fun _ ↦ rfl
    dsimp only
    split
    · exact hs.scheduleRefundRetry hk hacting hlive hid _ _ _
    · exact hs.clearRefundRetry hk hacting hlive hid _
  cases callback with
  | claim | signServerClaim => exact h.add_done.finish hholder
  | refund => exact hrefund (.inl rfl)
  | refundArk => exact hrefund (.inr rfl)
  | claimBtc =>
    obtain ⟨t, ht, hs, htasks, hidOf⟩ := (h.with_promises
      ((promise.map (s.promises.set · (.resolved txid))).getD s.promises)).claimed task.ref txid
    have hk' : t.tasks[k]? = some task := by rw [htasks]; exact hk
    have hid' : t.idOf task.ref = some swap.id := by rw [hidOf]; exact hid
    unfold afterCall
    dsimp only
    rw [← ht]
    exact hs.add_done.finish ⟨task, hk', hacting, hid'⟩
  | claimArk =>
    obtain ⟨t, ht, hs, htasks, hidOf⟩ := (h.with_promises
      ((promise.map (s.promises.set · (.resolved txid))).getD s.promises)).claimed task.ref txid
    have hk' : t.tasks[k]? = some task := by rw [htasks]; exact hk
    have hid' : t.idOf task.ref = some swap.id := by rw [hidOf]; exact hid
    unfold afterCall
    dsimp only
    rw [← ht]
    split
    · obtain ⟨hlock, halone⟩ := hs.add_done.holder_alone hk' hacting hid'
      have hal := hs.holder_alive hk' (hphase ▸ Or.inl rfl) hid'
      exact hs.add_done.call hk' hid' hal hlock halone _
    · exact hs.add_done.finish ⟨task, hk', hacting, hid'⟩

theorem rejects (h : Inv history finals s) (hk : s.tasks[k]? = some task)
    (hphase : task.phase = .calling callback promise) (hswap : s.swap? task.ref = some swap)
    (now : ℤ) :
    Inv history finals (afterCall config s k task.ref swap callback promise now .rejects) := by
  have hacting : task.phase.Acting := hphase ▸ trivial
  have hid : s.idOf task.ref = some swap.id := State.idOf_of_swap? hswap
  have hholder : s.Holder k swap.id := ⟨task, hk, hacting, hid⟩
  have hthrew : Inv history finals (s.add (.refundThrew swap.id callback)) :=
    h.add_plain (fun _ ↦ trivial) (fun _ ↦ rfl) fun _ ↦ rfl
  cases callback with
  | claim => exact h.add_failed.finish hholder
  | signServerClaim => exact h.finish hholder
  | claimArk | claimBtc => exact ((h.with_promises _).add_failed).finish hholder
  | refund =>
    exact hthrew.clearRefundRetry hk hacting (hphase ▸ Or.inr (.inl rfl)) hid true
  | refundArk =>
    exact hthrew.add_failed.scheduleRefundRetry hk hacting (hphase ▸ Or.inr (.inr rfl)) hid _ _ _

theorem saveFailed (h : Inv history finals s) (hk : s.tasks[k]? = some task)
    (hacting : task.phase.Acting) (hlive : task.phase.Live) (hid : s.idOf task.ref = some swap.id)
    (again : Bool) (now : ℤ) :
    Inv history finals (saveFailed s k task.ref swap callback again now) := by
  unfold SwapManager.saveFailed
  split
  · exact h.add_failed.scheduleRefundRetry hk hacting hlive hid _ _ _
  · exact h.add_failed.finish ⟨task, hk, hacting, hid⟩

theorem with_counts (h : Inv history finals s) (notFoundCounts : JsMap.Entries SwapId ℕ) :
    Inv history finals { s with notFoundCounts := notFoundCounts } :=
  h.same rfl rfl rfl rfl rfl

theorem with_poll_timers (h : Inv history finals s) (pollRetryTimers : JsMap.Entries SwapId Ref) :
    Inv history finals { s with pollRetryTimers := pollRetryTimers } :=
  h.same rfl rfl rfl rfl rfl

/-- What the provider says of a final swap is final, where it is in order. -/
theorem final_of_inOrder (h : Inv history finals s) (hswap : s.swap? ref = some swap)
    {status : BoltzSwapStatus} (horder : InOrder history swap status)
    (hfinal : swap.isFinalStatus = true) : swap.kind.isFinalStatus status = true := by
  by_cases heq : swap.status = status
  · rw [← heq]
    exact hfinal
  · obtain ⟨i, j, hij, hi, hj⟩ := horder hfinal heq
    rw [← hj]
    apply h.absorbing ref swap hswap i j hij
    rw [hi]
    exact hfinal

theorem modify_status (h : Inv history finals s) (ref : Ref) (newStatus : BoltzSwapStatus)
    (hfinal : ∀ swap, s.swap? ref = some swap → swap.isFinalStatus = true →
      swap.kind.isFinalStatus newStatus = true) :
    Inv history finals (s.modify ref fun swap ↦ { swap with status := newStatus }) :=
  h.modify (fun _ ↦ rfl) (fun _ ↦ rfl) hfinal

theorem handleSwapStatusUpdate {newStatus : BoltzSwapStatus} (h : Inv history finals s)
    (hswap : s.swap? ref = some swap) (horder : InOrder history swap newStatus)
    (hal : swap.status ≠ newStatus → SwapManager.alive s.log swap.id = true) :
    Inv history finals (s.handleSwapStatusUpdate ref swap newStatus) := by
  unfold State.handleSwapStatusUpdate
  dsimp only
  split
  · exact h.with_counts _
  · rename_i hne
    have hal := hal hne
    have hcounts := h.with_counts (JsMap.erase swap.id s.notFoundCounts)
    have hm := hcounts.modify_status ref newStatus fun old hold hfin ↦ by
      obtain rfl := Option.some.inj (hswap.symm.trans hold)
      exact h.final_of_inOrder hswap horder hfin
    have hid : (State.modify { s with notFoundCounts := JsMap.erase swap.id s.notFoundCounts } ref
        fun swap ↦ { swap with status := newStatus }).idOf ref = some swap.id :=
      (State.idOf_modify fun _ ↦ by rfl).trans (State.idOf_of_swap? (s := s) hswap)
    apply Inv.spawn
    · apply hm.add
      · trivial
      · exact fun _ ↦ rfl
      · intro id hdead
        have hne : swap.id ≠ id := by
          rintro rfl
          exact absurd hal (Bool.eq_false_iff.mp hdead)
        exact if_neg hne
    · exact id
    · intro
      exact ⟨swap.id, hid, hal⟩
    · intro copy hcopy
      obtain rfl := Option.some.inj hcopy
      exact ⟨hid, fun hdead ↦ absurd hal (Bool.eq_false_iff.mp hdead)⟩

theorem markSwapAsUnknownToProvider (h : Inv history finals s) (hswap : s.swap? ref = some swap)
    (hidle : (JsMap.get s.monitoredSwaps swap.id).isSome = true → s.Idle swap.id) :
    Inv history finals (s.markSwapAsUnknownToProvider ref swap) := by
  unfold State.markSwapAsUnknownToProvider
  dsimp only
  split
  · exact h
  split
  · exact h.with_counts _
  · rename_i hm
    have hm : (JsMap.get s.monitoredSwaps swap.id).isSome = true := by
      rwa [Option.isNone_iff_eq_none, ← ne_eq, Option.ne_none_iff_isSome] at hm
    have hcounts := h.with_counts (JsMap.erase swap.id s.notFoundCounts)
    have hmod := hcounts.modify_status ref .swapExpired fun old _ _ ↦ by
      cases old.kind <;> rfl
    have hidle' : State.Idle (State.modify
        { s with notFoundCounts := JsMap.erase swap.id s.notFoundCounts } ref
        fun swap ↦ { swap with status := .swapExpired }) swap.id :=
      (show State.Idle { s with notFoundCounts := _ } swap.id from hidle hm).modify fun _ ↦ rfl
    apply Inv.spawn
    · apply hmod.drop hidle'
      · trivial
      · exact fun _ ↦ rfl
      · exact fun id' hne ↦ if_neg hne
    · exact id
    · exact False.elim
    · intro copy hcopy
      obtain rfl := Option.some.inj hcopy
      have hid : s.idOf ref = some swap.id := State.idOf_of_swap? hswap
      refine ⟨(State.idOf_modify fun _ ↦ by rfl).trans hid, fun _ status hlast ↦ ?_⟩
      exact Option.some.inj ((if_pos rfl).symm.trans hlast)

theorem handleSwapNotFound (h : Inv history finals s) (hswap : s.swap? ref = some swap)
    (hidle : (JsMap.get s.monitoredSwaps swap.id).isSome = true →
      NOT_FOUND_THRESHOLD ≤ (JsMap.get s.notFoundCounts swap.id).getD 0 + 1 → s.Idle swap.id) :
    Inv history finals (s.handleSwapNotFound ref swap) := by
  unfold State.handleSwapNotFound
  dsimp only
  split
  · exact h
  split
  · rename_i hcount
    exact (h.with_counts _).markSwapAsUnknownToProvider hswap fun hm ↦ hidle hm hcount
  · exact h.with_counts _

theorem afterAction {ran : Bool} (h : Inv history finals s)
    (hidle : caller = .update ∨ caller = .retry ∧ ran = true →
      (JsMap.get s.monitoredSwaps swap.id).isSome = true → swap.isFinalStatus = true →
        JsMap.get s.refundRetryTimers swap.id = none → s.Idle swap.id) :
    Inv history finals (afterAction s k ref swap ran caller) := by
  have hended : (Phase.ended).Quiet := trivial
  cases caller with
  | resume => exact h.enter_quiet trivial
  | update =>
    unfold SwapManager.afterAction
    dsimp only
    split
    · rename_i hdrop
      obtain ⟨hfin, htimer⟩ := (Bool.and_eq_true _ _).mp hdrop
      exact (h.enter_quiet hended).finalizeMonitoredSwap fun hm ↦
        (hidle (.inl rfl) hm hfin (Option.isNone_iff_eq_none.mp htimer)).enter hended
    · exact h.enter_quiet hended
  | retry =>
    unfold SwapManager.afterAction
    dsimp only
    split
    · rename_i hdrop
      obtain ⟨hran, htimer⟩ := (Bool.and_eq_true _ _).mp hdrop
      obtain ⟨hran, hfin⟩ := (Bool.and_eq_true _ _).mp hran
      exact (h.enter_quiet hended).finalizeMonitoredSwap fun hm ↦
        (hidle (.inr ⟨rfl, hran⟩) hm hfin (Option.isNone_iff_eq_none.mp htimer)).enter hended
    · exact h.enter_quiet hended

theorem add_saved {copy : BoltzSwap} (h : Inv history finals s) (hk : s.tasks[k]? = some task)
    (hcopy : task.phase.copy = some copy) : Inv history finals (s.add (.saved task.ref copy)) :=
  h.add (h.copies k task copy hk hcopy).2 (fun _ ↦ rfl) fun _ _ ↦ rfl

theorem arm (h : Inv history finals s) (delayMs : ℤ) :
    Inv history finals (s.armRefundRetryTimer id delayMs) :=
  h.same rfl rfl rfl rfl rfl

theorem resumePersistedRefundRetries (h : Inv history finals s) (now : ℤ) :
    Inv history finals (resumePersistedRefundRetries s now) := by
  apply List.foldlRecOn
  · exact h
  · intro t ht e _
    split
    · exact ht
    split
    · split
      · exact ht
      · exact ht.arm _
    · exact ht

theorem turn (h : Inv history finals s) (hphase : phase.Quiet) (k : ℕ) (ref : Ref)
    (caller : Caller) :
    Inv history finals { s with tasks := s.tasks.set k ⟨ref, caller, phase⟩ } := by
  have hset : ∀ (j : ℕ) other, (s.tasks.set k ⟨ref, caller, phase⟩)[j]? = some other →
      s.tasks[j]? = some other ∨ other.phase = phase := by
    intro j other hj
    rw [List.getElem?_set] at hj
    split at hj
    · split at hj
      · obtain rfl := Option.some.inj hj
        exact .inr rfl
      · cases hj
    · exact .inl hj
  refine ⟨h.alive, h.monitored, ?_, ?_, ?_, ?_, h.absorbing, h.finals, h.log⟩
  · intro j task hj hlive
    rcases hset j task hj with hj | hj
    · exact h.live j task hj hlive
    · exact absurd (hj ▸ hlive) hphase.not_live
  · intro j task hj hacting
    rcases hset j task hj with hj | hj
    · exact h.locked j task hj hacting
    · exact absurd (hj ▸ hacting) hphase.not_acting
  · intro i j task other id hi hj hacting hacting' hid hid'
    rcases hset i task hi with hi | hi
    · rcases hset j other hj with hj | hj
      · exact h.apart i j task other id hi hj hacting hacting' hid hid'
      · exact absurd (hj ▸ hacting') hphase.not_acting
    · exact absurd (hi ▸ hacting) hphase.not_acting
  · intro j task copy hj hcopy
    rcases hset j task hj with hj | hj
    · exact h.copies j task copy hj hcopy
    · rw [hj, hphase.copy] at hcopy
      cases hcopy

theorem startStep {answer : Answer} {t : State} (h : Inv history finals s)
    (ht : startStep config s k phase answer = some t) (hk : k < s.tasks.length) :
    Inv history finals t := by
  unfold SwapManager.startStep at ht
  split at ht
  · obtain rfl := Option.some.inj ht
    split
    · exact (h.resumePersistedRefundRetries _).enter_quiet trivial
    · exact h.enter_quiet trivial
  · obtain rfl := Option.some.inj ht
    exact h.enter_quiet trivial
  · rename_i id
    obtain ⟨ref, href, ht⟩ := Option.bind_eq_some_iff.mp ht
    obtain ⟨swap, hswap, ht⟩ := Option.bind_eq_some_iff.mp ht
    split at ht
    · obtain rfl := Option.some.inj ht
      exact h
    · obtain rfl := Option.some.inj ht
      have hid := h.monitored id ref href
      obtain ⟨swap', hswap', rfl⟩ := State.idOf_eq_some.mp hid
      obtain rfl := Option.some.inj (hswap.symm.trans hswap')
      have hal : SwapManager.alive s.log swap.id = true := by
        rw [h.alive, href]
        rfl
      have hresuming : (Phase.resuming).Quiet := trivial
      have hself : (s.tasks.set k ⟨ref, .resume, .resuming⟩)[k]? =
          some ⟨ref, .resume, .resuming⟩ := List.getElem?_set_self hk
      exact (h.turn hresuming k ref .resume).executeAutonomousAction hself hid hal
  · cases ht

theorem polled {again : Bool} {poll : Poll} {t : State} (h : Inv history finals s)
    (hswap : s.swap? ref = some swap)
    (hok : TaskCondition history s swap caller (.polling again) (.polled poll))
    (ht : taskStep config s k ⟨ref, caller, .polling again⟩ swap (.polling again) (.polled poll) =
      some t) : Inv history finals t := by
  have hended : (Phase.ended).Quiet := trivial
  cases poll with
  | found status =>
    obtain rfl := Option.some.inj ht
    apply ((h.with_counts _).enter_quiet hended).handleSwapStatusUpdate hswap hok.1
    intro hne
    show SwapManager.alive s.log swap.id = true
    rw [h.alive, ← Option.ne_none_iff_isSome]
    exact fun hnone ↦ hne (hok.2 hnone)
  | notFound =>
    obtain rfl := Option.some.inj ht
    exact (h.enter_quiet hended).handleSwapNotFound hswap fun hm hcount ↦
      (hok hm hcount).enter hended
  | rateLimited =>
    obtain rfl := Option.some.inj ht
    split
    · exact h.enter_quiet hended
    · exact (h.with_poll_timers _).enter_quiet hended
  | fails =>
    obtain rfl := Option.some.inj ht
    exact h.enter_quiet hended

theorem taskStep {answer : Answer} {t : State} (h : Inv history finals s)
    (hk : s.tasks[k]? = some task) (hswap : s.swap? task.ref = some swap)
    (hok : TaskCondition history s swap task.caller task.phase answer)
    (ht : taskStep config s k task swap task.phase answer = some t) : Inv history finals t := by
  obtain ⟨ref, caller, phase⟩ := task
  have hid : s.idOf ref = some swap.id := State.idOf_of_swap? hswap
  have hended : (Phase.ended).Quiet := trivial
  cases phase with
  | connecting | resuming | ended => cases answer <;> cases ht
  | polling again =>
    cases answer with
    | polled poll => exact h.polled hswap hok ht
    | saved | called | goesOn | next => cases ht
  | saving copy =>
    cases answer with
    | saved ok now =>
      obtain rfl := Option.some.inj ht
      have hs : Inv history finals (s.add (.saved ref copy)) := h.add_saved hk rfl
      split
      · exact h.enter_quiet hended
      split
      · exact hs.executeAutonomousAction hk hid (h.holder_alive hk trivial hid)
      · exact hs.enter_quiet trivial
    | polled | called | goesOn | next => cases ht
  | calling callback promise =>
    cases answer with
    | called outcome now =>
      obtain rfl := Option.some.inj ht
      cases outcome with
      | resolves txid skipped retryAt => exact h.resolves hk rfl hswap txid skipped retryAt now
      | rejects => exact h.rejects hk rfl hswap now
    | polled | saved | goesOn | next => cases ht
  | scheduling callback delayMs again copy =>
    cases answer with
    | saved ok now =>
      obtain rfl := Option.some.inj ht
      have hs : Inv history finals
          ((s.add (.saved ref copy)).armRefundRetryTimer swap.id delayMs) :=
        (h.add_saved hk rfl).arm delayMs
      split
      · dsimp only
        split
        · exact hs.finish ⟨_, hk, trivial, hid⟩
        · exact hs.add_done.finish ⟨_, hk, trivial, hid⟩
      · exact h.saveFailed hk trivial trivial hid again now
    | polled | called | goesOn | next => cases ht
  | clearing callback thrown copy =>
    cases answer with
    | saved ok now =>
      obtain rfl := Option.some.inj ht
      have hs : Inv history finals (s.add (.saved ref copy)) := h.add_saved hk rfl
      split
      · exact (hs.executedOr thrown).finish ⟨_, hk, trivial, hid⟩
      · exact h.saveFailed hk trivial trivial hid thrown now
    | polled | called | goesOn | next => cases ht
  | returned ran =>
    cases answer with
    | goesOn now =>
      obtain rfl := Option.some.inj ht
      exact h.afterAction hok
    | polled | saved | called | next => cases ht
  | removing copy =>
    cases answer with
    | saved ok now =>
      obtain rfl := Option.some.inj ht
      split
      · exact ((h.add_saved hk rfl).with_counts _).enter_quiet hended
      · exact h.enter_quiet hended
    | polled | called | goesOn | next => cases ht
  | forgetting copy =>
    cases answer with
    | saved ok now =>
      obtain rfl := Option.some.inj ht
      have hdone : ∀ u, Inv history finals u → Inv history finals
          (((u.add (.failed ref)).add (.unsubscribed swap.id)).enter k .ended) := fun u hu ↦
        hu.add_failed.add_unsubscribed.enter_quiet hended
      apply hdone
      split
      · exact h.add_saved hk rfl
      · exact h
    | polled | called | goesOn | next => cases ht

theorem start {swaps : List (Ref × BoltzSwap)} (h : Inv history finals s)
    (hswaps : ∀ e ∈ swaps, s.swap? e.1 = some e.2) : Inv history finals (start config s swaps) := by
  refine Inv.spawn_quiet ?_ (show Phase.Quiet .connecting from trivial)
  have hm : ∀ t, Inv history finals t → t.objects = s.objects →
      Inv history finals ((swaps.filter (·.2.shouldMonitorOnStart config.enableAutoActions)).foldl
        (fun s e ↦ SwapManager.monitor s e.1 e.2) t) := by
    intro t ht hobjects
    refine (List.foldlRecOn (motive := fun t ↦ Inv history finals t ∧ t.objects = s.objects) _ _
      ⟨ht, hobjects⟩ ?_).1
    rintro t ⟨ht, hobjects⟩ e he
    have hswap : t.swap? e.1 = some e.2 := by
      rw [State.swap?, hobjects]
      exact hswaps e (List.mem_filter.mp he).1
    exact ⟨ht.monitor hswap, hobjects⟩
  exact hm _ (h.same rfl rfl rfl rfl rfl) rfl

theorem removeSwap (h : Inv history finals s) (hidle : s.Idle id)
    (hlast : ∀ ref swap status, JsMap.get s.monitoredSwaps id = some ref →
      s.swap? ref = some swap → lastStatus s.log id = some status → swap.status = status) :
    Inv history finals (removeSwap s id) := by
  have hd : Inv history finals (((s.add (.unsubscribed id)).dropTimers id).add (.removed id)) :=
    h.add_unsubscribed.drop hidle trivial (fun _ ↦ rfl) fun _ _ ↦ rfl
  have hremoved : ∀ notFoundCounts, Inv history finals { s.dropTimers id with
      chainClaimPromises := JsMap.erase id s.chainClaimPromises
      notFoundCounts := notFoundCounts
      log := .removed id :: .unsubscribed id :: s.log } := fun _ ↦
    hd.same rfl rfl rfl rfl rfl
  unfold SwapManager.removeSwap
  dsimp only
  split
  · exact hremoved _
  · rename_i ref href
    split
    · exact hremoved _
    · rename_i swap hswap
      have hid := h.monitored id ref href
      obtain ⟨swap', hswap', rfl⟩ := State.idOf_eq_some.mp hid
      obtain rfl := Option.some.inj (hswap.symm.trans hswap')
      split
      · apply ((hremoved s.notFoundCounts).modify_retry none).spawn
        · exact id
        · exact False.elim
        · intro copy hcopy
          obtain rfl := Option.some.inj hcopy
          exact ⟨(State.idOf_modify fun _ ↦ by rfl).trans hid, fun _ status hst ↦
            hlast ref swap status href hswap hst⟩
      · exact hremoved _

theorem create (h : Inv history finals s) (habsorbing : Absorbing history swap) :
    Inv history finals { s with objects := s.objects ++ [swap] } := by
  have hswap : ∀ {ref' swap'}, s.swap? ref' = some swap' →
      State.swap? { s with objects := s.objects ++ [swap] } ref' = some swap' := by
    intro ref' swap' hswap
    exact (List.getElem?_append_left (List.getElem?_eq_some_iff.mp hswap).1).trans hswap
  have hid : ∀ {ref' id'}, s.idOf ref' = some id' →
      State.idOf { s with objects := s.objects ++ [swap] } ref' = some id' := by
    intro ref' id' hid
    obtain ⟨swap', hswap', rfl⟩ := State.idOf_eq_some.mp hid
    exact State.idOf_of_swap? (hswap hswap')
  refine ⟨h.alive, fun id ref hm ↦ hid (h.monitored id ref hm), ?_, ?_, ?_, ?_, ?_, ?_, h.log⟩
  · intro k task hk hlive
    obtain ⟨id', hid', hal⟩ := h.live k task hk hlive
    exact ⟨id', hid hid', hal⟩
  · intro k task hk hacting
    obtain ⟨id', hid', hlock⟩ := h.locked k task hk hacting
    exact ⟨id', hid hid', hlock⟩
  · intro j k task other id' hj hk hacting hacting' hid' hid''
    obtain ⟨a, ha, -⟩ := h.locked j task hj hacting
    obtain ⟨b, hb, -⟩ := h.locked k other hk hacting'
    obtain rfl := Option.some.inj ((hid ha).symm.trans hid')
    obtain rfl := Option.some.inj ((hid hb).symm.trans hid'')
    exact h.apart j k task other _ hj hk hacting hacting' ha hb
  · intro k task copy hk hcopy
    obtain ⟨hid', hst⟩ := h.copies k task copy hk hcopy
    exact ⟨hid hid', hst⟩
  · intro ref' swap' hnew
    rcases Nat.lt_or_ge ref' s.objects.length with hlt | hge
    · exact h.absorbing ref' swap' ((List.getElem?_append_left hlt).symm.trans hnew)
    · have hmem : swap' ∈ [swap] :=
        List.mem_of_getElem? ((List.getElem?_append_right hge).symm.trans hnew)
      obtain rfl := List.mem_singleton.mp hmem
      exact habsorbing
  · intro ref' hf
    obtain ⟨swap', hswap', hfin⟩ := h.finals ref' hf
    exact ⟨swap', hswap hswap', hfin⟩

end Inv

variable {history : SwapId → ℕ → BoltzSwapStatus} {finals : Ref → Prop} {config : Config}
  {s t u : State}

theorem inv_step {input : Input} (h : Inv history finals s) (hok : Condition history s input)
    (ht : step config s input = some t) : Inv history finals t := by
  cases input with
  | create swap =>
    obtain rfl := Option.some.inj ht
    exact h.create hok
  | start refs =>
    simp only [step] at ht
    split at ht
    · cases ht
    obtain ⟨swaps, hswaps, ht⟩ := Option.bind_eq_some_iff.mp ht
    obtain rfl := Option.some.inj ht
    exact h.start (swaps_of_mapM hswaps)
  | stop =>
    simp only [step] at ht
    split at ht
    · obtain rfl := Option.some.inj ht
      have hstopped : Inv history finals (s.add .stopped) :=
        h.add_plain (fun _ ↦ trivial) (fun _ ↦ rfl) fun _ ↦ rfl
      exact hstopped.same rfl rfl rfl rfl rfl
    · cases ht
  | addSwap ref =>
    obtain ⟨swap, hswap, rfl⟩ := Option.map_eq_some_iff.mp ht
    exact h.monitor hswap
  | removeSwap id =>
    obtain rfl := Option.some.inj ht
    exact h.removeSwap hok.1 hok.2
  | message id status =>
    simp only [step] at ht
    split at ht
    · cases ht
    obtain ⟨ref, href, ht⟩ := Option.bind_eq_some_iff.mp ht
    obtain ⟨swap, hswap, ht⟩ := Option.bind_eq_some_iff.mp ht
    obtain rfl := Option.some.inj ht
    apply h.handleSwapStatusUpdate hswap (hok ref swap href hswap)
    intro
    obtain ⟨swap', hswap', rfl⟩ := State.idOf_eq_some.mp (h.monitored id ref href)
    obtain rfl := Option.some.inj (hswap.symm.trans hswap')
    rw [h.alive, href]
    rfl
  | poll id =>
    simp only [step] at ht
    split at ht
    · cases ht
    obtain ⟨ref, href, ht⟩ := Option.bind_eq_some_iff.mp ht
    split at ht
    · cases ht
    obtain rfl := Option.some.inj ht
    exact h.spawn_quiet trivial
  | pollRetry id =>
    obtain ⟨ref, href, ht⟩ := Option.bind_eq_some_iff.mp ht
    obtain rfl := Option.some.inj ht
    exact (h.with_poll_timers _).spawn_quiet trivial
  | refundRetry id =>
    obtain ⟨_, -, ht⟩ := Option.bind_eq_some_iff.mp ht
    have htimers : Inv history finals
        { s with refundRetryTimers := JsMap.erase id s.refundRetryTimers } :=
      h.same rfl rfl rfl rfl rfl
    dsimp only at ht
    split at ht
    · obtain rfl := Option.some.inj ht
      exact htimers
    split at ht
    · obtain rfl := Option.some.inj ht
      exact htimers
    · rename_i ref href
      obtain ⟨swap, hswap, ht⟩ := Option.bind_eq_some_iff.mp ht
      obtain rfl := Option.some.inj ht
      have hid := h.monitored id ref href
      obtain ⟨swap', hswap', rfl⟩ := State.idOf_eq_some.mp hid
      obtain rfl := Option.some.inj (hswap.symm.trans hswap')
      have hal : alive s.log swap.id = true := by
        rw [h.alive]
        exact Option.isSome_of_mem href
      have hreturned : (Phase.returned false).Quiet := trivial
      have hlast : (s.tasks ++ [⟨ref, .retry, .returned false⟩])[s.tasks.length]? =
          some ⟨ref, .retry, .returned false⟩ := List.getElem?_concat_length
      exact (htimers.spawn_quiet hreturned).executeAutonomousAction hlast hid hal
  | task k answer =>
    obtain ⟨task, hk, ht⟩ := Option.bind_eq_some_iff.mp ht
    split at ht
    · rename_i hstart
      obtain rfl := Option.some.inj ht
      exact h.startStep hstart (List.getElem?_eq_some_iff.mp hk).1
    · obtain ⟨swap, hswap, ht⟩ := Option.bind_eq_some_iff.mp ht
      exact h.taskStep hk hswap (hok task swap hk hswap) ht

theorem inv_initial : Inv history (fun _ ↦ False) initial where
  alive _ := rfl
  monitored _ _ hm := by cases hm
  live _ _ hk := absurd hk (by simp [initial])
  locked _ _ hk := absurd hk (by simp [initial])
  apart _ _ _ _ _ hj := absurd hj (by simp [initial])
  copies _ _ _ hk := absurd hk (by simp [initial])
  absorbing _ _ hswap := absurd hswap (by simp [initial, State.swap?])
  finals _ := False.elim
  log := trivial

/-- A swap that a log leaves monitored after it was dropped has been monitored anew. -/
theorem monitored_of_alive {log between : List Entry} {id : SwapId}
    (hdead : alive log id = false) (h : alive (between ++ log) id = true) :
    ∃ ref, Entry.monitored id ref ∈ between := by
  induction between with
  | nil => exact absurd h (by rw [List.nil_append, hdead]; exact Bool.false_ne_true)
  | cons e between ih =>
    have hrest : alive (between ++ log) id = true →
        ∃ ref, Entry.monitored id ref ∈ e :: between := by
      intro h
      obtain ⟨ref, href⟩ := ih h
      exact ⟨ref, List.mem_cons_of_mem _ href⟩
    cases e with
    | monitored id' ref =>
      rcases (Bool.or_eq_true _ _).mp h with hid | h
      · obtain rfl := of_decide_eq_true hid
        exact ⟨ref, List.mem_cons_self⟩
      · exact hrest h
    | completed | removed | unknown => exact hrest ((Bool.and_eq_true _ _).mp h).2
    | updated | unsubscribed | started | executed | refunded | refundThrew | failed | saved
    | stopped =>
      exact hrest h

structure FinalityKept (s t : State) : Prop where
  absorbing : ∀ ref swap, s.swap? ref = some swap → swap.isFinalStatus = true →
    ∃ swap', t.swap? ref = some swap' ∧ swap'.isFinalStatus = true
  once : ∀ after between before id ref ref' ran ran',
    t.log = after ++ Entry.completed id ref ran ::
        (between ++ Entry.completed id ref' ran' :: before) →
      ∃ r, Entry.monitored id r ∈ between
  apart : ∀ (j k : ℕ) task other id callback callback' promise promise',
    t.tasks[j]? = some task → t.tasks[k]? = some other →
      task.phase = .calling callback promise → other.phase = .calling callback' promise' →
        t.idOf task.ref = some id → t.idOf other.ref = some id → j = k
  started : ∀ after before id ref callback,
    t.log = after ++ Entry.started id ref callback :: before → alive before id = true
  saved : ∀ after before ref copy, t.log = after ++ Entry.saved ref copy :: before →
    alive before copy.id = false →
      ∀ status, lastStatus before copy.id = some status → copy.status = status

theorem finality_kept (h : Run (step config) (Condition history) initial s)
    (h' : Run (step config) (Condition history) s t) : FinalityKept s t := by
  have hs : Inv history (fun _ ↦ False) s :=
    h.invariant (fun _ _ _ hinv hok ht ↦ inv_step hinv hok ht) inv_initial
  have hbase : Inv history
      (fun ref ↦ ∃ swap, s.swap? ref = some swap ∧ swap.isFinalStatus = true) s :=
    ⟨hs.alive, hs.monitored, hs.live, hs.locked, hs.apart, hs.copies, hs.absorbing, fun _ hf ↦ hf,
      hs.log⟩
  have ht := h'.invariant (fun _ _ _ hinv hok ht ↦ inv_step hinv hok ht) hbase
  exact {
    absorbing := fun ref swap hswap hfin ↦ ht.finals ref ⟨swap, hswap, hfin⟩
    once := by
      intro after between before id ref ref' ran ran' hlog
      have hchronicle := ht.log
      rw [hlog] at hchronicle
      have hal : alive (between ++ .completed id ref' ran' :: before) id = true := hchronicle.entry
      apply monitored_of_alive _ hal
      show (decide (id ≠ id) && alive before id) = false
      simp
    apart := by
      intro j k task other id callback callback' promise promise' hj hk hphase hphase' hid hid'
      exact ht.apart j k task other id hj hk (hphase ▸ trivial) (hphase' ▸ trivial) hid hid'
    started := by
      intro after before id ref callback hlog
      have hchronicle := ht.log
      rw [hlog] at hchronicle
      exact hchronicle.entry
    saved := by
      intro after before ref copy hlog
      have hchronicle := ht.log
      rw [hlog] at hchronicle
      exact hchronicle.entry }

def sampleSwap : BoltzSwap := ⟨"s", .reverse "p", .swapCreated, none, none⟩

/-- A poll that was sent before a refund is answered after it. -/
theorem late_poll_overwrites : ∃ s t,
    exec (step ⟨true, false⟩) initial [.create sampleSwap, .start [0], .poll "s",
      .message "s" .transactionRefunded] = some s ∧
    exec (step ⟨true, false⟩) s [.task 1 (.polled (.found .transactionMempool))] = some t ∧
    ¬FinalityKept s t := by
  refine ⟨_, _, rfl, rfl, fun h ↦ ?_⟩
  obtain ⟨swap, hswap, hfin⟩ := h.absorbing 0 _ rfl rfl
  obtain rfl := Option.some.inj hswap
  exact absurd hfin (by decide)

def sampleHistory : SwapId → ℕ → BoltzSwapStatus := fun _ _ ↦ .transactionRefunded

def refunded : List Input := [.create sampleSwap, .start [0], .message "s" .transactionRefunded]

def finalized : List Input := [.task 1 (.saved true 0), .task 1 (.goesOn 0)]

theorem finality_kept_sample : ∃ s t, exec (step ⟨true, false⟩) initial refunded = some s ∧
    exec (step ⟨true, false⟩) s finalized = some t ∧ FinalityKept s t := by
  have hrefunded : Along (step ⟨true, false⟩) (Condition sampleHistory) initial refunded := by
    refine ⟨fun _ _ _ h ↦ h, fun t ht ↦ ⟨trivial, fun t' ht' ↦ ⟨?_, fun _ _ ↦ trivial⟩⟩⟩
    obtain rfl := Option.some.inj ht
    obtain rfl := Option.some.inj ht'
    intro ref swap href hswap hfin
    obtain rfl := Option.some.inj href
    obtain rfl := Option.some.inj hswap
    exact absurd hfin (by decide)
  have hfinalized : ∀ s, exec (step ⟨true, false⟩) initial refunded = some s →
      Along (step ⟨true, false⟩) (Condition sampleHistory) s finalized := by
    intro s hs
    obtain rfl := Option.some.inj hs
    refine ⟨fun task swap hk _ ↦ ?_, fun t ht ↦ ⟨fun task swap hk hswap ↦ ?_, fun _ _ ↦ trivial⟩⟩
    · obtain rfl := Option.some.inj hk
      trivial
    · obtain rfl := Option.some.inj ht
      obtain rfl := Option.some.inj hk
      obtain rfl := Option.some.inj hswap
      intro _ _ _ _ j other hj _
      match j with
      | 0 | 1 =>
        obtain rfl := Option.some.inj hj
        exact ⟨id, rfl⟩
      | j + 2 => cases hj
  obtain ⟨s, t, hs, ht⟩ : ∃ s t, exec (step ⟨true, false⟩) initial refunded = some s ∧
      exec (step ⟨true, false⟩) s finalized = some t := ⟨_, _, rfl, rfl⟩
  exact ⟨s, t, hs, ht, finality_kept (run_of_exec hs hrefunded)
    (run_of_exec ht (hfinalized s hs))⟩

end ArkadeSdk.SwapManager
