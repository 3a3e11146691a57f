import ArkadeSdk.Boltz.SwapStatus
import ArkadeSdk.Lib.JsMap

/-! The background manager of swaps: updates, polls, automatic actions and refund retries, each
running on after every call that it waits for. -/

namespace ArkadeSdk.SwapManager

/-- A swap object: several of them may have one id. -/
abbrev Ref := ℕ

/-- Who waits for an automatic action: an update, a refund timer, or the loop at a start. -/
inductive Caller
  | update
  | retry
  | resume
  deriving DecidableEq

/-- What a task waits for. A save holds the copy that it writes. -/
inductive Phase
  | polling (again : Bool)
  | saving (copy : BoltzSwap)
  | calling (callback : Callback) (promise : Option ℕ)
  | scheduling (callback : Callback) (delayMs : ℤ) (again : Bool) (copy : BoltzSwap)
  | clearing (callback : Callback) (thrown : Bool) (copy : BoltzSwap)
  | returned (ran : Bool)
  | connecting
  | resuming
  | removing (copy : BoltzSwap)
  | forgetting (copy : BoltzSwap)
  | ended
  deriving DecidableEq

structure Task where
  ref : Ref
  caller : Caller
  phase : Phase

/-- A chain claim, as its callback left it. -/
inductive ClaimPromise
  | pending
  | resolved (txid : String)
  | rejected
  deriving DecidableEq

/-- What the manager did. `updated` and `unknown`, with the swap as it was before, reach the
subscribers of a swap, and `unsubscribed` drops them. `completed` says whether the action before it
had run. -/
inductive Entry
  | monitored (id : SwapId) (ref : Ref)
  | updated (ref : Ref) (swap : BoltzSwap) (newStatus : BoltzSwapStatus) (locked : Bool)
  | unknown (ref : Ref) (swap : BoltzSwap)
  | unsubscribed (id : SwapId)
  | started (id : SwapId) (ref : Ref) (callback : Callback)
  | executed (ref : Ref) (callback : Callback)
  | refunded (id : SwapId) (skipped : ℕ)
  | refundThrew (id : SwapId) (callback : Callback)
  | failed (ref : Ref)
  | saved (ref : Ref) (copy : BoltzSwap)
  | removed (id : SwapId)
  | stopped
  | completed (id : SwapId) (ref : Ref) (ran : Bool)
  deriving DecidableEq

structure State where
  objects : List BoltzSwap
  monitoredSwaps : JsMap.Entries SwapId Ref
  initialSwaps : JsMap.Entries SwapId Ref
  isRunning : Bool
  refundRetryTimers : JsMap.Entries SwapId ℤ
  pollRetryTimers : JsMap.Entries SwapId Ref
  notFoundCounts : JsMap.Entries SwapId ℕ
  swapsInProgress : List SwapId
  chainClaimPromises : JsMap.Entries SwapId ℕ
  promises : List ClaimPromise
  tasks : List Task
  log : List Entry

def initial : State := ⟨[], [], [], false, [], [], [], [], [], [], [], []⟩

def NOT_FOUND_THRESHOLD : ℕ := 10

namespace State

def swap? (s : State) (ref : Ref) : Option BoltzSwap := s.objects[ref]?

def modify (s : State) (ref : Ref) (f : BoltzSwap → BoltzSwap) : State :=
  { s with objects := s.objects.modify ref f }

def add (s : State) (entry : Entry) : State := { s with log := entry :: s.log }

def spawn (s : State) (ref : Ref) (caller : Caller) (phase : Phase) : State :=
  { s with tasks := s.tasks ++ [⟨ref, caller, phase⟩] }

def enter (s : State) (k : ℕ) (phase : Phase) : State :=
  { s with tasks := s.tasks.modify k fun task ↦ { task with phase := phase } }

def unlock (s : State) (id : SwapId) : State :=
  { s with swapsInProgress := s.swapsInProgress.filter (· ≠ id) }

/-- The end of `executeAutonomousAction` in task `k`, which held the lock. -/
def finish (s : State) (k : ℕ) (id : SwapId) : State := (s.unlock id).enter k (.returned true)

def armRefundRetryTimer (s : State) (id : SwapId) (delayMs : ℤ) : State :=
  { s with refundRetryTimers := JsMap.set id delayMs s.refundRetryTimers }

/-- What `removeSwap`, a final status and an unknown swap have in common. -/
def dropTimers (s : State) (id : SwapId) : State :=
  { s with
    monitoredSwaps := JsMap.erase id s.monitoredSwaps
    pollRetryTimers := JsMap.erase id s.pollRetryTimers
    refundRetryTimers := JsMap.erase id s.refundRetryTimers }

/-- `ran` is for the log alone. -/
def finalizeMonitoredSwap (s : State) (ref : Ref) (swap : BoltzSwap) (ran : Bool) : State :=
  if (JsMap.get s.monitoredSwaps swap.id).isNone then s
  else
    let s := (s.dropTimers swap.id).add (.unsubscribed swap.id)
    { s with chainClaimPromises := JsMap.erase swap.id s.chainClaimPromises }.add
      (.completed swap.id ref ran)

def call (s : State) (k : ℕ) (ref : Ref) (id : SwapId) (callback : Callback) : State :=
  let s := s.add (.started id ref callback)
  match callback with
  | .claimArk | .claimBtc =>
    { s with
      promises := s.promises ++ [ClaimPromise.pending]
      chainClaimPromises := JsMap.set id s.promises.length s.chainClaimPromises }.enter k
        (.calling callback (some s.promises.length))
  | .claim | .refund | .refundArk | .signServerClaim => s.enter k (.calling callback none)

def executeAutonomousAction (config : Config) (s : State) (k : ℕ) (ref : Ref) (swap : BoltzSwap) :
    State :=
  if swap.id ∈ s.swapsInProgress then s.enter k (.returned false)
  else match autonomousAction config swap with
    | none => s.enter k (.returned true)
    | some callback =>
      { s with swapsInProgress := swap.id :: s.swapsInProgress }.call k ref swap.id callback

def scheduleRefundRetry (s : State) (k : ℕ) (ref : Ref) (swap : BoltzSwap) (callback : Callback)
    (delayMs now : ℤ) (again : Bool) : State :=
  let retry : RefundRetryState := ⟨true, some (nextRefundRetryAt delayMs now)⟩
  (s.modify ref fun swap ↦ { swap with refundRetry := some retry }).enter k
    (.scheduling callback delayMs again { swap with refundRetry := some retry })

/-- What follows an action, unless it threw. -/
def executedOr (s : State) (ref : Ref) (callback : Callback) (thrown : Bool) : State :=
  s.add (if thrown then .failed ref else .executed ref callback)

def clearRefundRetry (s : State) (k : ℕ) (ref : Ref) (swap : BoltzSwap) (callback : Callback)
    (thrown : Bool) : State :=
  if swap.refundRetry.isNone then (s.executedOr ref callback thrown).finish k swap.id
  else (s.modify ref fun swap ↦ { swap with refundRetry := none }).enter k
    (.clearing callback thrown { swap with refundRetry := none })

/-- `handleSwapStatusUpdate` up to its save. -/
def handleSwapStatusUpdate (s : State) (ref : Ref) (swap : BoltzSwap)
    (newStatus : BoltzSwapStatus) : State :=
  let s := { s with notFoundCounts := JsMap.erase swap.id s.notFoundCounts }
  if swap.status = newStatus then s
  else ((s.modify ref fun swap ↦ { swap with status := newStatus }).add
    (.updated ref swap newStatus (swap.id ∈ s.swapsInProgress))).spawn ref .update
      (.saving { swap with status := newStatus })

def markSwapAsUnknownToProvider (s : State) (ref : Ref) (swap : BoltzSwap) : State :=
  if (JsMap.get s.refundRetryTimers swap.id).isSome then s
  else
    let counted := { s with notFoundCounts := JsMap.erase swap.id s.notFoundCounts }
    if (JsMap.get s.monitoredSwaps swap.id).isNone then counted
    else (((counted.modify ref fun swap ↦ { swap with status := .swapExpired }).dropTimers
      swap.id).add (.unknown ref swap)).spawn ref .update
        (.forgetting { swap with status := .swapExpired })

def handleSwapNotFound (s : State) (ref : Ref) (swap : BoltzSwap) : State :=
  if (JsMap.get s.refundRetryTimers swap.id).isSome then s
  else
    let count := (JsMap.get s.notFoundCounts swap.id).getD 0 + 1
    let s := { s with notFoundCounts := JsMap.set swap.id count s.notFoundCounts }
    if NOT_FOUND_THRESHOLD ≤ count then s.markSwapAsUnknownToProvider ref swap else s

end State

inductive Poll
  | found (status : BoltzSwapStatus)
  | notFound
  | rateLimited
  | fails

/-- What a callback's promise comes to; only some of it means something to each callback. -/
inductive Outcome
  | resolves (txid : String) (skipped : ℕ) (retryAt : Option ℤ)
  | rejects

/-- `now` is the clock when the task goes on. -/
inductive Answer
  | polled (poll : Poll)
  | saved (ok : Bool) (now : ℤ)
  | called (outcome : Outcome) (now : ℤ)
  | goesOn (now : ℤ)
  | next (id : Option SwapId)

/-- After a callback in an automatic action. -/
def afterCall (config : Config) (s : State) (k : ℕ) (ref : Ref) (swap : BoltzSwap)
    (callback : Callback) (promise : Option ℕ) (now : ℤ) : Outcome → State
  | .resolves txid skipped retryAt =>
    match callback with
    | .claim | .signServerClaim => (s.add (.executed ref callback)).finish k swap.id
    | .claimArk | .claimBtc =>
      let s := { s with
        promises := (promise.map (s.promises.set · (.resolved txid))).getD s.promises }
      let s := if txid = "" then s else s.modify ref fun swap ↦ { swap with claimTxid := some txid }
      let s := s.add (.executed ref callback)
      match callback, signing config swap with
      | .claimArk, some sign => s.call k ref swap.id sign
      | _, _ => s.finish k swap.id
    | .refund | .refundArk =>
      let s := s.add (.refunded swap.id skipped)
      if 0 < skipped then
        s.scheduleRefundRetry k ref swap callback (refundRetryDelayMs retryAt now) now false
      else s.clearRefundRetry k ref swap callback false
  | .rejects =>
    match callback with
    | .claim => (s.add (.failed ref)).finish k swap.id
    | .signServerClaim => s.finish k swap.id
    | .claimArk | .claimBtc =>
      let s := { s with promises := (promise.map (s.promises.set · .rejected)).getD s.promises }
      (s.add (.failed ref)).finish k swap.id
    | .refund => (s.add (.refundThrew swap.id callback)).clearRefundRetry k ref swap callback true
    | .refundArk => ((s.add (.refundThrew swap.id callback)).add (.failed ref)).scheduleRefundRetry
        k ref swap callback REFUND_RETRY_DELAY_MS now true

/-- A failed save within the refund of a chain swap is caught, and the retry scheduled once more. -/
def saveFailed (s : State) (k : ℕ) (ref : Ref) (swap : BoltzSwap) (callback : Callback)
    (again : Bool) (now : ℤ) : State :=
  if callback = .refundArk ∧ again = false then
    (s.add (.failed ref)).scheduleRefundRetry k ref swap callback REFUND_RETRY_DELAY_MS now true
  else (s.add (.failed ref)).finish k swap.id

/-- After `executeAutonomousAction`. -/
def afterAction (s : State) (k : ℕ) (ref : Ref) (swap : BoltzSwap) (ran : Bool) : Caller → State
  | .update =>
    if swap.isFinalStatus && (JsMap.get s.refundRetryTimers swap.id).isNone then
      (s.enter k .ended).finalizeMonitoredSwap ref swap ran
    else s.enter k .ended
  | .retry =>
    if ran && swap.isFinalStatus && (JsMap.get s.refundRetryTimers swap.id).isNone then
      (s.enter k .ended).finalizeMonitoredSwap ref swap ran
    else s.enter k .ended
  | .resume => s.enter k .resuming

def resumePersistedRefundRetries (s : State) (now : ℤ) : State :=
  s.monitoredSwaps.foldl (fun t e ↦ match s.swap? e.2 with
    | none => t
    | some swap =>
      if swap.hasPendingRefundRetry then
        match swap.refundRetry.bind (·.nextRetryAt) with
        | none => t
        | some nextRetryAt =>
          t.armRefundRetryTimer swap.id (persistedRefundRetryDelayMs nextRetryAt now)
      else t) s

/-- A start goes on: the retries that were saved, then one swap after the other, in the order that
the map has by then. -/
def startStep (config : Config) (s : State) (k : ℕ) : Phase → Answer → Option State
  | .connecting, .goesOn now =>
    some <| if config.enableAutoActions then (resumePersistedRefundRetries s now).enter k .resuming
      else s.enter k .ended
  | .resuming, .next none => some (s.enter k .ended)
  | .resuming, .next (some id) => do
    let ref ← JsMap.get s.monitoredSwaps id
    let swap ← s.swap? ref
    if (JsMap.get s.refundRetryTimers swap.id).isSome ∨ isResumable swap = false then some s
    else some (({ s with tasks := s.tasks.set k ⟨ref, .resume, .resuming⟩ }).executeAutonomousAction
      config k ref swap)
  | _, _ => none

def taskStep (config : Config) (s : State) (k : ℕ) (task : Task) (swap : BoltzSwap) :
    Phase → Answer → Option State
  | .polling _, .polled (.found status) =>
    some <| ({ s with notFoundCounts := JsMap.erase swap.id s.notFoundCounts }.enter k
      .ended).handleSwapStatusUpdate task.ref swap status
  | .polling _, .polled .notFound => some ((s.enter k .ended).handleSwapNotFound task.ref swap)
  | .polling again, .polled .rateLimited =>
    some <| if again then s.enter k .ended
      else { s with pollRetryTimers := JsMap.set swap.id task.ref s.pollRetryTimers }.enter k .ended
  | .polling _, .polled .fails => some (s.enter k .ended)
  | .saving copy, .saved ok _ =>
    some <| if ok = false then s.enter k .ended
      else if config.enableAutoActions then
        (s.add (.saved task.ref copy)).executeAutonomousAction config k task.ref swap
      else (s.add (.saved task.ref copy)).enter k (.returned true)
  | .calling callback promise, .called outcome now =>
    some (afterCall config s k task.ref swap callback promise now outcome)
  | .scheduling callback delayMs again copy, .saved ok now =>
    some <| if ok then
        let s := (s.add (.saved task.ref copy)).armRefundRetryTimer swap.id delayMs
        (if again then s else s.add (.executed task.ref callback)).finish k swap.id
      else saveFailed s k task.ref swap callback again now
  | .clearing callback thrown copy, .saved ok now =>
    some <| if ok then ((s.add (.saved task.ref copy)).executedOr task.ref callback thrown).finish k
        swap.id
      else saveFailed s k task.ref swap callback thrown now
  | .returned ran, .goesOn _ => some (afterAction s k task.ref swap ran task.caller)
  | .removing copy, .saved ok _ =>
    some <| if ok then { (s.add (.saved task.ref copy)) with
        notFoundCounts := JsMap.erase swap.id s.notFoundCounts }.enter k .ended
      else s.enter k .ended
  | .forgetting copy, .saved ok _ =>
    let s := if ok then s.add (.saved task.ref copy) else s
    some (((s.add (.failed task.ref)).add (.unsubscribed swap.id)).enter k .ended)
  | _, _ => none

/-- `create` makes an object that is handed in later. -/
inductive Input
  | create (swap : BoltzSwap)
  | start (refs : List Ref)
  | stop
  | addSwap (ref : Ref)
  | removeSwap (id : SwapId)
  | message (id : SwapId) (status : BoltzSwapStatus)
  | poll (id : SwapId)
  | pollRetry (id : SwapId)
  | refundRetry (id : SwapId)
  | task (k : ℕ) (answer : Answer)

def monitor (s : State) (ref : Ref) (swap : BoltzSwap) : State :=
  { s with monitoredSwaps := JsMap.set swap.id ref s.monitoredSwaps }.add (.monitored swap.id ref)

def start (config : Config) (s : State) (swaps : List (Ref × BoltzSwap)) : State :=
  let s := { s with
    isRunning := true
    initialSwaps := swaps.foldl (fun m e ↦ JsMap.set e.2.id e.1 m) []
    chainClaimPromises := [] }
  let s := (swaps.filter (·.2.shouldMonitorOnStart config.enableAutoActions)).foldl
    (fun s e ↦ monitor s e.1 e.2) s
  s.spawn 0 .resume .connecting

def removeSwap (s : State) (id : SwapId) : State :=
  let removed := { (s.dropTimers id) with
    chainClaimPromises := JsMap.erase id s.chainClaimPromises }.add (.unsubscribed id) |>.add
      (.removed id)
  let counted := { removed with notFoundCounts := JsMap.erase id s.notFoundCounts }
  match JsMap.get s.monitoredSwaps id with
  | none => counted
  | some ref =>
    match s.swap? ref with
    | none => counted
    | some swap =>
      if swap.isRefundRetryableSwap && swap.refundRetry.isSome then
        (removed.modify ref fun swap ↦ { swap with refundRetry := none }).spawn ref .update
          (.removing { swap with refundRetry := none })
      else counted

def step (config : Config) (s : State) : Input → Option State
  | .create swap => some { s with objects := s.objects ++ [swap] }
  | .start refs =>
    if s.isRunning then none
    else do
      let swaps ← refs.mapM fun ref ↦ (s.swap? ref).map fun swap ↦ (ref, swap)
      some (start config s swaps)
  | .stop =>
    if s.isRunning then some ({ s with
      isRunning := false
      pollRetryTimers := []
      refundRetryTimers := []
      notFoundCounts := [] }.add .stopped)
    else none
  | .addSwap ref => (s.swap? ref).map fun swap ↦ monitor s ref swap
  | .removeSwap id => some (removeSwap s id)
  | .message id status => do
    if s.isRunning = false then none
    let ref ← JsMap.get s.monitoredSwaps id
    let swap ← s.swap? ref
    some (s.handleSwapStatusUpdate ref swap status)
  | .poll id => do
    if s.isRunning = false then none
    let ref ← JsMap.get s.monitoredSwaps id
    if (JsMap.get s.refundRetryTimers id).isSome then none
    some (s.spawn ref .update (.polling false))
  | .pollRetry id => do
    let ref ← JsMap.get s.pollRetryTimers id
    some ({ s with pollRetryTimers := JsMap.erase id s.pollRetryTimers }.spawn ref .update
      (.polling true))
  | .refundRetry id => do
    let _ ← JsMap.get s.refundRetryTimers id
    let s := { s with refundRetryTimers := JsMap.erase id s.refundRetryTimers }
    if s.isRunning = false then some s
    else match JsMap.get s.monitoredSwaps id with
      | none => some s
      | some ref => do
        let swap ← s.swap? ref
        some ((s.spawn ref .retry (.returned false)).executeAutonomousAction config s.tasks.length
          ref swap)
  | .task k answer => do
    let task ← s.tasks[k]?
    match startStep config s k task.phase answer with
    | some t => some t
    | none => do
      let swap ← s.swap? task.ref
      taskStep config s k task swap task.phase answer

namespace State

def idOf (s : State) (ref : Ref) : Option SwapId := (s.swap? ref).map (·.id)

variable {s : State} {ref ref' : Ref} {k j : ℕ} {id : SwapId} {phase : Phase} {caller : Caller}
  {task : Task} {f : BoltzSwap → BoltzSwap}

theorem swap?_modify : (s.modify ref f).swap? ref' =
    (s.swap? ref').map fun swap ↦ if ref = ref' then f swap else swap := by
  simp only [swap?, modify, List.getElem?_modify]
  rfl

theorem swap?_modify_self {swap : BoltzSwap} (h : s.swap? ref = some swap) :
    (s.modify ref f).swap? ref = some (f swap) := by
  rw [swap?_modify, h, Option.map_some, if_pos rfl]

theorem swap?_modify_ne (h : ref ≠ ref') : (s.modify ref f).swap? ref' = s.swap? ref' := by
  simp only [swap?_modify, if_neg h, Option.map_id']

theorem idOf_modify (hf : ∀ swap, (f swap).id = swap.id) : (s.modify ref f).idOf ref' =
    s.idOf ref' := by
  simp only [idOf, swap?_modify, Option.map_map]
  congr 1
  funext swap
  simp only [Function.comp_apply]
  split
  · exact hf swap
  · rfl

theorem idOf_eq_some : s.idOf ref = some id ↔ ∃ swap, s.swap? ref = some swap ∧ swap.id = id :=
  Option.map_eq_some_iff

theorem idOf_of_swap? {swap : BoltzSwap} (h : s.swap? ref = some swap) :
    s.idOf ref = some swap.id := by
  rw [idOf, h, Option.map_some]

theorem tasks_enter (h : (s.enter k phase).tasks[j]? = some task) :
    j ≠ k ∧ s.tasks[j]? = some task ∨
      j = k ∧ ∃ old, s.tasks[k]? = some old ∧ task = { old with phase := phase } := by
  simp only [enter, List.getElem?_modify] at h
  obtain ⟨old, hold, rfl⟩ := Option.map_eq_some_iff.mp h
  by_cases hk : k = j
  · subst hk
    exact .inr ⟨rfl, old, hold, if_pos rfl⟩
  · rw [if_neg hk]
    exact .inl ⟨fun h ↦ hk h.symm, hold⟩

theorem tasks_enter_self (h : s.tasks[k]? = some task) :
    (s.enter k phase).tasks[k]? = some { task with phase := phase } := by
  simp only [enter, List.getElem?_modify, h]
  simp

theorem tasks_spawn (h : (s.spawn ref caller phase).tasks[j]? = some task) :
    s.tasks[j]? = some task ∨ j = s.tasks.length ∧ task = ⟨ref, caller, phase⟩ := by
  rw [spawn, List.getElem?_append] at h
  split at h
  · exact .inl h
  · rename_i hlen
    cases hj : j - s.tasks.length with
    | zero =>
      rw [hj] at h
      exact .inr ⟨by omega, (Option.some.inj h).symm⟩
    | succ => rw [hj] at h; simp at h

end State

theorem swaps_of_mapM {s : State} {refs : List Ref} {swaps : List (Ref × BoltzSwap)}
    (h : (refs.mapM fun ref ↦ (s.swap? ref).map fun swap ↦ (ref, swap)) = some swaps) :
    ∀ e ∈ swaps, s.swap? e.1 = some e.2 := by
  induction refs generalizing swaps with
  | nil =>
    obtain rfl := Option.some.inj h
    exact fun e he ↦ absurd he List.not_mem_nil
  | cons ref refs ih =>
    rw [List.mapM_cons] at h
    obtain ⟨e, he, h⟩ := Option.bind_eq_some_iff.mp h
    obtain ⟨swap, hswap, rfl⟩ := Option.map_eq_some_iff.mp he
    obtain ⟨rest, hrest, h⟩ := Option.bind_eq_some_iff.mp h
    obtain rfl := Option.some.inj h
    exact List.forall_mem_cons.mpr ⟨hswap, ih hrest⟩

end ArkadeSdk.SwapManager
