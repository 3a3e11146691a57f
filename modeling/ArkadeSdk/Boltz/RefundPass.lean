import ArkadeSdk.Boltz.ClaimGuard
import ArkadeSdk.Boltz.SwapStatus
import ArkadeSdk.Lib.Traced

/-! A refund of every output at a lockup: how each output is settled or put off, what ends the
pass, and what is kept of it. -/

namespace ArkadeSdk.RefundPass

open ClaimGuard SwapManager Traced

def CLTV_IMMATURE_RETRY_SEC : ℕ := 60

inductive Failure
  | forfeitClosureLocked
  | boltzRefund (message : String)
  | other (message : String)
  deriving DecidableEq

/-- The 3-of-3 with Boltz, or the leaf without the receiver: offchain, or by way of a batch. -/
inductive Path
  | boltz
  | offchain
  | batch
  deriving DecidableEq

/-- The clock is read in seconds; the height is unknown without a provider and after a failed
lookup. -/
inductive Event
  | clock (now : ℕ)
  | tip (height : Option ℕ)
  | submit (path : Path) (vtxo : VirtualCoin) (result : Except Failure Unit)
  | save (refundable refunded : Bool)
  deriving DecidableEq

structure Env where
  clock : List Event → ℕ
  tip : List Event → Option ℕ
  submit : Path → VirtualCoin → List Event → Except Failure Unit

structure Outcome where
  swept : ℕ
  skipped : ℕ
  retryAt : Option ℕ
  deriving DecidableEq

inductive Fate
  | swept
  | deferred (retryAt : ℕ)
  deriving DecidableEq

def Outcome.add (outcome : Outcome) : Fate → Outcome
  | .swept => { outcome with swept := outcome.swept + 1 }
  | .deferred candidate =>
    { outcome with
      skipped := outcome.skipped + 1
      retryAt := some ((outcome.retryAt.map (min · candidate)).getD candidate) }

section Pass

variable (env : Env) (refundLocktime : ℕ)

def readClock : Traced Event ℕ := ask env.clock .clock

def submit (path : Path) (vtxo : VirtualCoin) : Traced Event (Except Failure Unit) :=
  ask (env.submit path vtxo) (.submit path vtxo)

/-- The tip is not looked up for a locktime in seconds. -/
def chainTipSnapshotFor : Traced Event (Option ℕ) :=
  if isBlockHeightLocktime refundLocktime then ask env.tip .tip else pure none

/-- The clock is not read for a locktime in blocks. -/
def isRefundLocktimeReachedAt (tip : Option ℕ) : Traced Event Bool :=
  if isBlockHeightLocktime refundLocktime then
    pure (isRefundLocktimeReached refundLocktime 0 tip)
  else do
    let now ← readClock env
    return isRefundLocktimeReached refundLocktime now tip

def refundRetryAt : Traced Event ℕ :=
  if isBlockHeightLocktime refundLocktime then do
    let now ← readClock env
    return now + CLTV_IMMATURE_RETRY_SEC
  else pure refundLocktime

def settleRefundWithoutReceiver (vtxo : VirtualCoin) : Traced Event (Except Failure Unit) :=
  submit env (if isRecoverable vtxo then .batch else .offchain) vtxo

def trySettleRefundWithoutReceiver (vtxo : VirtualCoin) :
    Traced Event (Except Failure Bool) := do
  match ← settleRefundWithoutReceiver env vtxo with
  | .ok () => return .ok true
  | .error .forfeitClosureLocked => return .ok false
  | .error error => return .error error

/-- `sweptCount++`, or a deferral until a block has landed. -/
def settleOrDefer (vtxo : VirtualCoin) : Traced Event (Except Failure Fate) := do
  match ← trySettleRefundWithoutReceiver env vtxo with
  | .error error => return .error error
  | .ok true => return .ok .swept
  | .ok false =>
    let now ← readClock env
    return .ok (.deferred (now + CLTV_IMMATURE_RETRY_SEC))

def deferUntilLocktime : Traced Event (Except Failure Fate) := do
  let retryAt ← refundRetryAt env refundLocktime
  return .ok (.deferred retryAt)

/-- After a rejection by Boltz the locktime is looked at again. -/
def afterBoltzRejection (vtxo : VirtualCoin) : Traced Event (Except Failure Fate) := do
  let recheckTip ← chainTipSnapshotFor env refundLocktime
  let reached ← isRefundLocktimeReachedAt env refundLocktime recheckTip
  if reached then settleOrDefer env vtxo else deferUntilLocktime env refundLocktime

/-- One turn of the loop. -/
def refundVtxo (chainTip : Option ℕ) (vtxo : VirtualCoin) :
    Traced Event (Except Failure Fate) := do
  let reached ← isRefundLocktimeReachedAt env refundLocktime chainTip
  if reached then settleOrDefer env vtxo
  else if isRecoverable vtxo then deferUntilLocktime env refundLocktime
  else match ← submit env .boltz vtxo with
    | .ok () => return .ok .swept
    | .error (.boltzRefund _) => afterBoltzRejection env refundLocktime vtxo
    | .error error => return .error error

/-- The loop; what `refundVtxo` rethrows leaves it. -/
def refundEach (chainTip : Option ℕ) :
    List VirtualCoin → Outcome → Traced Event (Except Failure Outcome)
  | [], outcome => pure (.ok outcome)
  | vtxo :: vtxos, outcome => do
    match ← refundVtxo env refundLocktime chainTip vtxo with
    | .error error => return .error error
    | .ok fate => refundEach chainTip vtxos (outcome.add fate)

def refundVtxos (vtxos : List VirtualCoin) : Traced Event (Except Failure Outcome) := do
  let chainTip ← chainTipSnapshotFor env refundLocktime
  refundEach env refundLocktime chainTip vtxos ⟨0, 0, none⟩

structure SubmarineSwap where
  id : SwapId
  address : String
  status : BoltzSwapStatus

def isSubmarineSuccessStatus (status : BoltzSwapStatus) : Bool := status = .transactionClaimed

/-- What tells an empty lookup apart. -/
structure Diagnostic where
  totalVtxoCount : ℕ
  allSpent : Bool

def lookupError (swap : SubmarineSwap) (diagnostic : Option Diagnostic) : String :=
  if diagnostic.all (·.totalVtxoCount = 0) then
    "Swap " ++ swap.id ++ ": VHTLC not found for address " ++ swap.address
  else if diagnostic.any (·.allSpent) then "Swap " ++ swap.id ++ ": VHTLC is already spent"
  else "Swap " ++ swap.id ++ ": VHTLC has no refundable VTXOs yet"

/-- A swap that was claimed keeps its record. -/
def refundVHTLC (pendingSwap : SubmarineSwap) (refundableVtxos : List VirtualCoin)
    (diagnostic : Option Diagnostic) : Traced Event (Except Failure Outcome) :=
  if refundableVtxos.length = 0 then pure (.error (.other (lookupError pendingSwap diagnostic)))
  else do
    match ← refundVtxos env refundLocktime refundableVtxos with
    | .error error => return .error error
    | .ok outcome =>
      if isSubmarineSuccessStatus pendingSwap.status then return .ok outcome
      else
        let fullyRefunded := outcome.skipped = 0
        ask (fun _ ↦ ()) (fun _ ↦ .save true fullyRefunded)
        return .ok outcome

end Pass

section Specification

variable (refundLocktime : ℕ)

/-- What was read shows the locktime reached. -/
def Shows : Event → Prop
  | .clock now => isBlockHeightLocktime refundLocktime = false ∧ refundLocktime ≤ now
  | .tip height => isBlockHeightLocktime refundLocktime ∧ ∃ h ∈ height, refundLocktime ≤ h
  | _ => False

/-- Nothing goes to the leaf without the receiver before the locktime was seen reached. -/
def Guarded (before events : List Event) : Prop :=
  ∀ earlier path vtxo result later, events = earlier ++ Event.submit path vtxo result :: later →
    path ≠ .boltz → ∃ e ∈ before ++ earlier, Shows refundLocktime e

/-- A reading, or a submission of this output. -/
def Event.IsOf (vtxo : VirtualCoin) : Event → Prop
  | .clock _ | .tip _ => True
  | .submit _ v _ => v = vtxo
  | .save _ _ => False

/-- The failures that put an output off, or lead to another attempt. -/
def Deferrable : Path → Failure → Prop
  | .boltz, .boltzRefund _ => True
  | .offchain, .forfeitClosureLocked | .batch, .forfeitClosureLocked => True
  | _, _ => False

/-- One output in a pass: what happened, and how it ended. -/
structure Turn where
  vtxo : VirtualCoin
  fate : Except Failure Fate
  events : List Event

def Turn.attempted (t : Turn) : Prop := ∃ path result, .submit path t.vtxo result ∈ t.events

/-- The locktime is reached: on the tip that the pass has read, or on the clock at the turn. -/
def ReachedAtTurn (chainTip : Option ℕ) (events : List Event) : Prop :=
  if isBlockHeightLocktime refundLocktime then ∃ h ∈ chainTip, refundLocktime ≤ h
  else ∃ now, events.head? = some (.clock now) ∧ refundLocktime ≤ now

/-- A live output can go by way of Boltz; any output can once the locktime is reached. -/
def Turn.pathOpen (chainTip : Option ℕ) (t : Turn) : Prop :=
  isRecoverable t.vtxo = false ∨ ReachedAtTurn refundLocktime chainTip t.events

def Turn.retryAt (t : Turn) : Option ℕ :=
  match t.fate with
  | .ok (.deferred retryAt) => some retryAt
  | _ => none

/-- The retry time of a deferral: the locktime, or a while after the clock that was read last. -/
def RetryTime (retryAt : ℕ) (events : List Event) : Prop :=
  retryAt = refundLocktime ∨
    ∃ now, events.getLast? = some (.clock now) ∧ retryAt = now + CLTV_IMMATURE_RETRY_SEC

def FailsLast (vtxo : VirtualCoin) (error : Failure) (events : List Event) : Prop :=
  ∃ path, events.getLast? = some (.submit path vtxo (.error error)) ∧ ¬Deferrable path error

structure TurnRight (chainTip : Option ℕ) (t : Turn) : Prop where
  own : ∀ e ∈ t.events, e.IsOf t.vtxo
  attempted : t.pathOpen refundLocktime chainTip → t.attempted
  swept : t.fate = .ok .swept ↔ ∃ path, .submit path t.vtxo (.ok ()) ∈ t.events
  deferred : ∀ retryAt, t.fate = .ok (.deferred retryAt) →
    (∀ path vtxo error, .submit path vtxo (.error error) ∈ t.events → Deferrable path error) ∧
    RetryTime refundLocktime retryAt t.events
  failed : ∀ error, t.fate = .error error → FailsLast t.vtxo error t.events

/-- A pass over the outputs, with the turns it was made of. -/
structure PassRight (vtxos : List VirtualCoin) (result : Except Failure Outcome)
    (events : List Event) (chainTip : Option ℕ) (turns : List Turn) : Prop where
  events_eq : events =
    (if isBlockHeightLocktime refundLocktime then [Event.tip chainTip] else []) ++
      turns.flatMap (·.events)
  inOrder : turns.map (·.vtxo) <+: vtxos
  turn : ∀ t ∈ turns, TurnRight refundLocktime chainTip t
  guarded : Guarded refundLocktime [] events
  completed : ∀ outcome, result = .ok outcome →
    turns.map (·.vtxo) = vtxos ∧ (∀ t ∈ turns, ∃ fate, t.fate = .ok fate) ∧
    outcome.swept = turns.countP (fun t ↦ t.fate = .ok .swept) ∧
    outcome.skipped = turns.countP (fun t ↦ t.retryAt.isSome) ∧
    outcome.retryAt = (turns.filterMap (·.retryAt)).min?
  aborted : ∀ error, result = .error error → ∃ done, ∃ last : Turn, turns = done ++ [last] ∧
    last.fate = .error error ∧ ∀ t ∈ done, ∃ fate, t.fate = .ok fate

/-- As if no failure kept the pass from the outputs after it: a live output always has a path. -/
def AttemptsAll (vtxos : List VirtualCoin) (events : List Event) : Prop :=
  ∀ vtxo ∈ vtxos, isRecoverable vtxo = false → ∃ path result, .submit path vtxo result ∈ events

end Specification

def tipRead (refundLocktime : ℕ) (tip : Option ℕ) : List Event :=
  if isBlockHeightLocktime refundLocktime then [.tip tip] else []

section Turns

variable (refundLocktime : ℕ)

inductive Check (tip : Option ℕ) : Bool → List Event → Prop
  | height (hunit : isBlockHeightLocktime refundLocktime = true) :
      Check tip (tip.any (refundLocktime ≤ ·)) []
  | clock (hunit : isBlockHeightLocktime refundLocktime = false) (now : ℕ) :
      Check tip (refundLocktime ≤ now) [.clock now]

inductive Retry : ℕ → List Event → Prop
  | height (now : ℕ) : Retry (now + CLTV_IMMATURE_RETRY_SEC) [.clock now]
  | seconds : Retry refundLocktime []

inductive Settle (vtxo : VirtualCoin) : Except Failure Fate → List Event → Prop
  | swept {path : Path} (hpath : path ≠ .boltz) :
      Settle vtxo (.ok .swept) [.submit path vtxo (.ok ())]
  | locked {path : Path} (hpath : path ≠ .boltz) (now : ℕ) :
      Settle vtxo (.ok (.deferred (now + CLTV_IMMATURE_RETRY_SEC)))
        [.submit path vtxo (.error .forfeitClosureLocked), .clock now]
  | failed {path : Path} (hpath : path ≠ .boltz) {error : Failure}
      (herror : error ≠ .forfeitClosureLocked) :
      Settle vtxo (.error error) [.submit path vtxo (.error error)]

inductive Rejected (vtxo : VirtualCoin) : Except Failure Fate → List Event → Prop
  | settles {tip : Option ℕ} {check settle : List Event} {fate : Except Failure Fate}
      (hcheck : Check refundLocktime tip true check) (hsettle : Settle vtxo fate settle) :
      Rejected vtxo fate (tipRead refundLocktime tip ++ check ++ settle)
  | waits {tip : Option ℕ} {check retry : List Event} {retryAt : ℕ}
      (hcheck : Check refundLocktime tip false check)
      (hretry : Retry refundLocktime retryAt retry) :
      Rejected vtxo (.ok (.deferred retryAt)) (tipRead refundLocktime tip ++ check ++ retry)

inductive TurnOf (chainTip : Option ℕ) (vtxo : VirtualCoin) :
    Except Failure Fate → List Event → Prop
  | matured {check settle : List Event} {fate : Except Failure Fate}
      (hcheck : Check refundLocktime chainTip true check) (hsettle : Settle vtxo fate settle) :
      TurnOf chainTip vtxo fate (check ++ settle)
  | waits {check retry : List Event} {retryAt : ℕ}
      (hcheck : Check refundLocktime chainTip false check)
      (hrecoverable : isRecoverable vtxo = true)
      (hretry : Retry refundLocktime retryAt retry) :
      TurnOf chainTip vtxo (.ok (.deferred retryAt)) (check ++ retry)
  | cosigned {check : List Event} (hcheck : Check refundLocktime chainTip false check) :
      TurnOf chainTip vtxo (.ok .swept) (check ++ [Event.submit .boltz vtxo (.ok ())])
  | rejected {check later : List Event} {fate : Except Failure Fate} {message : String}
      (hcheck : Check refundLocktime chainTip false check)
      (hlater : Rejected refundLocktime vtxo fate later) :
      TurnOf chainTip vtxo fate
        (check ++ Event.submit .boltz vtxo (.error (.boltzRefund message)) :: later)
  | failed {check : List Event} {error : Failure}
      (hcheck : Check refundLocktime chainTip false check)
      (herror : ∀ message, error ≠ .boltzRefund message) :
      TurnOf chainTip vtxo (.error error) (check ++ [Event.submit .boltz vtxo (.error error)])

variable {refundLocktime} {env : Env} {history events : List Event} {tip : Option ℕ}
  {vtxo : VirtualCoin} {fate : Except Failure Fate}

theorem isRefundLocktimeReachedAt_yields {reached : Bool}
    (h : (isRefundLocktimeReachedAt env refundLocktime tip).Yields history reached events) :
    Check refundLocktime tip reached events := by
  unfold isRefundLocktimeReachedAt at h
  split at h
  · next hunit =>
    obtain ⟨rfl, rfl⟩ := yields_pure.mp h
    rw [isRefundLocktimeReached, if_pos hunit]
    exact .height hunit
  · next hunit =>
    obtain ⟨now, asked, later, hask, hrest, rfl⟩ := yields_bind.mp h
    obtain ⟨-, rfl⟩ := yields_ask.mp hask
    obtain ⟨rfl, rfl⟩ := yields_pure.mp hrest
    rw [isRefundLocktimeReached, if_neg hunit]
    exact .clock (by simpa using hunit) now

theorem refundRetryAt_yields {retryAt : ℕ}
    (h : (refundRetryAt env refundLocktime).Yields history retryAt events) :
    Retry refundLocktime retryAt events := by
  unfold refundRetryAt at h
  split at h
  · obtain ⟨now, asked, later, hask, hrest, rfl⟩ := yields_bind.mp h
    obtain ⟨-, rfl⟩ := yields_ask.mp hask
    obtain ⟨rfl, rfl⟩ := yields_pure.mp hrest
    exact .height now
  · obtain ⟨rfl, rfl⟩ := yields_pure.mp h
    exact .seconds

theorem deferUntilLocktime_yields
    (h : (deferUntilLocktime env refundLocktime).Yields history fate events) :
    ∃ retryAt, fate = .ok (.deferred retryAt) ∧ Retry refundLocktime retryAt events := by
  obtain ⟨retryAt, asked, later, hask, hrest, rfl⟩ := yields_bind.mp h
  obtain ⟨rfl, rfl⟩ := yields_pure.mp hrest
  exact ⟨retryAt, rfl, (List.append_nil asked).symm ▸ refundRetryAt_yields hask⟩

theorem chainTipSnapshotFor_yields
    (h : (chainTipSnapshotFor env refundLocktime).Yields history tip events) :
    events = tipRead refundLocktime tip := by
  unfold chainTipSnapshotFor at h
  unfold tipRead
  split at h
  · next hunit =>
    rw [if_pos hunit]
    exact (yields_ask.mp h).2
  · next hunit =>
    rw [if_neg hunit]
    exact (yields_pure.mp h).2

theorem settleOrDefer_yields (h : (settleOrDefer env vtxo).Yields history fate events) :
    Settle vtxo fate events := by
  obtain ⟨tried, asked, later, htry, hrest, rfl⟩ := yields_bind.mp h
  obtain ⟨result, sent, rest, hsent, htried, rfl⟩ := yields_bind.mp htry
  obtain ⟨-, rfl⟩ := yields_ask.mp hsent
  have hpath : (if isRecoverable vtxo then Path.batch else .offchain) ≠ .boltz := by
    split <;> exact Path.noConfusion
  match result, htried with
  | .ok (), htried =>
    obtain ⟨rfl, rfl⟩ := yields_pure.mp htried
    obtain ⟨rfl, rfl⟩ := yields_pure.mp hrest
    exact .swept hpath
  | .error .forfeitClosureLocked, htried =>
    obtain ⟨rfl, rfl⟩ := yields_pure.mp htried
    obtain ⟨now, asked, later, hask, hdone, rfl⟩ := yields_bind.mp hrest
    obtain ⟨-, rfl⟩ := yields_ask.mp hask
    obtain ⟨rfl, rfl⟩ := yields_pure.mp hdone
    exact .locked hpath now
  | .error (.boltzRefund message), htried =>
    obtain ⟨rfl, rfl⟩ := yields_pure.mp htried
    obtain ⟨rfl, rfl⟩ := yields_pure.mp hrest
    exact .failed hpath Failure.noConfusion
  | .error (.other message), htried =>
    obtain ⟨rfl, rfl⟩ := yields_pure.mp htried
    obtain ⟨rfl, rfl⟩ := yields_pure.mp hrest
    exact .failed hpath Failure.noConfusion

theorem afterBoltzRejection_yields
    (h : (afterBoltzRejection env refundLocktime vtxo).Yields history fate events) :
    Rejected refundLocktime vtxo fate events := by
  obtain ⟨tip, tipEvents, later, htip, hrest, rfl⟩ := yields_bind.mp h
  obtain ⟨reached, check, last, hcheck, hlast, rfl⟩ := yields_bind.mp hrest
  obtain rfl := chainTipSnapshotFor_yields htip
  have hcheck := isRefundLocktimeReachedAt_yields hcheck
  rw [← List.append_assoc]
  cases reached with
  | true => exact .settles hcheck (settleOrDefer_yields hlast)
  | false =>
    obtain ⟨retryAt, rfl, hretry⟩ := deferUntilLocktime_yields hlast
    exact .waits hcheck hretry

theorem refundVtxo_yields
    (h : (refundVtxo env refundLocktime tip vtxo).Yields history fate events) :
    TurnOf refundLocktime tip vtxo fate events := by
  obtain ⟨reached, check, later, hcheck, hrest, rfl⟩ := yields_bind.mp h
  have hcheck := isRefundLocktimeReachedAt_yields hcheck
  cases reached with
  | true => exact .matured hcheck (settleOrDefer_yields hrest)
  | false =>
    rw [if_neg Bool.false_ne_true] at hrest
    split at hrest
    · next hrecoverable =>
      obtain ⟨retryAt, rfl, hretry⟩ := deferUntilLocktime_yields hrest
      exact .waits hcheck hrecoverable hretry
    · obtain ⟨result, sent, last, hsent, hlast, rfl⟩ := yields_bind.mp hrest
      obtain ⟨-, rfl⟩ := yields_ask.mp hsent
      match result, hlast with
      | .ok (), hlast =>
        obtain ⟨rfl, rfl⟩ := yields_pure.mp hlast
        exact .cosigned hcheck
      | .error (.boltzRefund message), hlast =>
        exact .rejected hcheck (afterBoltzRejection_yields hlast)
      | .error .forfeitClosureLocked, hlast =>
        obtain ⟨rfl, rfl⟩ := yields_pure.mp hlast
        exact .failed hcheck fun _ ↦ Failure.noConfusion
      | .error (.other message), hlast =>
        obtain ⟨rfl, rfl⟩ := yields_pure.mp hlast
        exact .failed hcheck fun _ ↦ Failure.noConfusion

def Event.submission : Event → Option (Path × Except Failure Unit)
  | .submit path _ result => some (path, result)
  | _ => none

def submissions (events : List Event) : List (Path × Except Failure Unit) :=
  events.filterMap Event.submission

theorem submissions_append (before after : List Event) :
    submissions (before ++ after) = submissions before ++ submissions after :=
  List.filterMap_append ..

theorem mem_submissions (hown : ∀ e ∈ events, e.IsOf vtxo) {path : Path}
    {result : Except Failure Unit} :
    .submit path vtxo result ∈ events ↔ (path, result) ∈ submissions events := by
  rw [submissions, List.mem_filterMap]
  constructor
  · exact fun h ↦ ⟨_, h, rfl⟩
  · rintro ⟨e, he, hsubmission⟩
    cases e with
    | submit path' v result' =>
      cases hsubmission
      obtain rfl : v = vtxo := hown _ he
      exact he
    | clock | tip | save => cases hsubmission

theorem Check.submissions {reached : Bool} (h : Check refundLocktime tip reached events) :
    submissions events = [] := by
  cases h <;> rfl

theorem Retry.submissions {retryAt : ℕ} (h : Retry refundLocktime retryAt events) :
    submissions events = [] := by
  cases h <;> rfl

theorem submissions_tipRead : submissions (tipRead refundLocktime tip) = [] := by
  unfold tipRead
  split <;> rfl

theorem Check.own {reached : Bool} (h : Check refundLocktime tip reached events) :
    ∀ e ∈ events, e.IsOf vtxo := by
  cases h <;> simp [Event.IsOf]

theorem Retry.own {retryAt : ℕ} (h : Retry refundLocktime retryAt events) :
    ∀ e ∈ events, e.IsOf vtxo := by
  cases h <;> simp [Event.IsOf]

theorem tipRead_own : ∀ e ∈ tipRead refundLocktime tip, e.IsOf vtxo := by
  unfold tipRead
  split <;> simp [Event.IsOf]

theorem Settle.own (h : Settle vtxo fate events) : ∀ e ∈ events, e.IsOf vtxo := by
  cases h <;> simp [Event.IsOf]

theorem Rejected.own (h : Rejected refundLocktime vtxo fate events) :
    ∀ e ∈ events, e.IsOf vtxo := by
  cases h with
  | settles hcheck hsettle =>
    exact List.forall_mem_append.mpr
      ⟨List.forall_mem_append.mpr ⟨tipRead_own, hcheck.own⟩, hsettle.own⟩
  | waits hcheck hretry =>
    exact List.forall_mem_append.mpr
      ⟨List.forall_mem_append.mpr ⟨tipRead_own, hcheck.own⟩, hretry.own⟩

theorem TurnOf.own (h : TurnOf refundLocktime tip vtxo fate events) :
    ∀ e ∈ events, e.IsOf vtxo := by
  cases h with
  | matured hcheck hsettle => exact List.forall_mem_append.mpr ⟨hcheck.own, hsettle.own⟩
  | waits hcheck _ hretry => exact List.forall_mem_append.mpr ⟨hcheck.own, hretry.own⟩
  | cosigned hcheck | failed hcheck =>
    exact List.forall_mem_append.mpr ⟨hcheck.own, List.forall_mem_singleton.mpr rfl⟩
  | rejected hcheck hlater =>
    exact List.forall_mem_append.mpr ⟨hcheck.own, List.forall_mem_cons.mpr ⟨rfl, hlater.own⟩⟩

/-- The end of an output, by what was submitted for it: the answers before the last are
deferrable, and the last one decides. -/
inductive Ends : Except Failure Fate → List (Path × Except Failure Unit) → Prop
  | swept (path : Path) : Ends (.ok .swept) [(path, .ok ())]
  | failed {path : Path} {error : Failure} (h : ¬Deferrable path error) :
      Ends (.error error) [(path, .error error)]
  | deferred (retryAt : ℕ) : Ends (.ok (.deferred retryAt)) []
  | again {fate : Except Failure Fate} {path : Path} {error : Failure} (h : Deferrable path error)
      {rest : List (Path × Except Failure Unit)} (hrest : Ends fate rest) :
      Ends fate ((path, .error error) :: rest)

theorem deferrable_boltzRefund {message : String} : Deferrable .boltz (.boltzRefund message) :=
  trivial

theorem not_deferrable_boltz {error : Failure} (h : ∀ message, error ≠ .boltzRefund message) :
    ¬Deferrable .boltz error := by
  cases error with
  | boltzRefund message => exact absurd rfl (h message)
  | forfeitClosureLocked | other => exact id

theorem deferrable_locked {path : Path} (hpath : path ≠ .boltz) :
    Deferrable path .forfeitClosureLocked := by
  cases path with
  | boltz => exact absurd rfl hpath
  | offchain | batch => trivial

theorem not_deferrable {path : Path} {error : Failure} (hpath : path ≠ .boltz)
    (herror : error ≠ .forfeitClosureLocked) : ¬Deferrable path error := by
  cases path with
  | boltz => exact absurd rfl hpath
  | offchain | batch =>
    cases error with
    | forfeitClosureLocked => exact absurd rfl herror
    | boltzRefund | other => exact id

theorem Settle.ends (h : Settle vtxo fate events) : Ends fate (RefundPass.submissions events) := by
  cases h with
  | swept hpath => exact .swept _
  | locked hpath now => exact .again (deferrable_locked hpath) (.deferred _)
  | failed hpath herror => exact .failed (not_deferrable hpath herror)

theorem Rejected.ends (h : Rejected refundLocktime vtxo fate events) :
    Ends fate (RefundPass.submissions events) := by
  cases h with
  | settles hcheck hsettle =>
    rw [submissions_append, submissions_append, submissions_tipRead, hcheck.submissions]
    exact hsettle.ends
  | waits hcheck hretry =>
    rw [submissions_append, submissions_append, submissions_tipRead, hcheck.submissions,
      hretry.submissions]
    exact .deferred _

theorem TurnOf.ends (h : TurnOf refundLocktime tip vtxo fate events) :
    Ends fate (RefundPass.submissions events) := by
  cases h with
  | matured hcheck hsettle =>
    rw [submissions_append, hcheck.submissions]
    exact hsettle.ends
  | waits hcheck _ hretry =>
    rw [submissions_append, hcheck.submissions, hretry.submissions]
    exact .deferred _
  | cosigned hcheck =>
    rw [submissions_append, hcheck.submissions]
    exact .swept _
  | rejected hcheck hlater =>
    rw [submissions_append, hcheck.submissions]
    exact Ends.again deferrable_boltzRefund hlater.ends
  | failed hcheck herror =>
    rw [submissions_append, hcheck.submissions]
    exact Ends.failed (not_deferrable_boltz herror)

theorem Ends.swept_iff {sent : List (Path × Except Failure Unit)} (h : Ends fate sent) :
    fate = .ok .swept ↔ ∃ path, (path, .ok ()) ∈ sent := by
  induction h with
  | swept path => simp
  | failed => simp
  | deferred => simp
  | again _ _ ih => simpa using ih

theorem Ends.deferred_of {sent : List (Path × Except Failure Unit)} (h : Ends fate sent)
    {retryAt : ℕ} (hfate : fate = .ok (.deferred retryAt)) {path : Path} {error : Failure}
    (hmem : (path, .error error) ∈ sent) : Deferrable path error := by
  induction h with
  | swept => cases hfate
  | failed => cases hfate
  | deferred => cases hmem
  | again h _ ih =>
    rcases List.mem_cons.mp hmem with heq | hmem
    · cases heq
      exact h
    · exact ih hfate hmem

theorem getLast?_append_of {before after : List Event} {e : Event}
    (h : after.getLast? = some e) : (before ++ after).getLast? = some e := by
  rw [List.getLast?_append, h]
  rfl

theorem getLast?_cons_of {first : Event} {after : List Event} {e : Event}
    (h : after.getLast? = some e) : (first :: after).getLast? = some e := by
  rw [List.getLast?_cons, h]
  rfl

theorem RetryTime.append {retryAt : ℕ} (h : RetryTime refundLocktime retryAt events)
    (before : List Event) : RetryTime refundLocktime retryAt (before ++ events) :=
  h.imp_right fun ⟨now, hlast, hnow⟩ ↦ ⟨now, getLast?_append_of hlast, hnow⟩

theorem RetryTime.cons {retryAt : ℕ} (h : RetryTime refundLocktime retryAt events)
    (first : Event) : RetryTime refundLocktime retryAt (first :: events) :=
  h.imp_right fun ⟨now, hlast, hnow⟩ ↦ ⟨now, getLast?_cons_of hlast, hnow⟩

theorem Retry.retryTime {retryAt : ℕ} (h : Retry refundLocktime retryAt events) :
    RetryTime refundLocktime retryAt events := by
  cases h with
  | height now => exact .inr ⟨now, rfl, rfl⟩
  | seconds => exact .inl rfl

theorem Settle.retryTime {retryAt : ℕ} (h : Settle vtxo (.ok (.deferred retryAt)) events) :
    RetryTime refundLocktime retryAt events := by
  cases h with
  | locked hpath now => exact .inr ⟨now, rfl, rfl⟩

theorem Rejected.retryTime {retryAt : ℕ}
    (h : Rejected refundLocktime vtxo (.ok (.deferred retryAt)) events) :
    RetryTime refundLocktime retryAt events := by
  cases h with
  | settles hcheck hsettle => exact hsettle.retryTime.append _
  | waits hcheck hretry => exact hretry.retryTime.append _

theorem TurnOf.retryTime {retryAt : ℕ}
    (h : TurnOf refundLocktime tip vtxo (.ok (.deferred retryAt)) events) :
    RetryTime refundLocktime retryAt events := by
  cases h with
  | matured hcheck hsettle => exact hsettle.retryTime.append _
  | waits hcheck _ hretry => exact hretry.retryTime.append _
  | rejected hcheck hlater => exact (hlater.retryTime.cons _).append _

theorem FailsLast.append {error : Failure} (h : FailsLast vtxo error events)
    (before : List Event) : FailsLast vtxo error (before ++ events) :=
  h.imp fun _ hpath ↦ ⟨getLast?_append_of hpath.1, hpath.2⟩

theorem FailsLast.cons {error : Failure} (h : FailsLast vtxo error events) (first : Event) :
    FailsLast vtxo error (first :: events) :=
  h.imp fun _ hpath ↦ ⟨getLast?_cons_of hpath.1, hpath.2⟩

theorem Settle.failsLast {error : Failure} (h : Settle vtxo (.error error) events) :
    FailsLast vtxo error events := by
  cases h with
  | failed hpath herror => exact ⟨_, rfl, not_deferrable hpath herror⟩

theorem TurnOf.failsLast {error : Failure}
    (h : TurnOf refundLocktime tip vtxo (.error error) events) :
    FailsLast vtxo error events := by
  cases h with
  | matured hcheck hsettle => exact hsettle.failsLast.append _
  | rejected hcheck hlater =>
    cases hlater with
    | settles _ hsettle => exact ((hsettle.failsLast.append _).cons _).append _
  | failed hcheck herror =>
    exact ⟨.boltz, getLast?_append_of rfl, not_deferrable_boltz herror⟩

theorem Check.reached_iff {reached : Bool} (h : Check refundLocktime tip reached events)
    (later : List Event) :
    ReachedAtTurn refundLocktime tip (events ++ later) ↔ reached = true := by
  unfold ReachedAtTurn
  cases h with
  | height hunit =>
    rw [if_pos hunit]
    cases tip <;> simp
  | clock hunit now =>
    rw [if_neg (by simp [hunit])]
    simp

theorem attempted_of_submissions {t : Turn} (hown : ∀ e ∈ t.events, e.IsOf t.vtxo)
    (h : RefundPass.submissions t.events ≠ []) : t.attempted := by
  obtain ⟨⟨path, result⟩, hmem⟩ := List.exists_mem_of_ne_nil _ h
  exact ⟨path, result, (mem_submissions hown).mpr hmem⟩

theorem TurnOf.attempted (h : TurnOf refundLocktime tip vtxo fate events)
    (hopen : (⟨vtxo, fate, events⟩ : Turn).pathOpen refundLocktime tip) :
    (⟨vtxo, fate, events⟩ : Turn).attempted := by
  refine attempted_of_submissions h.own ?_
  dsimp only
  cases h with
  | matured hcheck hsettle =>
    rw [submissions_append, hcheck.submissions]
    cases hsettle <;> exact List.cons_ne_nil _ _
  | waits hcheck hrecoverable hretry =>
    rcases hopen with hlive | hreached
    · exact absurd (hrecoverable.symm.trans hlive) Bool.noConfusion
    · exact absurd ((hcheck.reached_iff _).mp hreached) Bool.false_ne_true
  | cosigned hcheck | failed hcheck | rejected hcheck =>
    rw [submissions_append, hcheck.submissions]
    exact List.cons_ne_nil _ _

theorem TurnOf.right (h : TurnOf refundLocktime tip vtxo fate events) :
    TurnRight refundLocktime tip ⟨vtxo, fate, events⟩ where
  own := h.own
  attempted := h.attempted
  swept := h.ends.swept_iff.trans (exists_congr fun _ ↦ (mem_submissions h.own).symm)
  deferred := by
    rintro retryAt rfl
    refine ⟨fun path v error hmem ↦ ?_, h.retryTime⟩
    obtain rfl : v = vtxo := h.own _ hmem
    exact h.ends.deferred_of rfl ((mem_submissions h.own).mp hmem)
  failed := by
    rintro error rfl
    exact h.failsLast

theorem guarded_of_shown {before : List Event} (h : ∃ e ∈ before, Shows refundLocktime e) :
    Guarded refundLocktime before events := by
  intro earlier path v result later _ _
  obtain ⟨e, he, hshows⟩ := h
  exact ⟨e, List.mem_append_left _ he, hshows⟩

theorem guarded_of_boltz {before : List Event}
    (h : ∀ s ∈ RefundPass.submissions events, s.1 = .boltz) :
    Guarded refundLocktime before events := by
  rintro earlier path v result later rfl hpath
  refine absurd (h (path, result) ?_) hpath
  rw [submissions_append]
  exact List.mem_append_right _ List.mem_cons_self

theorem Guarded.append {before first second : List Event}
    (hfirst : Guarded refundLocktime before first)
    (hsecond : Guarded refundLocktime (before ++ first) second) :
    Guarded refundLocktime before (first ++ second) := by
  intro earlier path v result later heq hpath
  rcases List.append_eq_append_iff.mp heq with ⟨l, rfl, hsplit⟩ | ⟨l, rfl, hsplit⟩
  · rw [← List.append_assoc]
    exact hsecond l path v result later hsplit hpath
  · cases l with
    | nil =>
      rw [List.append_nil] at hsecond
      have hhead := hsecond [] path v result later hsplit.symm hpath
      rwa [List.append_nil] at hhead
    | cons e l =>
      obtain ⟨rfl, -⟩ := List.cons_eq_cons.mp hsplit
      exact hfirst earlier path v result l rfl hpath

theorem Check.shown {before : List Event} (h : Check refundLocktime tip true events)
    (htip : isBlockHeightLocktime refundLocktime = true → .tip tip ∈ before) :
    ∃ e ∈ before ++ events, Shows refundLocktime e := by
  have hreached := (h.reached_iff []).mpr rfl
  unfold ReachedAtTurn at hreached
  split at hreached
  · next hunit => exact ⟨_, List.mem_append_left _ (htip hunit), hunit, hreached⟩
  · next hunit =>
    obtain ⟨now, hhead, hle⟩ := hreached
    rw [List.append_nil] at hhead
    exact ⟨.clock now, List.mem_append_right _ (List.mem_of_mem_head? hhead),
      by simpa using hunit, hle⟩

theorem Rejected.guarded {before : List Event} (h : Rejected refundLocktime vtxo fate events) :
    Guarded refundLocktime before events := by
  cases h with
  | @settles tip' check settle fate hcheck hsettle =>
    have hquiet : RefundPass.submissions (tipRead refundLocktime tip' ++ check) = [] := by
      rw [submissions_append, submissions_tipRead, hcheck.submissions]
      rfl
    refine (guarded_of_boltz (by simp [hquiet])).append (guarded_of_shown ?_)
    rw [← List.append_assoc]
    refine hcheck.shown fun hunit ↦ List.mem_append_right _ ?_
    rw [tipRead, if_pos hunit]
    exact List.mem_cons_self
  | waits hcheck hretry =>
    refine guarded_of_boltz ?_
    rw [submissions_append, submissions_append, submissions_tipRead, hcheck.submissions,
      hretry.submissions]
    simp

theorem TurnOf.guarded {before : List Event} (h : TurnOf refundLocktime tip vtxo fate events)
    (htip : isBlockHeightLocktime refundLocktime = true → .tip tip ∈ before) :
    Guarded refundLocktime before events := by
  cases h with
  | matured hcheck hsettle =>
    exact (guarded_of_boltz (by simp [hcheck.submissions])).append
      (guarded_of_shown (hcheck.shown htip))
  | waits hcheck _ hretry =>
    refine guarded_of_boltz ?_
    rw [submissions_append, hcheck.submissions, hretry.submissions]
    simp
  | cosigned hcheck | failed hcheck =>
    refine guarded_of_boltz ?_
    rw [submissions_append, hcheck.submissions]
    simp [RefundPass.submissions, Event.submission]
  | @rejected check later fate message hcheck hlater =>
    rw [← List.singleton_append, ← List.append_assoc]
    refine (guarded_of_boltz ?_).append hlater.guarded
    rw [submissions_append, hcheck.submissions]
    simp [RefundPass.submissions, Event.submission]

/-- What the loop does from one of its turns on. -/
structure RunRight (refundLocktime : ℕ) (tip : Option ℕ) (before : List Event)
    (vtxos : List VirtualCoin) (start : Outcome) (result : Except Failure Outcome)
    (events : List Event) (turns : List Turn) : Prop where
  events_eq : events = turns.flatMap (·.events)
  inOrder : turns.map (·.vtxo) <+: vtxos
  turn : ∀ t ∈ turns, TurnRight refundLocktime tip t
  guarded : Guarded refundLocktime before events
  completed : ∀ outcome, result = .ok outcome →
    turns.map (·.vtxo) = vtxos ∧ (∀ t ∈ turns, ∃ fate, t.fate = .ok fate) ∧
    outcome.swept = start.swept + turns.countP (fun t ↦ t.fate = .ok .swept) ∧
    outcome.skipped = start.skipped + turns.countP (fun t ↦ t.retryAt.isSome) ∧
    outcome.retryAt = (start.retryAt.toList ++ turns.filterMap (·.retryAt)).min?
  aborted : ∀ error, result = .error error → ∃ done, ∃ last : Turn, turns = done ++ [last] ∧
    last.fate = .error error ∧ ∀ t ∈ done, ∃ fate, t.fate = .ok fate

theorem retryAt_add (start : Outcome) (retryAt : ℕ) (later : List ℕ) :
    ((start.add (.deferred retryAt)).retryAt.toList ++ later).min? =
      (start.retryAt.toList ++ retryAt :: later).min? := by
  cases hstart : start.retryAt with
  | none => simp [Outcome.add, hstart]
  | some earliest => simp only [Outcome.add, hstart]; rfl

theorem refundEach_yields {vtxos : List VirtualCoin} {start : Outcome}
    {result : Except Failure Outcome}
    (h : (refundEach env refundLocktime tip vtxos start).Yields history result events)
    {before : List Event}
    (htip : isBlockHeightLocktime refundLocktime = true → .tip tip ∈ before) :
    ∃ turns, RunRight refundLocktime tip before vtxos start result events turns := by
  induction vtxos generalizing start history events before with
  | nil =>
    obtain ⟨rfl, rfl⟩ := yields_pure.mp h
    refine ⟨[], rfl, List.prefix_rfl, by simp,
      guarded_of_boltz (by simp [RefundPass.submissions]), ?_, ?_⟩
    · rintro outcome hok
      cases hok
      cases start.retryAt <;> simp
    · rintro error herror
      cases herror
  | cons vtxo vtxos ih =>
    obtain ⟨fate, first, later, hturn, hrest, rfl⟩ := yields_bind.mp h
    have hturn := refundVtxo_yields hturn
    match fate, hturn, hrest with
    | .error error, hturn, hrest =>
      obtain ⟨rfl, rfl⟩ := yields_pure.mp hrest
      refine ⟨[⟨vtxo, .error error, first⟩], by simp, by simp, ?_, ?_, ?_, ?_⟩
      · simpa using hturn.right
      · simpa using hturn.guarded htip
      · rintro outcome hok
        cases hok
      · rintro error' herror
        cases herror
        exact ⟨[], _, rfl, rfl, by simp⟩
    | .ok fate, hturn, hrest =>
      have htip' : isBlockHeightLocktime refundLocktime = true → .tip tip ∈ before ++ first :=
        fun hunit ↦ List.mem_append_left _ (htip hunit)
      obtain ⟨turns, hrun⟩ := ih hrest htip'
      refine ⟨⟨vtxo, .ok fate, first⟩ :: turns, ?_, ?_, ?_, ?_, ?_, ?_⟩
      · rw [List.flatMap_cons, ← hrun.events_eq]
      · rw [List.map_cons]
        exact List.prefix_cons_inj vtxo |>.mpr hrun.inOrder
      · exact List.forall_mem_cons.mpr ⟨hturn.right, hrun.turn⟩
      · exact (hturn.guarded htip).append hrun.guarded
      · intro outcome hok
        obtain ⟨hall, hsettled, hswept, hskipped, hretry⟩ := hrun.completed outcome hok
        refine ⟨by rw [List.map_cons, hall], List.forall_mem_cons.mpr ⟨⟨fate, rfl⟩, hsettled⟩,
          ?_⟩
        cases fate with
        | swept =>
          refine ⟨?_, ?_, ?_⟩
          · rw [hswept, List.countP_cons_of_pos (by simp)]
            simp only [Outcome.add]
            omega
          · rw [hskipped, List.countP_cons_of_neg (by simp [Turn.retryAt])]
            rfl
          · rw [hretry, List.filterMap_cons_none rfl]
            rfl
        | deferred retryAt =>
          refine ⟨?_, ?_, ?_⟩
          · rw [hswept, List.countP_cons_of_neg (by simp)]
            rfl
          · rw [hskipped, List.countP_cons_of_pos (by simp [Turn.retryAt])]
            simp only [Outcome.add]
            omega
          · rw [hretry, retryAt_add]
            rfl
      · intro error herror
        obtain ⟨done, last, rfl, hlast, hdone⟩ := hrun.aborted error herror
        exact ⟨⟨vtxo, .ok fate, first⟩ :: done, last, rfl, hlast,
          List.forall_mem_cons.mpr ⟨⟨fate, rfl⟩, hdone⟩⟩

/-- Every pass does what it should up to the first failure that no deferral stands for. -/
theorem refundVtxos_right (env : Env) (refundLocktime : ℕ) (vtxos : List VirtualCoin)
    (history : List Event) :
    ∃ chainTip turns, PassRight refundLocktime vtxos
      (refundVtxos env refundLocktime vtxos history).1
      (refundVtxos env refundLocktime vtxos history).2 chainTip turns := by
  have h := yields_result (refundVtxos env refundLocktime vtxos) history
  obtain ⟨chainTip, tipEvents, later, htip, hrest, hevents⟩ := yields_bind.mp h
  obtain rfl := chainTipSnapshotFor_yields htip
  have hread : isBlockHeightLocktime refundLocktime = true →
      .tip chainTip ∈ [] ++ tipRead refundLocktime chainTip := by
    intro hunit
    rw [tipRead, if_pos hunit]
    exact List.mem_singleton.mpr rfl
  obtain ⟨turns, hrun⟩ := refundEach_yields hrest hread
  refine ⟨chainTip, turns, ?_, hrun.inOrder, hrun.turn, ?_, ?_, hrun.aborted⟩
  · rw [hevents, ← hrun.events_eq]
    rfl
  · rw [hevents]
    exact (guarded_of_boltz (by simp [submissions_tipRead])).append hrun.guarded
  · intro outcome hok
    simpa using hrun.completed outcome hok

theorem PassRight.unsaved {vtxos : List VirtualCoin} {result : Except Failure Outcome}
    {turns : List Turn} (h : PassRight refundLocktime vtxos result events tip turns)
    (refundable refunded : Bool) : .save refundable refunded ∉ events := by
  rw [h.events_eq]
  intro hmem
  rcases List.mem_append.mp hmem with hmem | hmem
  · split at hmem <;> simp at hmem
  · obtain ⟨t, ht, hmem⟩ := List.mem_flatMap.mp hmem
    exact (h.turn t ht).own _ hmem

theorem refundVHTLC_saved {pendingSwap : SubmarineSwap} {vtxos : List VirtualCoin}
    {diagnostic : Option Diagnostic} {refundable : Bool}
    (h : .save refundable true ∈
      (refundVHTLC env refundLocktime pendingSwap vtxos diagnostic history).2) :
    ∃ outcome, (refundVtxos env refundLocktime vtxos history).1 = .ok outcome ∧
      outcome.skipped = 0 := by
  have hyields :=
    yields_result (refundVHTLC env refundLocktime pendingSwap vtxos diagnostic) history
  generalize (refundVHTLC env refundLocktime pendingSwap vtxos diagnostic history).2 = events
    at h hyields
  generalize (refundVHTLC env refundLocktime pendingSwap vtxos diagnostic history).1 = result
    at hyields
  obtain ⟨chainTip, turns, hpass⟩ := refundVtxos_right env refundLocktime vtxos history
  unfold refundVHTLC at hyields
  split at hyields
  · obtain ⟨-, rfl⟩ := yields_pure.mp hyields
    cases h
  · obtain ⟨passed, first, later, hfirst, hlater, rfl⟩ := yields_bind.mp hyields
    unfold Yields at hfirst
    rw [hfirst] at hpass ⊢
    have hlate : .save refundable true ∈ later :=
      (List.mem_append.mp h).resolve_left (hpass.unsaved refundable true)
    match passed, hlater with
    | .error error, hlater =>
      obtain ⟨-, rfl⟩ := yields_pure.mp hlater
      cases hlate
    | .ok outcome, hlater =>
      dsimp only at hlater
      split at hlater
      · obtain ⟨-, rfl⟩ := yields_pure.mp hlater
        cases hlate
      · obtain ⟨_, saved, rest, hsaved, hdone, rfl⟩ := yields_bind.mp hlater
        obtain ⟨-, rfl⟩ := yields_ask.mp hsaved
        obtain ⟨-, rfl⟩ := yields_pure.mp hdone
        refine ⟨outcome, rfl, ?_⟩
        exact (by simpa using hlate : refundable = true ∧ outcome.skipped = 0).2

/-- A pass covers every output up to the first failure that no deferral stands for, which it
throws; and a swap is kept as refunded only after a pass that swept all of its outputs. -/
theorem refundPass_right (env : Env) (refundLocktime : ℕ) (history : List Event) :
    (∀ vtxos, ∃ chainTip turns, PassRight refundLocktime vtxos
      (refundVtxos env refundLocktime vtxos history).1
      (refundVtxos env refundLocktime vtxos history).2 chainTip turns) ∧
    ∀ pendingSwap vtxos diagnostic refundable,
      .save refundable true ∈
        (refundVHTLC env refundLocktime pendingSwap vtxos diagnostic history).2 →
      ∃ chainTip turns, PassRight refundLocktime vtxos
        (refundVtxos env refundLocktime vtxos history).1
        (refundVtxos env refundLocktime vtxos history).2 chainTip turns ∧
        turns.map (·.vtxo) = vtxos ∧ ∀ t ∈ turns, t.fate = .ok .swept := by
  refine ⟨fun vtxos ↦ refundVtxos_right env refundLocktime vtxos history,
    fun pendingSwap vtxos diagnostic refundable h ↦ ?_⟩
  obtain ⟨outcome, hok, hskipped⟩ := refundVHTLC_saved h
  obtain ⟨chainTip, turns, hpass⟩ := refundVtxos_right env refundLocktime vtxos history
  obtain ⟨hall, hsettled, -, hcount, -⟩ := hpass.completed outcome hok
  refine ⟨chainTip, turns, hpass, hall, fun t ht ↦ ?_⟩
  obtain ⟨fate, hfate⟩ := hsettled t ht
  cases fate with
  | swept => exact hfate
  | deferred retryAt =>
    have hnone := List.countP_eq_zero.mp (hcount.symm.trans hskipped) t ht
    simp [Turn.retryAt, hfate] at hnone

end Turns

section Sample

def liveCoin (txid : BatchTree.Txid) : VirtualCoin where
  outpoint := ⟨txid, 0⟩
  value := 10000
  arkTxId := none
  isSpent := some false
  isSwept := some false
  spentBy := none
  settledBy := none
  expiresAt := none
  expiresAtHeight := none
  state := none
  batchExpiry := none

/-- Past the locktime, with a server that answers. -/
def reachable : Env where
  clock _ := 2000000000
  tip _ := none
  submit _ _ _ := .ok ()

def failedSwap : SubmarineSwap := ⟨"swap", "ark1", .invoiceFailedToPay⟩

theorem sweptPass_saved :
    .save true true ∈ (refundVHTLC reachable 1900000000 failedSwap [liveCoin "t0", liveCoin "t1"]
      none []).2 ∧
    ∃ chainTip turns, PassRight 1900000000 [liveCoin "t0", liveCoin "t1"]
      (refundVtxos reachable 1900000000 [liveCoin "t0", liveCoin "t1"] []).1
      (refundVtxos reachable 1900000000 [liveCoin "t0", liveCoin "t1"] []).2 chainTip turns ∧
      turns.map (·.vtxo) = [liveCoin "t0", liveCoin "t1"] ∧ ∀ t ∈ turns, t.fate = .ok .swept := by
  have hsaved : .save true true ∈ (refundVHTLC reachable 1900000000 failedSwap
      [liveCoin "t0", liveCoin "t1"] none []).2 := by decide
  exact ⟨hsaved, (refundPass_right reachable 1900000000 []).2 failedSwap _ none true hsaved⟩

/-- Past the locktime, with a server that does not answer the first submission. -/
def unreachableOnce : Env where
  clock _ := 2000000000
  tip _ := none
  submit _ _ history :=
    if history.length ≤ 1 then .error (.other "fetch failed") else .ok ()

/-- The second output is not attempted after the first one has failed. -/
theorem failure_stops_pass :
    refundVtxos unreachableOnce 1900000000 [liveCoin "t0", liveCoin "t1"] [] =
        (.error (.other "fetch failed"), [.clock 2000000000,
          .submit .offchain (liveCoin "t0") (.error (.other "fetch failed"))]) ∧
      ¬AttemptsAll [liveCoin "t0", liveCoin "t1"]
        (refundVtxos unreachableOnce 1900000000 [liveCoin "t0", liveCoin "t1"] []).2 := by
  have hpass : refundVtxos unreachableOnce 1900000000 [liveCoin "t0", liveCoin "t1"] [] =
      (.error (.other "fetch failed"), [.clock 2000000000,
        .submit .offchain (liveCoin "t0") (.error (.other "fetch failed"))]) := by
    decide
  refine ⟨hpass, fun hall ↦ ?_⟩
  obtain ⟨path, result, hmem⟩ := hall (liveCoin "t1") (by decide) (by decide)
  rw [hpass] at hmem
  simp [liveCoin] at hmem

end Sample

end ArkadeSdk.RefundPass
