import ArkadeSdk.Lib.Decimal
import ArkadeSdk.Lib.LabelledRun
import Mathlib.Data.Int.Notation
import Mathlib.Data.List.Induction
import Mathlib.Data.List.Nodup

/-! The message bus of the service worker: it routes the messages of the pages to handlers, starts
and stops the handlers as it is initialized, and has them tick. -/

namespace ArkadeSdk.MessageBus

open LabelledRun

abbrev Tag := String

abbrev Timeouts := List (String × ℤ)

/-- A missing field is empty. Initialization comes with its timeout overrides. -/
structure Message where
  id : String
  tag : Tag
  type : Option String
  broadcast : Bool
  messageTimeouts : Timeouts

/-- The responses that the bus delivers: to its own messages, for a message that no handler is
called for, and for a handler. -/
inductive Response
  | pong
  | initialized
  | initFailed (message : String)
  | refused (initializing : Bool)
  | invalid
  | unknownTag (tag : Tag)
  | answer (handler : Tag)
  | failure (handler : Tag) (message : String) (timedOut : Bool)
  | late (handler : Tag) (message : Option String)
  deriving DecidableEq

/-- Calls of the handlers, and responses. A `start` that succeeds is `started`. Messages are
numbered as they arrive. -/
inductive Event
  | start (handler : Tag)
  | started (handler : Tag)
  | stop (handler : Tag)
  | tick (handler : Tag)
  | handle (number : ℕ) (handler : Tag)
  | respond (number : ℕ) (response : Response)
  deriving DecidableEq

def MESSAGE_BUS_NOT_INITIALIZED : String := "MessageBus not initialized"

def MESSAGE_BUS_INITIALIZING : String := MESSAGE_BUS_NOT_INITIALIZED ++ ": initializing"

def LATE_DELIVERY_GRACE_MS : ℕ := 5 * 60000

def labelFor (messageType : Option String) (handlerTag : Tag) : String :=
  match messageType with
  | none => handlerTag
  | some type => if type = "" then handlerTag else type ++ " via " ++ handlerTag

def parenthesized (text : String) : String := "(" ++ text ++ ")"

def timeoutText (timeoutMs : ℤ) (label : String) : String :=
  "Message handler timed out after " ++ Decimal.toText timeoutMs ++ "ms " ++ parenthesized label

def abandonedText (label : String) : String :=
  "Operation abandoned: handler did not complete within " ++
    Decimal.toText LATE_DELIVERY_GRACE_MS ++ "ms after timeout " ++ parenthesized label

def Response.error : Response → Option String
  | .initFailed message => some message
  | .refused initializing =>
    some (if initializing then MESSAGE_BUS_INITIALIZING else MESSAGE_BUS_NOT_INITIALIZED)
  | .invalid => some "Invalid message received, missing required fields"
  | .unknownTag tag => some ("Unknown handler tag: " ++ tag)
  | .failure _ message _ => some message
  | .late _ message => message
  | _ => none

/-- What a handler's promise comes to. An error may itself be a timeout. -/
inductive Answer
  | response
  | error (message : String) (timeout : Bool)

def Answer.message : Answer → Option String
  | .response => none
  | .error message _ => some message

/-- A handler at work on a message, and what came first, its answer or the deadline if it has
one. -/
structure Entry where
  handler : Tag
  label : String
  deadline : Option ℤ
  settled : Option Answer
  raced : Option Answer

structure Call where
  number : ℕ
  entries : List Entry

/-- Where `doInit` is. -/
inductive InitPhase
  | idle
  | stopping
  | building
  | starting (started : List Tag) (updater : Tag) (todo : List Tag)
  | unwinding (message : String)

/-- A handler that timed out. -/
structure LateDelivery where
  number : ℕ
  handler : Tag
  label : String

def LateDelivery.key (w : LateDelivery) : ℕ × Tag := (w.number, w.handler)

/-- The first of the pending inits is the one that runs. `tick` are the handlers of the round in
progress that have not ticked to the end. The newest event is the head. -/
structure State where
  initialized : Bool
  pendingInits : List (ℕ × Timeouts)
  phase : InitPhase
  overrides : Timeouts
  timer : Bool
  tick : Option (List Tag)
  calls : List Call
  lateDeliveries : List LateDelivery
  arrived : ℕ
  log : List Event

inductive Input
  | receive (message : Message)
  | stopped
  | built (error : Option String)
  | started (error : Option String)
  | unwound
  | settled (number : ℕ) (handler : Tag) (answer : Answer)
  | timeout (number : ℕ) (handler : Tag)
  | abandoned (number : ℕ) (handler : Tag)
  | timerFires
  | activated
  | ticked

/-- The options of the constructor, and what the handlers say of their own messages. Their tags are
the keys of a map. -/
structure Options where
  handlers : List Tag
  distinct : handlers.Nodup
  messageTimeoutMs : ℤ
  messageTimeoutOverrides : Timeouts
  isLongRunning : Tag → Message → Bool

def start (options : Options) : State where
  initialized := false
  pendingInits := []
  phase := .idle
  overrides := options.messageTimeoutOverrides
  timer := false
  tick := none
  calls := []
  lateDeliveries := []
  arrived := 0
  log := []

namespace State

variable (options : Options) (s : State)

def emit (event : Event) : State := { s with log := event :: s.log }

def emitAll (events : List Event) : State := { s with log := events.reverse ++ s.log }

def scheduleNextTick : State := { s with timer := s.timer || s.tick.isNone }

/-- A round of ticks, its first handler's. -/
def runTick : State :=
  if s.tick.isSome then s
  else if s.pendingInits ≠ [] then { s with timer := false }
  else match options.handlers with
    | [] => { s with timer := false }.scheduleNextTick
    | updater :: rest =>
      { s with timer := false, tick := some (updater :: rest) }.emit (.tick updater)

def ticked : List Tag → State
  | [] => s
  | [_] => { s with tick := none }.scheduleNextTick
  | _ :: updater :: rest => { s with tick := some (updater :: rest) }.emit (.tick updater)

def acceptsWalletMessages : Bool := s.initialized && s.pendingInits.isEmpty

/-- `doInit` up to its first wait. -/
def doInit : State :=
  match s.pendingInits with
  | [] => { s with phase := .idle }
  | (_, messageTimeouts) :: _ =>
    if s.initialized then
      { s with timer := false, initialized := false, phase := .stopping }.emitAll
        (options.handlers.map .stop)
    else { s with
      timer := false, overrides := messageTimeouts ++ options.messageTimeoutOverrides
      phase := .building }

def settleInit (error : Option String) : State :=
  match s.pendingInits with
  | [] => s
  | (number, _) :: rest =>
    ({ s with pendingInits := rest }.emit
      (.respond number (error.elim .initialized .initFailed))).doInit options

def startNext (started : List Tag) : List Tag → State
  | [] => { s.scheduleNextTick with initialized := true }.settleInit options none
  | updater :: todo => { s with phase := .starting started updater todo }.emit (.start updater)

def resolveTimeoutMs (messageType : Option String) (handlerTag : Tag) : ℤ :=
  ((messageType.filter (· ≠ "")).bind fun type ↦ s.overrides.lookup type).getD
    ((s.overrides.lookup handlerTag).getD options.messageTimeoutMs)

def entry (message : Message) (updater : Tag) : Entry where
  handler := updater
  label := labelFor message.type updater
  deadline :=
    if options.isLongRunning updater message then none
    else (some (s.resolveTimeoutMs options message.type updater)).filter (0 < ·)
  settled := none
  raced := none

def callHandlers (number : ℕ) (message : Message) (updaters : List Tag) : State :=
  let c : Call := ⟨number, updaters.map (s.entry options message)⟩
  { s with calls := s.calls ++ [c] }.emitAll (updaters.map (.handle number))

def processMessage (message : Message) : State :=
  let number := s.arrived
  let s := { s with arrived := s.arrived + 1 }
  if message.tag = "PING" then s.emit (.respond number .pong)
  else if message.tag = "INITIALIZE_MESSAGE_BUS" then
    let queued := { s with
      pendingInits := s.pendingInits ++ [(number, message.messageTimeouts)] }
    if s.pendingInits.isEmpty then queued.doInit options else queued
  else if !s.acceptsWalletMessages then
    s.emit (.respond number (.refused !s.pendingInits.isEmpty))
  else if message.id = "" ∨ message.tag = "" then s.emit (.respond number .invalid)
  else if message.broadcast then s.callHandlers options number message options.handlers
  else if message.tag ∈ options.handlers then
    s.callHandlers options number message [message.tag]
  else s.emit (.respond number (.unknownTag message.tag))

end State

namespace Entry

def response (e : Entry) : Response :=
  match e.raced with
  | some (.error message timeout) => .failure e.handler message timeout
  | _ => .answer e.handler

/-- The deadline was first, or the handler failed with a timeout. -/
def timedOut (e : Entry) : Bool :=
  match e.raced with
  | some (.error _ timeout) => timeout
  | _ => false

def settle (answer : Answer) (e : Entry) : Entry :=
  if e.settled.isSome then e
  else { e with settled := some answer, raced := some (e.raced.getD answer) }

def timeout (e : Entry) : Entry :=
  match e.deadline with
  | none => e
  | some timeoutMs =>
    { e with raced := some (e.raced.getD (.error (timeoutText timeoutMs e.label) true)) }

end Entry

namespace Call

variable (c : Call)

def responses : List Event := c.entries.map fun e ↦ .respond c.number e.response

/-- The handlers that timed out and are still at work. -/
def watched : List LateDelivery :=
  (c.entries.filter fun e ↦ e.timedOut && e.settled.isNone).map fun e ↦
    ⟨c.number, e.handler, e.label⟩

def settledLate : List Event :=
  (c.entries.filter fun e ↦ e.timedOut && e.settled.isSome).map fun e ↦
    .respond c.number (.late e.handler (e.settled.bind Answer.message))

end Call

namespace State

variable (s : State)

/-- All handlers of a message have raced: each is responded for. Those that timed out are watched
further, and responded for once more if they have settled by now. -/
def finishCall (c : Call) : State :=
  { s with lateDeliveries := s.lateDeliveries ++ c.watched }.emitAll (c.responses ++ c.settledLate)

def update (number : ℕ) (handler : Tag) (change : Entry → Entry) : State :=
  match s.calls.find? (·.number = number) with
  | none => s
  | some c =>
    let c := { c with entries := c.entries.map fun e ↦ if e.handler = handler then change e else e }
    let others := s.calls.filter (·.number ≠ number)
    if c.entries.all (·.raced.isSome) then { s with calls := others }.finishCall c
    else { s with calls := others ++ [c] }

/-- The watch of a handler that timed out comes to its end. -/
def deliverLate (number : ℕ) (handler : Tag) (message : LateDelivery → Option String) : State :=
  match s.lateDeliveries.find? (·.key = (number, handler)) with
  | none => s
  | some w => { s with lateDeliveries := s.lateDeliveries.filter (·.key ≠ w.key) }.emit
    (.respond w.number (.late w.handler (message w)))

end State

def step (options : Options) (s : State) : Input → Option State
  | .receive message => some (s.processMessage options message)
  | .stopped => match s.phase, s.pendingInits with
    | .stopping, (_, messageTimeouts) :: _ => some { s with
      overrides := messageTimeouts ++ options.messageTimeoutOverrides
      phase := .building }
    | _, _ => none
  | .built error => match s.phase with
    | .building => match error with
      | none => some (s.startNext options [] options.handlers)
      | some message => some (s.settleInit options (some message))
    | _ => none
  | .started error => match s.phase with
    | .starting started updater todo => match error with
      | none => some ((s.emit (.started updater)).startNext options (started ++ [updater]) todo)
      | some message =>
        some ({ s with phase := .unwinding message }.emitAll (started.map .stop))
    | _ => none
  | .unwound => match s.phase with
    | .unwinding message => some (s.settleInit options (some message))
    | _ => none
  | .settled number handler answer =>
    some ((s.update number handler (Entry.settle answer)).deliverLate number handler
      fun _ ↦ answer.message)
  | .timeout number handler => some (s.update number handler Entry.timeout)
  | .abandoned number handler =>
    some (s.deliverLate number handler fun w ↦ some (abandonedText w.label))
  | .timerFires => if s.timer then some (s.runTick options) else none
  | .activated => if s.initialized then some (s.runTick options) else some s
  | .ticked => match s.tick with
    | some round => some (s.ticked round)
    | none => none

def running (handler : Tag) : List Event → Bool
  | [] => false
  | .started other :: log => other = handler || running handler log
  | .stop other :: log => other ≠ handler && running handler log
  | _ :: log => running handler log

def Response.handler? : Response → Option Tag
  | .answer handler => some handler
  | .failure handler _ _ => some handler
  | .late handler _ => some handler
  | _ => none

/-- Nothing has been said or done about a message. -/
def Untouched (number : ℕ) (log : List Event) : Prop :=
  (∀ response, .respond number response ∉ log) ∧ ∀ handler, .handle number handler ∉ log

def TimedOut (number : ℕ) (handler : Tag) (log : List Event) : Prop :=
  ∃ message, .respond number (.failure handler message true) ∈ log

def Late (number : ℕ) (handler : Tag) (log : List Event) : Prop :=
  ∃ message, .respond number (.late handler message) ∈ log

def Accounted (number : ℕ) (handler : Tag) (calls : List Call) (log : List Event) : Prop :=
  (∃ c ∈ calls, c.number = number ∧ handler ∈ c.entries.map (·.handler)) ∨
    ∃ response, response.handler? = some handler ∧ .respond number response ∈ log

/-- A handler is started when it does not run and stopped when it does, and handles a message once,
while it runs. There is one response for a message that no handler is called for, and one for each
handler that is, with a second one only after a timeout. -/
def Fits : Event → List Event → Prop
  | .start handler, log => running handler log = false
  | .stop handler, log => running handler log = true
  | .handle number handler, log => running handler log = true ∧ .handle number handler ∉ log ∧
    ∀ response, .respond number response ∉ log
  | .respond number (.late handler _), log =>
    TimedOut number handler log ∧ ¬Late number handler log
  | .respond number response, log => match response.handler? with
    | some handler => .handle number handler ∈ log ∧
      ∀ response, response.handler? = some handler → .respond number response ∉ log
    | none => Untouched number log
  | _, _ => True

def Event.init? : Event → Option ℕ
  | .respond number .initialized => some number
  | .respond number (.initFailed _) => some number
  | _ => none

/-- The inits that have been responded to, the last one first. -/
def settledInits (log : List Event) : List ℕ := log.filterMap Event.init?

/-- Besides what `Fits` says of each event: every handler that got a message is responded for or at
work, inits settle in the order they arrive, every message is responded to, at work or waiting to
be, and the ticks go on. A bus without handlers responds to no broadcast. -/
structure Sound (options : Options) (s : State) : Prop where
  events : Chronicle Fits s.log
  accounted : ∀ number handler, .handle number handler ∈ s.log →
    Accounted number handler s.calls s.log
  inits : ((s.pendingInits.map (·.1)).reverse ++ settledInits s.log).Pairwise (· > ·)
  answered : options.handlers ≠ [] → ∀ n < s.arrived, n ∈ s.pendingInits.map (·.1) ∨
    n ∈ s.calls.map (·.number) ∨ ∃ response, .respond n response ∈ s.log
  ticking : s.timer = true → s.tick = none
  alive : s.initialized = true → s.pendingInits = [] → s.timer = true ∨ s.tick.isSome = true

def Event.number? : Event → Option ℕ
  | .handle number _ => some number
  | .respond number _ => some number
  | _ => none

theorem number_of_init {e : Event} {n : ℕ} (h : e.init? = some n) : e.number? = some n := by
  cases e with
  | respond number response => cases response <;> simp_all [Event.init?, Event.number?]
  | _ => cases h

theorem settledInits_append {events : List Event} (hevents : ∀ e ∈ events, e.init? = none)
    (log : List Event) : settledInits (events ++ log) = settledInits log := by
  rw [settledInits, List.filterMap_append, List.filterMap_eq_nil_iff.mpr hevents, List.nil_append,
    settledInits]

theorem watched_mono {number : ℕ} {handler : Tag} {log log' : List Event} (hsub : log ⊆ log')
    (hsame : ∀ message, .respond number (.late handler message) ∈ log' →
      .respond number (.late handler message) ∈ log)
    (h : TimedOut number handler log ∧ ¬Late number handler log) :
    TimedOut number handler log' ∧ ¬Late number handler log' := by
  obtain ⟨⟨message, hfailure⟩, hlate⟩ := h
  refine ⟨⟨message, hsub hfailure⟩, ?_⟩
  rintro ⟨other, he⟩
  exact hlate ⟨other, hsame other he⟩

theorem Accounted.mono {number : ℕ} {handler : Tag} {calls calls' : List Call}
    {log log' : List Event} (hcalls : calls ⊆ calls') (hlog : log ⊆ log')
    (h : Accounted number handler calls log) : Accounted number handler calls' log' := by
  obtain ⟨c, hc, hnumber⟩ | ⟨response, hhandler, hresponse⟩ := h
  · exact .inl ⟨c, hcalls hc, hnumber⟩
  · exact .inr ⟨response, hhandler, hlog hresponse⟩

structure Call.Handled (options : Options) (arrived : ℕ) (log : List Event) (c : Call) :
    Prop where
  lt : c.number < arrived
  entries_ne_nil : options.handlers ≠ [] → c.entries ≠ []
  nodup : (c.entries.map (·.handler)).Nodup
  unanswered : ∀ response, .respond c.number response ∉ log
  handle : ∀ e ∈ c.entries, .handle c.number e.handler ∈ log

structure Messages (options : Options) (arrived : ℕ) (pending : List ℕ) (calls : List Call)
    (late : List LateDelivery) (log : List Event) : Prop where
  events : Chronicle Fits log
  inits : (pending.reverse ++ settledInits log).Pairwise (· > ·)
  answered : options.handlers ≠ [] → ∀ n < arrived, n ∈ pending ∨ n ∈ calls.map (·.number) ∨
    ∃ response, .respond n response ∈ log
  numbers : ∀ e ∈ log, ∀ n, e.number? = some n → n < arrived
  queued : ∀ n ∈ pending, n < arrived ∧ Untouched n log ∧ n ∉ calls.map (·.number)
  handled : ∀ c ∈ calls, c.Handled options arrived log
  distinct : (calls.map (·.number)).Nodup
  watched : ∀ w ∈ late, TimedOut w.number w.handler log ∧ ¬Late w.number w.handler log
  watchedOnce : (late.map LateDelivery.key).Nodup
  accounted : ∀ number handler, .handle number handler ∈ log → Accounted number handler calls log

section Messages

variable {options : Options} {arrived : ℕ} {pending : List ℕ} {calls : List Call}
  {late : List LateDelivery} {log : List Event}

theorem Messages.untouched (h : Messages options arrived pending calls late log) :
    Untouched arrived log :=
  ⟨fun _ hmem ↦ Nat.lt_irrefl _ (h.numbers _ hmem arrived rfl),
    fun _ hmem ↦ Nat.lt_irrefl _ (h.numbers _ hmem arrived rfl)⟩

theorem Messages.new_call (h : Messages options arrived pending calls late log) :
    arrived ∉ calls.map (·.number) := by
  intro hmem
  obtain ⟨c, hc, hnumber⟩ := List.mem_map.mp hmem
  have hlt := (h.handled c hc).lt
  omega

theorem Messages.new_pending (h : Messages options arrived pending calls late log) :
    arrived ∉ pending := fun hmem ↦ Nat.lt_irrefl _ (h.queued arrived hmem).1

theorem Messages.quiet (h : Messages options arrived pending calls late log) {events : List Event}
    (hevents : ∀ e ∈ events, e.number? = none) (hfits : Chronicle Fits (events ++ log)) :
    Messages options arrived pending calls late (events ++ log) := by
  have hmem : ∀ {e : Event} {n}, e.number? = some n → (e ∈ events ++ log ↔ e ∈ log) := by
    intro e n hn
    rw [List.mem_append, or_iff_right fun he ↦ ?_]
    rw [hevents e he] at hn
    cases hn
  have hsettled : settledInits (events ++ log) = settledInits log := by
    refine settledInits_append (fun e he ↦ ?_) log
    have hnone := hevents e he
    cases e with
    | respond number response => cases hnone
    | _ => rfl
  refine ⟨hfits, hsettled ▸ h.inits, ?_, ?_, ?_, ?_, h.distinct, ?_, h.watchedOnce, ?_⟩
  · intro hne n hn
    refine (h.answered hne n hn).imp_right (Or.imp_right ?_)
    rintro ⟨response, hresponse⟩
    exact ⟨response, List.mem_append_right _ hresponse⟩
  · intro e he n hn
    exact h.numbers e ((hmem hn).mp he) n hn
  · intro n hn
    obtain ⟨hlt, huntouched, hcalls⟩ := h.queued n hn
    exact ⟨hlt, ⟨fun response he ↦ huntouched.1 response ((hmem rfl).mp he),
      fun handler he ↦ huntouched.2 handler ((hmem rfl).mp he)⟩, hcalls⟩
  · intro c hc
    obtain ⟨hlt, hne, hnodup, hrespond, hhandle⟩ := h.handled c hc
    exact ⟨hlt, hne, hnodup, fun response he ↦ hrespond response ((hmem rfl).mp he),
      fun e he ↦ List.mem_append_right _ (hhandle e he)⟩
  · intro w hw
    exact watched_mono (List.subset_append_right _ _) (fun _ ↦ (hmem rfl).mp) (h.watched w hw)
  · intro number handler he
    exact (h.accounted number handler ((hmem rfl).mp he)).mono (List.Subset.refl _)
      (List.subset_append_right _ _)

theorem Messages.queue (h : Messages options arrived pending calls late log) :
    Messages options (arrived + 1) (pending ++ [arrived]) calls late log := by
  refine ⟨h.events, ?_, ?_, ?_, ?_, ?_, h.distinct, h.watched, h.watchedOnce, h.accounted⟩
  · rw [List.reverse_append, List.reverse_singleton, List.append_assoc, List.singleton_append,
      List.pairwise_cons]
    refine ⟨fun n hn ↦ ?_, h.inits⟩
    obtain hn | hn := List.mem_append.mp hn
    · exact (h.queued n (List.mem_reverse.mp hn)).1
    · obtain ⟨e, he, hinit⟩ := List.mem_filterMap.mp hn
      exact h.numbers e he n (number_of_init hinit)
  · intro hne n hn
    obtain rfl | hlt := Nat.eq_or_lt_of_le (Nat.le_of_lt_succ hn)
    · exact .inl List.mem_concat_self
    · exact (h.answered hne n hlt).imp_left (List.mem_append_left _)
  · intro e he n hn
    exact Nat.lt_succ_of_lt (h.numbers e he n hn)
  · intro n hn
    obtain hn | hn := List.mem_append.mp hn
    · obtain ⟨hlt, huntouched, hcalls⟩ := h.queued n hn
      exact ⟨Nat.lt_succ_of_lt hlt, huntouched, hcalls⟩
    · obtain rfl := List.mem_singleton.mp hn
      exact ⟨Nat.lt_succ_self n, h.untouched, h.new_call⟩
  · intro c hc
    obtain ⟨hlt, hne, hnodup, hrespond, hhandle⟩ := h.handled c hc
    exact ⟨Nat.lt_succ_of_lt hlt, hne, hnodup, hrespond, hhandle⟩

/-- A message that no handler is called for is responded to, and does not wait any more. -/
theorem Messages.respond (h : Messages options arrived pending calls late log) {n : ℕ}
    {response : Response} {pending' : List ℕ} (hplain : response.handler? = none)
    (hn : n ∈ pending) (hpending : ∀ m, m ∈ pending' ↔ m ∈ pending ∧ m ≠ n)
    (hinits : (pending'.reverse ++ settledInits (.respond n response :: log)).Pairwise (· > ·)) :
    Messages options arrived pending' calls late (.respond n response :: log) := by
  obtain ⟨hlt, huntouched, hcall⟩ := h.queued n hn
  have hfits : Fits (.respond n response) log := by
    cases response with
    | answer handler => cases hplain
    | failure handler message timedOut => cases hplain
    | late handler message => cases hplain
    | _ => exact huntouched
  refine ⟨⟨hfits, h.events⟩, hinits, ?_, ?_, ?_, ?_, h.distinct, ?_, h.watchedOnce, ?_⟩
  · intro hne m hm
    by_cases he : m = n
    · exact .inr (.inr ⟨response, he ▸ List.mem_cons_self⟩)
    · obtain hm | hm | ⟨other, hm⟩ := h.answered hne m hm
      · exact .inl ((hpending m).mpr ⟨hm, he⟩)
      · exact .inr (.inl hm)
      · exact .inr (.inr ⟨other, List.mem_cons_of_mem _ hm⟩)
  · intro e he m hm
    obtain rfl | he := List.mem_cons.mp he
    · cases hm
      exact hlt
    · exact h.numbers e he m hm
  · intro m hm
    obtain ⟨hm, hne⟩ := (hpending m).mp hm
    obtain ⟨hlt, huntouched, hcalls⟩ := h.queued m hm
    refine ⟨hlt, ⟨fun other he ↦ ?_, fun handler he ↦ ?_⟩, hcalls⟩
    · obtain he | he := List.mem_cons.mp he
      · cases he
        exact hne rfl
      · exact huntouched.1 other he
    · obtain he | he := List.mem_cons.mp he
      · cases he
      · exact huntouched.2 handler he
  · intro c hc
    obtain ⟨hlt, hne, hnodup, hrespond, hhandle⟩ := h.handled c hc
    refine ⟨hlt, hne, hnodup, fun other he ↦ ?_, fun e he ↦ List.mem_cons_of_mem _ (hhandle e he)⟩
    obtain he | he := List.mem_cons.mp he
    · cases he
      exact hcall (List.mem_map_of_mem hc)
    · exact hrespond other he
  · intro w hw
    refine watched_mono (List.subset_cons_self _ _) (fun other he ↦ ?_) (h.watched w hw)
    obtain he | he := List.mem_cons.mp he
    · cases he
      cases hplain
    · exact he
  · intro number handler he
    have he := (List.mem_cons.mp he).resolve_left (by simp)
    exact (h.accounted number handler he).mono (List.Subset.refl _) (List.subset_cons_self _ _)

theorem Messages.respond_new (h : Messages options arrived pending calls late log)
    {response : Response} (hplain : response.handler? = none)
    (hinit : (Event.respond arrived response).init? = none) :
    Messages options (arrived + 1) pending calls late (.respond arrived response :: log) := by
  refine h.queue.respond hplain List.mem_concat_self (fun m ↦ ?_) ?_
  · rw [List.mem_append, List.mem_singleton]
    constructor
    · intro hm
      exact ⟨.inl hm, fun he ↦ h.new_pending (he ▸ hm)⟩
    · rintro ⟨hm | hm, hne⟩
      · exact hm
      · exact absurd hm hne
  · rw [settledInits, List.filterMap_cons_none hinit]
    exact h.inits

theorem Messages.respond_init {n : ℕ}
    (h : Messages options arrived (n :: pending) calls late log) {response : Response}
    (hplain : response.handler? = none) (hinit : (Event.respond n response).init? = some n) :
    Messages options arrived pending calls late (.respond n response :: log) := by
  have hinits := h.inits
  rw [List.reverse_cons, List.append_assoc, List.singleton_append] at hinits
  refine h.respond hplain List.mem_cons_self (fun m ↦ ?_) ?_
  · have hnew : n ∉ pending := by
      intro hmem
      have hlt := (List.pairwise_append.mp hinits).2.2 n (List.mem_reverse.mpr hmem) n
        List.mem_cons_self
      exact Nat.lt_irrefl _ hlt
    rw [List.mem_cons]
    constructor
    · intro hm
      exact ⟨.inr hm, fun he ↦ hnew (he ▸ hm)⟩
    · rintro ⟨hm | hm, hne⟩
      · exact absurd hm hne
      · exact hm
  · rw [settledInits, List.filterMap_cons_some hinit]
    exact hinits

theorem running_append {events : List Event} (hevents : ∀ e ∈ events, e.number?.isSome = true)
    (handler : Tag) (log : List Event) : running handler (events ++ log) = running handler log := by
  induction events with
  | nil => rfl
  | cons e events ih =>
    obtain ⟨he, hrest⟩ := List.forall_mem_cons.mp hevents
    cases e with
    | handle number other => exact ih hrest
    | respond number response => exact ih hrest
    | _ => cases he

theorem chronicle_handles {n : ℕ} {updaters : List Tag} (hnodup : updaters.Nodup)
    (hrunning : ∀ updater ∈ updaters, running updater log = true) (hn : Untouched n log)
    (hlog : Chronicle Fits log) :
    Chronicle Fits ((updaters.map (.handle n)).reverse ++ log) := by
  induction updaters using List.reverseRecOn with
  | nil => exact hlog
  | append_singleton updaters updater ih =>
    rw [List.nodup_append'] at hnodup
    obtain ⟨hnodup, -, hdisjoint⟩ := hnodup
    have hnew : updater ∉ updaters := fun hmem ↦ hdisjoint hmem List.mem_cons_self
    rw [List.map_append, List.reverse_append]
    refine ⟨⟨?_, ?_, ?_⟩,
      ih hnodup fun other hother ↦ hrunning other (List.mem_append_left _ hother)⟩
    · refine (running_append (fun e he ↦ ?_) _ _).trans (hrunning updater List.mem_concat_self)
      obtain ⟨other, -, rfl⟩ := List.mem_map.mp (List.mem_reverse.mp he)
      rfl
    · simp [hnew, hn.2]
    · simp [hn.1]

theorem Messages.call (h : Messages options arrived pending calls late log) {entries : List Entry}
    (hnodup : (entries.map (·.handler)).Nodup) (hne : options.handlers ≠ [] → entries ≠ [])
    (hrunning : ∀ e ∈ entries, running e.handler log = true) :
    Messages options (arrived + 1) pending (calls ++ [⟨arrived, entries⟩]) late
      (((entries.map (·.handler)).map (.handle arrived)).reverse ++ log) := by
  have hevents : Chronicle Fits
      (((entries.map (·.handler)).map (.handle arrived)).reverse ++ log) := by
    refine chronicle_handles hnodup (fun updater hupdater ↦ ?_) h.untouched h.events
    obtain ⟨e, he, rfl⟩ := List.mem_map.mp hupdater
    exact hrunning e he
  generalize hhandles : ((entries.map (·.handler)).map (Event.handle arrived)).reverse = handles
    at hevents ⊢
  have hmem : ∀ {e}, e ∈ handles ↔ ∃ entry ∈ entries, e = .handle arrived entry.handler := by
    intro e
    simp only [← hhandles, List.mem_reverse, List.mem_map, exists_exists_and_eq_and]
    exact exists_congr fun entry ↦ and_congr_right fun _ ↦ eq_comm
  have hrespond : ∀ {n response}, .respond n response ∈ handles ++ log ↔
      .respond n response ∈ log := by
    intro n response
    rw [List.mem_append, or_iff_right fun he ↦ ?_]
    obtain ⟨entry, -, he⟩ := hmem.mp he
    cases he
  have hsettled : settledInits (handles ++ log) = settledInits log := by
    refine settledInits_append (fun e he ↦ ?_) log
    obtain ⟨entry, -, rfl⟩ := hmem.mp he
    rfl
  have hlt {n : ℕ} : n < arrived → n < arrived + 1 := Nat.lt_succ_of_lt
  refine ⟨hevents, hsettled ▸ h.inits, ?_, ?_, ?_, ?_, ?_, ?_, h.watchedOnce, ?_⟩
  · intro hne n hn
    rw [List.map_append, List.mem_append]
    obtain rfl | hlt := Nat.eq_or_lt_of_le (Nat.le_of_lt_succ hn)
    · exact .inr (.inl (.inr List.mem_cons_self))
    · obtain hn | hn | ⟨response, hn⟩ := h.answered hne n hlt
      · exact .inl hn
      · exact .inr (.inl (.inl hn))
      · exact .inr (.inr ⟨response, hrespond.mpr hn⟩)
  · intro e he n hn
    obtain he | he := List.mem_append.mp he
    · obtain ⟨entry, -, rfl⟩ := hmem.mp he
      cases hn
      exact Nat.lt_succ_self _
    · exact hlt (h.numbers e he n hn)
  · intro n hn
    obtain ⟨hn', huntouched, hcalls⟩ := h.queued n hn
    refine ⟨hlt hn', ⟨fun response he ↦ huntouched.1 response (hrespond.mp he),
      fun handler he ↦ ?_⟩, ?_⟩
    · obtain he | he := List.mem_append.mp he
      · obtain ⟨entry, -, he⟩ := hmem.mp he
        cases he
        exact Nat.lt_irrefl _ hn'
      · exact huntouched.2 handler he
    · rw [List.map_append, List.mem_append, not_or]
      exact ⟨hcalls, fun he ↦ Nat.ne_of_lt hn' (List.mem_singleton.mp he)⟩
  · intro c hc
    obtain hc | hc := List.mem_append.mp hc
    · obtain ⟨hn, hne, hnodup, hresponds, hhandle⟩ := h.handled c hc
      exact ⟨hlt hn, hne, hnodup, fun response he ↦ hresponds response (hrespond.mp he),
        fun e he ↦ List.mem_append_right _ (hhandle e he)⟩
    · obtain rfl := List.mem_singleton.mp hc
      exact ⟨Nat.lt_succ_self _, hne, hnodup,
        fun response he ↦ h.untouched.1 response (hrespond.mp he),
        fun e he ↦ List.mem_append_left _ (hmem.mpr ⟨e, he, rfl⟩)⟩
  · rw [List.map_append, List.nodup_append']
    refine ⟨h.distinct, List.nodup_singleton _, fun n hn he ↦ h.new_call ?_⟩
    obtain rfl : n = arrived := List.mem_singleton.mp he
    exact hn
  · intro w hw
    exact watched_mono (List.subset_append_right _ _) (fun _ ↦ hrespond.mp) (h.watched w hw)
  · intro number handler he
    obtain he | he := List.mem_append.mp he
    · obtain ⟨entry, hentry, he⟩ := hmem.mp he
      cases he
      exact .inl ⟨_, List.mem_concat_self, rfl, List.mem_map_of_mem hentry⟩
    · exact (h.accounted number handler he).mono (List.subset_append_left _ _)
        (List.subset_append_right _ _)

theorem Entry.handler?_response (e : Entry) : e.response.handler? = some e.handler := by
  unfold response
  split <;> rfl

theorem Entry.response_of_timedOut {e : Entry} (h : e.timedOut = true) :
    ∃ message, e.response = .failure e.handler message true := by
  unfold timedOut at h
  unfold response
  split at h
  · next message timeout hraced => exact ⟨message, by rw [h]⟩
  · cases h

theorem fits_response {n : ℕ} {response : Response} {handler : Tag}
    (h : response.handler? = some handler) (hlate : ∀ message, response ≠ .late handler message)
    (hhandle : .handle n handler ∈ log)
    (hnew : ∀ response, response.handler? = some handler → .respond n response ∉ log) :
    Fits (.respond n response) log := by
  cases response with
  | answer other =>
    cases h
    exact ⟨hhandle, hnew⟩
  | failure other message timedOut =>
    cases h
    exact ⟨hhandle, hnew⟩
  | late other message =>
    cases h
    exact absurd rfl (hlate message)
  | _ => cases h

theorem Entry.response_ne_late (e : Entry) (handler : Tag) (message : Option String) :
    e.response ≠ .late handler message := by
  unfold response
  split <;> simp

theorem chronicle_responses {n : ℕ} {entries : List Entry}
    (hnodup : (entries.map (·.handler)).Nodup)
    (hhandle : ∀ e ∈ entries, .handle n e.handler ∈ log)
    (hnew : ∀ response, .respond n response ∉ log) (hlog : Chronicle Fits log) :
    Chronicle Fits ((entries.map fun e ↦ Event.respond n e.response).reverse ++ log) := by
  induction entries using List.reverseRecOn with
  | nil => exact hlog
  | append_singleton entries e ih =>
    rw [List.map_append, List.nodup_append'] at hnodup
    obtain ⟨hnodup, -, hdisjoint⟩ := hnodup
    rw [List.map_append, List.reverse_append]
    refine ⟨?_, ih hnodup fun other hother ↦ hhandle other (List.mem_append_left _ hother)⟩
    refine fits_response e.handler?_response (e.response_ne_late _)
      (List.mem_append_right _ (hhandle e List.mem_concat_self)) fun response hresponse he ↦ ?_
    obtain he | he := List.mem_append.mp he
    · obtain ⟨other, hother, heq⟩ := List.mem_map.mp (List.mem_reverse.mp he)
      cases heq
      rw [other.handler?_response] at hresponse
      have hsame : e.handler ∈ entries.map (·.handler) :=
        Option.some.inj hresponse ▸ List.mem_map_of_mem hother
      exact hdisjoint hsame List.mem_cons_self
    · exact hnew response he

theorem chronicle_late {n : ℕ} {entries : List Entry} {message : Entry → Option String}
    (hnodup : (entries.map (·.handler)).Nodup)
    (hfailure : ∀ e ∈ entries, TimedOut n e.handler log)
    (hnew : ∀ e ∈ entries, ¬Late n e.handler log) (hlog : Chronicle Fits log) :
    Chronicle Fits ((entries.map fun e ↦ Event.respond n (.late e.handler (message e))).reverse ++
      log) := by
  induction entries using List.reverseRecOn with
  | nil => exact hlog
  | append_singleton entries e ih =>
    rw [List.map_append, List.nodup_append'] at hnodup
    obtain ⟨hnodup, -, hdisjoint⟩ := hnodup
    obtain ⟨text, hfailure'⟩ := hfailure e List.mem_concat_self
    rw [List.map_append, List.reverse_append]
    refine ⟨⟨⟨text, List.mem_append_right _ hfailure'⟩, ?_⟩, ih hnodup
      (fun other hmem ↦ hfailure other (List.mem_append_left _ hmem))
      fun other hmem ↦ hnew other (List.mem_append_left _ hmem)⟩
    rintro ⟨other, he⟩
    obtain he | he := List.mem_append.mp he
    · obtain ⟨e', he', heq⟩ := List.mem_map.mp (List.mem_reverse.mp he)
      have hsame : e'.handler = e.handler := (Response.late.inj (Event.respond.inj heq).2).1
      have hmem : e.handler ∈ entries.map (·.handler) := hsame ▸ List.mem_map_of_mem he'
      exact hdisjoint hmem List.mem_cons_self
    · exact hnew e List.mem_concat_self ⟨other, he⟩

theorem Call.mem_finished {c : Call} {e : Event} (h : e ∈ (c.responses ++ c.settledLate).reverse) :
    ∃ entry ∈ c.entries, e = .respond c.number entry.response ∨
      entry.timedOut = true ∧ ∃ message, e = .respond c.number (.late entry.handler message) := by
  obtain he | he := List.mem_append.mp (List.mem_reverse.mp h)
  · obtain ⟨entry, hentry, rfl⟩ := List.mem_map.mp he
    exact ⟨entry, hentry, .inl rfl⟩
  · obtain ⟨entry, hentry, rfl⟩ := List.mem_map.mp he
    obtain ⟨hentry, htimed⟩ := List.mem_filter.mp hentry
    exact ⟨entry, hentry, .inr ⟨((Bool.and_eq_true _ _).mp htimed).1, _, rfl⟩⟩

theorem Call.response_of_finished {c : Call} {e : Event}
    (h : e ∈ (c.responses ++ c.settledLate).reverse) :
    ∃ response, e = .respond c.number response ∧
      (Event.respond c.number response).init? = none := by
  obtain ⟨entry, hentry, rfl | ⟨-, message, rfl⟩⟩ := c.mem_finished h
  · refine ⟨_, rfl, ?_⟩
    have hhandler := entry.handler?_response
    cases hresponse : entry.response with
    | initialized => simp [hresponse, Response.handler?] at hhandler
    | initFailed message => simp [hresponse, Response.handler?] at hhandler
    | _ => rfl
  · exact ⟨_, rfl, rfl⟩

theorem Call.respond_mem {c : Call} {e : Entry} (h : e ∈ c.entries) (log : List Event) :
    .respond c.number e.response ∈ (c.responses ++ c.settledLate).reverse ++ log :=
  List.mem_append_left _ (List.mem_reverse.mpr (List.mem_append_left _ (List.mem_map_of_mem h)))

theorem Call.Handled.finish {c : Call} (h : c.Handled options arrived log)
    (hlog : Chronicle Fits log) :
    Chronicle Fits ((c.responses ++ c.settledLate).reverse ++ log) := by
  rw [List.reverse_append, List.append_assoc]
  refine chronicle_late ?_ (fun e he ↦ ?_) (fun e _ hlate ↦ ?_)
    (chronicle_responses h.nodup h.handle h.unanswered hlog)
  · exact (List.filter_sublist.map _).nodup h.nodup
  · obtain ⟨he, htimed⟩ := List.mem_filter.mp he
    obtain ⟨message, hresponse⟩ := Entry.response_of_timedOut ((Bool.and_eq_true _ _).mp htimed).1
    refine ⟨message, List.mem_append_left _ (List.mem_reverse.mpr (List.mem_map.mpr ⟨e, he, ?_⟩))⟩
    rw [hresponse]
  · obtain ⟨message, hlate⟩ := hlate
    obtain hlate | hlate := List.mem_append.mp hlate
    · obtain ⟨e', -, heq⟩ := List.mem_map.mp (List.mem_reverse.mp hlate)
      exact e'.response_ne_late e.handler message (Event.respond.inj heq).2
    · exact h.unanswered _ hlate

/-- What a finished call still watches has timed out and is not settled. -/
theorem Call.Handled.watched {c : Call} (h : c.Handled options arrived log) {w : LateDelivery}
    (hw : w ∈ c.watched) :
    TimedOut w.number w.handler ((c.responses ++ c.settledLate).reverse ++ log) ∧
      ¬Late w.number w.handler ((c.responses ++ c.settledLate).reverse ++ log) := by
  obtain ⟨e, he, rfl⟩ := List.mem_map.mp hw
  obtain ⟨he, htimed⟩ := List.mem_filter.mp he
  obtain ⟨htimed, hunsettled⟩ := (Bool.and_eq_true _ _).mp htimed
  obtain ⟨message, hresponse⟩ := Entry.response_of_timedOut htimed
  constructor
  · exact ⟨message, hresponse ▸ c.respond_mem he log⟩
  · rintro ⟨other, hlate⟩
    rw [List.mem_append, List.mem_reverse, List.mem_append] at hlate
    obtain (hlate | hlate) | hlate := hlate
    · obtain ⟨e', -, heq⟩ := List.mem_map.mp hlate
      exact e'.response_ne_late e.handler other (Event.respond.inj heq).2
    · obtain ⟨e', he', heq⟩ := List.mem_map.mp hlate
      obtain ⟨he', htimed'⟩ := List.mem_filter.mp he'
      have hhandler : e'.handler = e.handler :=
        (Response.late.inj (Event.respond.inj heq).2).1
      obtain rfl := List.inj_on_of_nodup_map h.nodup he' he hhandler
      have hsettled := ((Bool.and_eq_true _ _).mp htimed').2
      rw [Option.isNone_iff_eq_none.mp hunsettled] at hsettled
      cases hsettled
    · exact h.unanswered _ hlate

theorem Messages.watchedOnce_finish (h : Messages options arrived pending calls late log) {c : Call}
    (hc : c.Handled options arrived log) :
    ((late ++ c.watched).map LateDelivery.key).Nodup := by
  rw [List.map_append]
  refine List.nodup_append'.mpr ⟨h.watchedOnce, ?_, fun key hkey hwatched ↦ ?_⟩
  · refine List.Nodup.of_map Prod.snd ?_
    rw [Call.watched, List.map_map, List.map_map]
    exact (List.filter_sublist.map _).nodup hc.nodup
  · obtain ⟨w, hw, rfl⟩ := List.mem_map.mp hkey
    obtain ⟨w', hw', heq⟩ := List.mem_map.mp hwatched
    obtain ⟨e, he, rfl⟩ := List.mem_map.mp hw'
    obtain ⟨message, hfailure⟩ := (h.watched w hw).1
    have hnumber : c.number = w.number := congrArg Prod.fst heq
    exact hc.unanswered _ (hnumber ▸ hfailure)

theorem Messages.finish (h : Messages options arrived pending calls late log) {c : Call}
    {others : List Call} (hcalls : ∀ c' ∈ others, c' ∈ calls ∧ c'.number ≠ c.number)
    (hback : ∀ c' ∈ calls, c' ∈ others ∨
      c'.number = c.number ∧ c'.entries.map (·.handler) = c.entries.map (·.handler))
    (hdistinct : (others.map (·.number)).Nodup)
    (hc : c.Handled options arrived log)
    (hpending : c.number ∉ pending) :
    Messages options arrived pending others (late ++ c.watched)
      ((c.responses ++ c.settledLate).reverse ++ log) := by
  have hother : ∀ {n : ℕ} {e}, e.number? = some n → n ≠ c.number →
      (e ∈ (c.responses ++ c.settledLate).reverse ++ log ↔ e ∈ log) := by
    intro n e hn hne
    rw [List.mem_append, or_iff_right fun he ↦ ?_]
    obtain ⟨response, rfl, -⟩ := c.response_of_finished he
    exact hne (Option.some.inj hn).symm
  have hhandles : ∀ {n handler}, .handle n handler ∈ (c.responses ++ c.settledLate).reverse ++ log ↔
      .handle n handler ∈ log := by
    intro n handler
    rw [List.mem_append, or_iff_right fun he ↦ ?_]
    obtain ⟨response, he, -⟩ := c.response_of_finished he
    cases he
  have hsettled : settledInits ((c.responses ++ c.settledLate).reverse ++ log) =
      settledInits log := by
    refine settledInits_append (fun e he ↦ ?_) log
    obtain ⟨response, rfl, hinit⟩ := c.response_of_finished he
    exact hinit
  refine ⟨hc.finish h.events, hsettled ▸ h.inits, ?_, ?_, ?_, ?_, hdistinct, ?_,
    h.watchedOnce_finish hc, ?_⟩
  · intro hne n hn
    by_cases he : n = c.number
    · obtain ⟨e, hentry⟩ := List.exists_mem_of_ne_nil _ (hc.entries_ne_nil hne)
      exact .inr (.inr ⟨e.response, he ▸ c.respond_mem hentry log⟩)
    · obtain hn | hn | ⟨response, hn⟩ := h.answered hne n hn
      · exact .inl hn
      · obtain ⟨c', hc', rfl⟩ := List.mem_map.mp hn
        have hc' := (hback c' hc').resolve_right fun hsame ↦ he hsame.1
        exact .inr (.inl (List.mem_map_of_mem hc'))
      · exact .inr (.inr ⟨response, List.mem_append_right _ hn⟩)
  · intro e he n hn
    obtain he | he := List.mem_append.mp he
    · obtain ⟨response, rfl, -⟩ := c.response_of_finished he
      cases hn
      exact hc.lt
    · exact h.numbers e he n hn
  · intro n hn
    obtain ⟨hn', huntouched, hcall⟩ := h.queued n hn
    have hne : n ≠ c.number := fun he ↦ hpending (he ▸ hn)
    refine ⟨hn', ⟨fun response he ↦ huntouched.1 response ((hother rfl hne).mp he),
      fun handler he ↦ huntouched.2 handler (hhandles.mp he)⟩, fun hmem ↦ ?_⟩
    obtain ⟨c', hc', rfl⟩ := List.mem_map.mp hmem
    exact hcall (List.mem_map_of_mem (hcalls c' hc').1)
  · intro c' hc'
    obtain ⟨hmem, hne'⟩ := hcalls c' hc'
    obtain ⟨hlt, hne, hnodup, hrespond, hhandle⟩ := h.handled c' hmem
    exact ⟨hlt, hne, hnodup, fun response he ↦ hrespond response ((hother rfl hne').mp he),
      fun e he ↦ List.mem_append_right _ (hhandle e he)⟩
  · intro w hw
    obtain hw | hw := List.mem_append.mp hw
    · obtain ⟨message, hfailure⟩ := (h.watched w hw).1
      have hne : w.number ≠ c.number := fun he ↦ hc.unanswered _ (he ▸ hfailure)
      exact watched_mono (List.subset_append_right _ _) (fun _ ↦ (hother rfl hne).mp)
        (h.watched w hw)
    · exact hc.watched hw
  · intro number handler he
    obtain ⟨c', hc', rfl, hhandler⟩ | ⟨response, hhandler, hresponse⟩ :=
      h.accounted number handler (hhandles.mp he)
    · obtain hc' | ⟨hnumber, hhandlers⟩ := hback c' hc'
      · exact .inl ⟨c', hc', rfl, hhandler⟩
      -- the call at hand, which responds for each of its handlers
      rw [hhandlers] at hhandler
      obtain ⟨e, hentry, rfl⟩ := List.mem_map.mp hhandler
      exact .inr ⟨e.response, e.handler?_response, hnumber ▸ c.respond_mem hentry log⟩
    · exact .inr ⟨response, hhandler, List.mem_append_right _ hresponse⟩

theorem Messages.deliverLate (h : Messages options arrived pending calls late log)
    {w : LateDelivery} (hw : w ∈ late) (message : Option String) :
    Messages options arrived pending calls (late.filter (·.key ≠ w.key))
      (.respond w.number (.late w.handler message) :: log) := by
  obtain ⟨⟨text, hfailure⟩, hlate⟩ := h.watched w hw
  have hlt := h.numbers _ hfailure w.number rfl
  have hother : ∀ {n response}, n ≠ w.number →
      (.respond n response ∈ Event.respond w.number (.late w.handler message) :: log ↔
        .respond n response ∈ log) := by
    intro n response hne
    rw [List.mem_cons, or_iff_right fun he ↦ hne (Event.respond.inj he).1]
  refine ⟨⟨⟨⟨text, hfailure⟩, hlate⟩, h.events⟩, h.inits, ?_, ?_, ?_, ?_, h.distinct, ?_,
    (List.filter_sublist.map _).nodup h.watchedOnce, ?_⟩
  · intro hne n hn
    refine (h.answered hne n hn).imp_right (Or.imp_right ?_)
    rintro ⟨response, hresponse⟩
    exact ⟨response, List.mem_cons_of_mem _ hresponse⟩
  · intro e he n hn
    obtain rfl | he := List.mem_cons.mp he
    · cases hn
      exact hlt
    · exact h.numbers e he n hn
  · intro n hn
    obtain ⟨hn', huntouched, hcall⟩ := h.queued n hn
    have hne : n ≠ w.number := fun he ↦ huntouched.1 _ (he ▸ hfailure)
    refine ⟨hn', ⟨fun response he ↦ huntouched.1 response ((hother hne).mp he),
      fun handler he ↦ huntouched.2 handler ?_⟩, hcall⟩
    exact (List.mem_cons.mp he).resolve_left (by simp)
  · intro c hc
    obtain ⟨hn, hne, hnodup, hrespond, hhandle⟩ := h.handled c hc
    have hne' : c.number ≠ w.number := fun he ↦ hrespond _ (he ▸ hfailure)
    exact ⟨hn, hne, hnodup, fun response he ↦ hrespond response ((hother hne').mp he),
      fun e he ↦ List.mem_cons_of_mem _ (hhandle e he)⟩
  · intro w' hw'
    obtain ⟨hw', hne⟩ := List.mem_filter.mp hw'
    refine watched_mono (List.subset_cons_self _ _) (fun other he ↦ ?_) (h.watched w' hw')
    obtain he | he := List.mem_cons.mp he
    · have hkey : w'.key = w.key := Prod.ext (Event.respond.inj he).1
        (Response.late.inj (Event.respond.inj he).2).1
      exact absurd hkey (of_decide_eq_true hne)
    · exact he
  · intro number handler he
    have he := (List.mem_cons.mp he).resolve_left (by simp)
    exact (h.accounted number handler he).mono (List.Subset.refl _) (List.subset_cons_self _ _)

end Messages

section Handlers

variable {options : Options} {s : State}

/-- The handlers that run. -/
def State.up (options : Options) (s : State) : List Tag :=
  match s.phase with
  | .idle => if s.initialized then options.handlers else []
  | .starting started _ _ => started
  | _ => []

def InitPhase.Ok (options : Options) (s : State) : InitPhase → Prop
  | .idle => s.pendingInits = []
  | .starting started updater todo => s.pendingInits ≠ [] ∧ s.initialized = false ∧
    options.handlers = started ++ updater :: todo
  | _ => s.pendingInits ≠ [] ∧ s.initialized = false

/-- What does not depend on where `doInit` is. -/
structure Base (options : Options) (s : State) : Prop where
  messages : Messages options s.arrived (s.pendingInits.map (·.1)) s.calls s.lateDeliveries s.log
  ticking : s.timer = true → s.tick = none

structure Inv (options : Options) (s : State) : Prop extends Base options s where
  up : ∀ handler, running handler s.log = true ↔ handler ∈ s.up options
  phase : s.phase.Ok options s
  alive : s.initialized = true → s.pendingInits = [] → s.timer = true ∨ s.tick.isSome = true

theorem running_stops {handlers : List Tag} {log : List Event} (handler : Tag) :
    running handler ((handlers.map .stop).reverse ++ log) = true ↔
      running handler log = true ∧ handler ∉ handlers := by
  induction handlers using List.reverseRecOn with
  | nil => simp
  | append_singleton handlers other ih =>
    have hcons : ((handlers ++ [other]).map Event.stop).reverse ++ log =
        .stop other :: ((handlers.map .stop).reverse ++ log) := by
      rw [List.map_append, List.reverse_append]
      rfl
    rw [hcons, running, Bool.and_eq_true, ih, decide_eq_true_eq, List.mem_append,
      List.mem_singleton, not_or]
    tauto

theorem chronicle_stops {handlers : List Tag} {log : List Event} (hnodup : handlers.Nodup)
    (hrunning : ∀ handler ∈ handlers, running handler log = true) (hlog : Chronicle Fits log) :
    Chronicle Fits ((handlers.map .stop).reverse ++ log) := by
  induction handlers using List.reverseRecOn with
  | nil => exact hlog
  | append_singleton handlers handler ih =>
    rw [List.nodup_append'] at hnodup
    obtain ⟨hnodup, -, hdisjoint⟩ := hnodup
    rw [List.map_append, List.reverse_append]
    refine ⟨(running_stops handler).mpr ⟨hrunning handler List.mem_concat_self, fun hmem ↦
      hdisjoint hmem List.mem_cons_self⟩, ih hnodup fun other hother ↦
        hrunning other (List.mem_append_left _ hother)⟩

theorem Base.stops (h : Base options s) {handlers : List Tag} (hnodup : handlers.Nodup)
    (hrunning : ∀ handler ∈ handlers, running handler s.log = true) :
    Base options (s.emitAll (handlers.map .stop)) := by
  refine ⟨h.messages.quiet (fun e he ↦ ?_) (chronicle_stops hnodup hrunning h.messages.events),
    h.ticking⟩
  obtain ⟨handler, -, rfl⟩ := List.mem_map.mp (List.mem_reverse.mp he)
  rfl

theorem inv_doInit (h : Base options s)
    (hup : ∀ handler, running handler s.log = true ↔
      handler ∈ if s.initialized then options.handlers else [])
    (halive : s.initialized = true → s.timer = true ∨ s.tick.isSome = true) :
    Inv options (s.doInit options) := by
  unfold State.doInit
  split
  · next hpending =>
    exact ⟨⟨h.messages, h.ticking⟩, hup, hpending, fun hinit _ ↦ halive hinit⟩
  · next number messageTimeouts rest hpending =>
    have hne : s.pendingInits ≠ [] := by simp [hpending]
    split
    · next hinit =>
      rw [if_pos hinit] at hup
      have hquiet : Base options { s with
          timer := false, initialized := false, phase := .stopping } :=
        ⟨h.messages, fun htimer ↦ by cases htimer⟩
      refine ⟨hquiet.stops options.distinct fun handler ↦ (hup handler).mpr, fun handler ↦ ?_,
        ⟨hne, rfl⟩, fun hinit ↦ by cases hinit⟩
      rw [State.emitAll, running_stops]
      simp [State.up, hup]
    · next hinit =>
      rw [if_neg hinit] at hup
      exact ⟨⟨h.messages, fun htimer ↦ by cases htimer⟩, hup, ⟨hne, by simpa using hinit⟩,
        fun hinit' ↦ absurd hinit' hinit⟩

theorem inv_settleInit (h : Base options s) {error : Option String} (hne : s.pendingInits ≠ [])
    (hup : ∀ handler, running handler s.log = true ↔
      handler ∈ if s.initialized then options.handlers else [])
    (halive : s.initialized = true → s.timer = true ∨ s.tick.isSome = true) :
    Inv options (s.settleInit options error) := by
  unfold State.settleInit
  split
  · next hpending => exact absurd hpending hne
  · next number messageTimeouts rest hpending =>
    have hmessages := h.messages
    rw [hpending, List.map_cons] at hmessages
    refine inv_doInit ⟨hmessages.respond_init ?_ ?_, h.ticking⟩ hup halive
    · cases error <;> rfl
    · cases error <;> rfl

theorem inv_startNext (h : Base options s) {started todo : List Tag} (hne : s.pendingInits ≠ [])
    (hinit : s.initialized = false) (hhandlers : options.handlers = started ++ todo)
    (hup : ∀ handler, running handler s.log = true ↔ handler ∈ started) :
    Inv options (s.startNext options started todo) := by
  unfold State.startNext
  split
  · rw [List.append_nil] at hhandlers
    refine @inv_settleInit _ { s.scheduleNextTick with initialized := true }
      ⟨h.messages, fun htimer ↦ ?_⟩ none hne (fun handler ↦ ?_) fun _ ↦ ?_
    · obtain htimer | hnone := (Bool.or_eq_true _ _).mp htimer
      · exact h.ticking htimer
      · exact Option.isNone_iff_eq_none.mp hnone
    · rw [if_pos rfl, hhandlers]
      exact hup handler
    · dsimp only [State.scheduleNextTick]
      cases s.tick <;> simp
  · next updater todo =>
    have hnew : updater ∉ started := by
      have hnodup := options.distinct
      rw [hhandlers, List.nodup_append'] at hnodup
      exact fun hmem ↦ hnodup.2.2 hmem List.mem_cons_self
    have hstopped : running updater s.log = false := by
      rw [← Bool.not_eq_true, hup]
      exact hnew
    have hquiet := @Messages.quiet _ _ _ _ _ _ h.messages [.start updater]
      (by simp [Event.number?]) ⟨hstopped, h.messages.events⟩
    exact ⟨⟨hquiet, h.ticking⟩, hup, ⟨hne, hinit, hhandlers⟩,
      fun hinit' ↦ by simp [State.emit, hinit] at hinit'⟩

end Handlers

section Steps

variable {options : Options} {s t : State}

theorem Inv.timers (h : Inv options s) {timer : Bool} {tick : Option (List Tag)}
    (hticking : timer = true → tick = none)
    (halive : s.initialized = true → s.pendingInits = [] → timer = true ∨ tick.isSome = true) :
    Inv options { s with timer := timer, tick := tick } where
  messages := h.messages
  ticking := hticking
  up := h.up
  phase := h.phase
  alive := halive

theorem Inv.tick (h : Inv options s) (updater : Tag) : Inv options (s.emit (.tick updater)) where
  messages := @Messages.quiet _ _ _ _ _ _ h.messages [.tick updater] (by simp [Event.number?])
    ⟨trivial, h.messages.events⟩
  ticking := h.ticking
  up := h.up
  phase := h.phase
  alive := h.alive

theorem inv_runTick (h : Inv options s) : Inv options (s.runTick options) := by
  unfold State.runTick
  split
  · exact h
  next htick =>
  have hnone : s.tick = none := by simpa using htick
  split
  · next hpending =>
    exact @Inv.timers _ s h false s.tick (fun htimer ↦ by cases htimer) fun _ h ↦ absurd h hpending
  · split
    · refine @Inv.timers _ s h (false || s.tick.isNone) s.tick (fun _ ↦ hnone) fun _ _ ↦ .inl ?_
      rw [hnone]
      rfl
    · next updater rest _ =>
      have hround := @Inv.timers _ s h false (some (updater :: rest)) (fun htimer ↦ by cases htimer)
        fun _ _ ↦ .inr rfl
      exact hround.tick updater

theorem inv_ticked (h : Inv options s) {round : List Tag} (hround : s.tick = some round) :
    Inv options (s.ticked round) := by
  unfold State.ticked
  have htimer : s.timer = false := by
    rw [← Bool.not_eq_true]
    intro htimer
    rw [h.ticking htimer] at hround
    cases hround
  split
  · exact h
  · exact @Inv.timers _ s h (s.timer || true) none (fun _ ↦ rfl) fun _ _ ↦ .inl (Bool.or_true _)
  · next updater rest =>
    have hround := @Inv.timers _ s h s.timer (some (updater :: rest))
      (fun htimer' ↦ by rw [htimer] at htimer'; cases htimer') fun _ _ ↦ .inr rfl
    exact hround.tick updater

theorem Inv.running_of_accepts (h : Inv options s) (haccepts : s.acceptsWalletMessages = true)
    {handler : Tag} (hmem : handler ∈ options.handlers) : running handler s.log = true := by
  obtain ⟨hinit, hpending⟩ := (Bool.and_eq_true _ _).mp haccepts
  refine (h.up handler).mpr ?_
  unfold State.up
  have hphase := h.phase
  cases hp : s.phase with
  | idle =>
    dsimp only
    rwa [if_pos hinit]
  | _ =>
    rw [hp] at hphase
    simp [InitPhase.Ok, hinit] at hphase

theorem Inv.receive (h : Inv options s) {calls : List Call} {log : List Event}
    (hmessages : Messages options (s.arrived + 1) (s.pendingInits.map (·.1)) calls
      s.lateDeliveries log) (hlog : ∀ handler, running handler log = running handler s.log) :
    Inv options { s with arrived := s.arrived + 1, calls := calls, log := log } where
  messages := hmessages
  ticking := h.ticking
  up handler := by rw [hlog]; exact h.up handler
  phase := h.phase
  alive := h.alive

theorem inv_callHandlers (h : Inv options s) (message : Message) {updaters : List Tag}
    (hnodup : updaters.Nodup) (hsubset : updaters ⊆ options.handlers)
    (hne : options.handlers ≠ [] → updaters ≠ []) (haccepts : s.acceptsWalletMessages = true) :
    Inv options ({ s with arrived := s.arrived + 1 }.callHandlers options s.arrived message
      updaters) := by
  have hentries : (updaters.map (State.entry options { s with arrived := s.arrived + 1 }
      message)).map (·.handler) = updaters := by
    rw [List.map_map]
    exact List.map_id _
  refine h.receive ?_ fun handler ↦ running_append (fun e he ↦ ?_) handler s.log
  · have hcall := @Messages.call _ _ _ _ _ _ h.messages
      (updaters.map (State.entry options { s with arrived := s.arrived + 1 } message))
      (hentries.symm ▸ hnodup) ?_ ?_
    · rw [hentries] at hcall
      exact hcall
    · exact fun hhandlers ↦ by simpa using hne hhandlers
    · intro e he
      obtain ⟨updater, hupdater, rfl⟩ := List.mem_map.mp he
      exact h.running_of_accepts haccepts (hsubset hupdater)
  · obtain ⟨updater, -, rfl⟩ := List.mem_map.mp (List.mem_reverse.mp he)
    rfl

theorem inv_processMessage (h : Inv options s) (message : Message) :
    Inv options (s.processMessage options message) := by
  have hplain : ∀ {response : Response}, response.handler? = none →
      (Event.respond s.arrived response).init? = none →
      Inv options (State.emit { s with arrived := s.arrived + 1 } (.respond s.arrived response)) :=
    fun hplain hinit ↦ h.receive (h.messages.respond_new hplain hinit) fun _ ↦ rfl
  unfold State.processMessage
  dsimp only
  split
  · exact hplain rfl rfl
  split
  · have hqueue : Messages options (s.arrived + 1)
        ((s.pendingInits ++ [(s.arrived, message.messageTimeouts)]).map (·.1)) s.calls
        s.lateDeliveries s.log := by
      rw [List.map_append]
      exact h.messages.queue
    have hphase := h.phase
    split
    · next hempty =>
      have hempty := List.isEmpty_iff.mp hempty
      refine inv_doInit ⟨hqueue, h.ticking⟩ ?_ fun hinit ↦ h.alive hinit hempty
      have hup := h.up
      unfold State.up at hup
      cases hp : s.phase with
      | idle =>
        rw [hp] at hup
        exact hup
      | starting started updater todo =>
        rw [hp] at hphase
        exact absurd hempty hphase.1
      | _ =>
        rw [hp] at hphase
        exact absurd hempty hphase.1
    · next hempty =>
      have hne := fun hnil ↦ hempty (List.isEmpty_iff.mpr hnil)
      have hne' := List.append_ne_nil_of_right_ne_nil s.pendingInits
        (List.cons_ne_nil (s.arrived, message.messageTimeouts) [])
      refine ⟨⟨hqueue, h.ticking⟩, h.up, ?_, fun _ hnil ↦ absurd hnil hne'⟩
      cases hp : s.phase with
      | idle =>
        rw [hp] at hphase
        exact absurd hphase hne
      | starting started updater todo =>
        rw [hp] at hphase
        exact ⟨hne', hphase.2⟩
      | _ =>
        rw [hp] at hphase
        exact ⟨hne', hphase.2⟩
  split
  · exact hplain rfl rfl
  next haccepts =>
  have haccepts : s.acceptsWalletMessages = true := by
    rw [Bool.not_eq_true, Bool.not_eq_false'] at haccepts
    exact haccepts
  split
  · exact hplain rfl rfl
  split
  · exact inv_callHandlers h message options.distinct (List.Subset.refl _) id haccepts
  split
  · next hmem =>
    exact inv_callHandlers h message (List.nodup_singleton _)
      (fun other hother ↦ List.mem_singleton.mp hother ▸ hmem) (fun _ ↦ List.cons_ne_nil _ _)
      haccepts
  · exact hplain rfl rfl

theorem Messages.keep {arrived : ℕ} {pending : List ℕ} {calls : List Call}
    {late : List LateDelivery} {log : List Event}
    (h : Messages options arrived pending calls late log) {c : Call}
    {others : List Call} (hcalls : ∀ c' ∈ others, c' ∈ calls ∧ c'.number ≠ c.number)
    (hback : ∀ c' ∈ calls, c' ∈ others ∨
      c'.number = c.number ∧ c'.entries.map (·.handler) = c.entries.map (·.handler))
    (hdistinct : (others.map (·.number)).Nodup)
    (hc : c.Handled options arrived log)
    (hpending : c.number ∉ pending) :
    Messages options arrived pending (others ++ [c]) late log := by
  have hmem : ∀ n, n ∈ (others ++ [c]).map (·.number) ↔
      n ∈ others.map (·.number) ∨ n = c.number := by
    intro n
    rw [List.map_append, List.mem_append, List.map_singleton, List.mem_singleton]
  refine ⟨h.events, h.inits, ?_, h.numbers, ?_, ?_, ?_, h.watched, h.watchedOnce, ?_⟩
  · intro hne n hn
    refine (h.answered hne n hn).imp_right (Or.imp_left fun hn ↦ (hmem n).mpr ?_)
    obtain ⟨c', hc', rfl⟩ := List.mem_map.mp hn
    exact (hback c' hc').imp List.mem_map_of_mem And.left
  · intro n hn
    obtain ⟨hlt, huntouched, hcall⟩ := h.queued n hn
    refine ⟨hlt, huntouched, fun hn' ↦ ?_⟩
    obtain hn' | rfl := (hmem n).mp hn'
    · obtain ⟨c', hc', rfl⟩ := List.mem_map.mp hn'
      exact hcall (List.mem_map_of_mem (hcalls c' hc').1)
    · exact hpending hn
  · intro c' hc'
    obtain hc' | hc' := List.mem_append.mp hc'
    · exact h.handled c' (hcalls c' hc').1
    · obtain rfl := List.mem_singleton.mp hc'
      exact hc
  · rw [List.map_append, List.nodup_append']
    refine ⟨hdistinct, List.nodup_singleton _, fun n hn he ↦ ?_⟩
    obtain ⟨c', hc', rfl⟩ := List.mem_map.mp hn
    exact (hcalls c' hc').2 (List.mem_singleton.mp he)
  · intro number handler he
    refine (h.accounted number handler he).imp_left ?_
    rintro ⟨c', hc', rfl, hhandler⟩
    obtain hc' | ⟨hnumber, hhandlers⟩ := hback c' hc'
    · exact ⟨c', List.mem_append_left _ hc', rfl, hhandler⟩
    · exact ⟨c, List.mem_concat_self, hnumber.symm, hhandlers ▸ hhandler⟩

theorem inv_update (h : Inv options s) (number : ℕ) (handler : Tag) {change : Entry → Entry}
    (hchange : ∀ e, (change e).handler = e.handler) :
    Inv options (s.update number handler change) := by
  unfold State.update
  split
  · exact h
  next c hfind =>
  have hc := List.mem_of_find?_eq_some hfind
  have hnumber : c.number = number := by simpa using List.find?_some hfind
  have hentries : (c.entries.map fun e ↦ if e.handler = handler then change e else e).map
      (·.handler) = c.entries.map (·.handler) := by
    rw [List.map_map]
    refine List.map_congr_left fun e _ ↦ ?_
    simp only [Function.comp_apply]
    split
    · exact hchange e
    · rfl
  generalize hc' : ({ c with entries := c.entries.map fun e ↦
    if e.handler = handler then change e else e } : Call) = c'
  have hn' : c'.number = number := hc' ▸ hnumber
  have hhandlers : c'.entries.map (·.handler) = c.entries.map (·.handler) := hc' ▸ hentries
  have hothers : ∀ other ∈ s.calls.filter (·.number ≠ number), other ∈ s.calls ∧
      other.number ≠ c'.number := by
    intro other hother
    obtain ⟨hother, hne⟩ := List.mem_filter.mp hother
    exact ⟨hother, hn' ▸ of_decide_eq_true hne⟩
  have hback : ∀ other ∈ s.calls, other ∈ s.calls.filter (·.number ≠ number) ∨
      other.number = c'.number ∧ other.entries.map (·.handler) = c'.entries.map (·.handler) := by
    intro other hother
    by_cases hne : other.number = number
    · have hsame := List.inj_on_of_nodup_map h.messages.distinct hother hc (hne.trans hnumber.symm)
      exact .inr ⟨hne.trans hn'.symm, hsame ▸ hhandlers.symm⟩
    · exact .inl (List.mem_filter.mpr ⟨hother, decide_eq_true hne⟩)
  have hdistinct : ((s.calls.filter (·.number ≠ number)).map (·.number)).Nodup :=
    (List.filter_sublist.map _).nodup h.messages.distinct
  have hpending : c'.number ∉ s.pendingInits.map (·.1) := by
    intro hmem
    refine (h.messages.queued _ hmem).2.2 ?_
    rw [hn', ← hnumber]
    exact List.mem_map_of_mem hc
  have hkept : c'.Handled options s.arrived s.log := by
    obtain ⟨hlt, hne, hnodup, hrespond, hhandle⟩ := h.messages.handled c hc
    rw [hnumber, ← hn'] at hlt hrespond hhandle
    refine ⟨hlt, fun hne' hnil ↦ hne hne' ?_, hhandlers.symm ▸ hnodup, hrespond, fun e he ↦ ?_⟩
    · rw [hnil, List.map_nil, eq_comm, List.map_eq_nil_iff] at hhandlers
      exact hhandlers
    · have hmem : e.handler ∈ c.entries.map (·.handler) := hhandlers ▸ List.mem_map_of_mem he
      obtain ⟨e', he', heq⟩ := List.mem_map.mp hmem
      exact heq ▸ hhandle e' he'
  dsimp only
  split
  · have hfinish := h.messages.finish hothers hback hdistinct hkept hpending
    refine ⟨⟨hfinish, h.ticking⟩, fun other ↦ ?_, h.phase, h.alive⟩
    refine Iff.trans (iff_of_eq (congrArg (· = true) (running_append (fun e he ↦ ?_) other s.log)))
      (h.up other)
    obtain he | he := List.mem_append.mp (List.mem_reverse.mp he)
    · obtain ⟨entry, -, rfl⟩ := List.mem_map.mp he
      rfl
    · obtain ⟨entry, -, rfl⟩ := List.mem_map.mp he
      rfl
  · exact ⟨⟨h.messages.keep hothers hback hdistinct hkept hpending, h.ticking⟩, h.up, h.phase,
      h.alive⟩

theorem inv_deliverLate (h : Inv options s) (number : ℕ) (handler : Tag)
    (message : LateDelivery → Option String) :
    Inv options (s.deliverLate number handler message) := by
  unfold State.deliverLate
  split
  · exact h
  · next w hfind =>
    have hw := List.mem_of_find?_eq_some hfind
    exact ⟨⟨h.messages.deliverLate hw (message w), h.ticking⟩, h.up, h.phase, h.alive⟩

theorem Entry.handler_settle (answer : Answer) (e : Entry) :
    (e.settle answer).handler = e.handler := by
  unfold settle
  split <;> rfl

theorem Entry.handler_timeout (e : Entry) : e.timeout.handler = e.handler := by
  unfold timeout
  split <;> rfl

/-- A handler that starts is followed by the next one; where one fails to, the started ones are
stopped again. -/
theorem inv_started {error : Option String} (h : Inv options s)
    (hstep : step options s (.started error) = some t) : Inv options t := by
  have hphase := h.phase
  have hup := h.up
  unfold State.up at hup
  simp only [step] at hstep
  split at hstep
  · next started updater todo hp =>
    rw [hp] at hphase hup
    obtain ⟨hne, hinit, hhandlers⟩ := hphase
    split at hstep <;> cases hstep
    · have hquiet := @Messages.quiet _ _ _ _ _ _ h.messages [.started updater]
        (by simp [Event.number?]) ⟨trivial, h.messages.events⟩
      refine @inv_startNext _ (s.emit (.started updater)) ⟨hquiet, h.ticking⟩ _ _ hne hinit ?_ ?_
      · rw [hhandlers, List.append_assoc, List.singleton_append]
      · intro other
        have hcons : running other (s.emit (.started updater)).log =
          (decide (updater = other) || running other s.log) := rfl
        have hup' : running other s.log = true ↔ other ∈ started := hup other
        rw [hcons, Bool.or_eq_true, decide_eq_true_eq, hup', List.mem_append, List.mem_singleton]
        exact or_comm.trans (or_congr_right eq_comm)
    · next message =>
      have hnodup : started.Nodup := by
        have hdistinct := options.distinct
        rw [hhandlers, List.nodup_append'] at hdistinct
        exact hdistinct.1
      have hquiet : Base options { s with phase := .unwinding message } :=
        ⟨h.messages, h.ticking⟩
      refine ⟨hquiet.stops hnodup fun other ↦ (hup other).mpr, fun other ↦ ?_, ⟨hne, hinit⟩,
        h.alive⟩
      rw [State.emitAll, running_stops]
      simp [State.up, hup]
  · cases hstep

theorem inv_step {input : Input} (h : Inv options s) (hstep : step options s input = some t) :
    Inv options t := by
  have hphase := h.phase
  have hup := h.up
  unfold State.up at hup
  cases input with
  | receive message =>
    cases hstep
    exact inv_processMessage h message
  | stopped =>
    simp only [step] at hstep
    split at hstep
    · next hp hpending =>
      cases hstep
      rw [hp] at hphase hup
      exact ⟨⟨h.messages, h.ticking⟩, hup, hphase, h.alive⟩
    · cases hstep
  | built error =>
    simp only [step] at hstep
    split at hstep
    · next hp =>
      rw [hp] at hphase hup
      split at hstep <;> cases hstep
      · exact inv_startNext h.toBase hphase.1 hphase.2 (List.nil_append _).symm hup
      · refine inv_settleInit h.toBase hphase.1 ?_ fun hinit ↦ ?_
        · rw [hphase.2]
          exact hup
        · rw [hphase.2] at hinit
          cases hinit
    · cases hstep
  | started error => exact inv_started h hstep
  | unwound =>
    simp only [step] at hstep
    split at hstep
    · next hp =>
      rw [hp] at hphase hup
      cases hstep
      refine inv_settleInit h.toBase hphase.1 ?_ fun hinit ↦ ?_
      · rw [hphase.2]
        exact hup
      · rw [hphase.2] at hinit
        cases hinit
    · cases hstep
  | settled number handler answer =>
    cases hstep
    exact inv_deliverLate (inv_update h number handler (Entry.handler_settle answer)) number
      handler _
  | timeout number handler =>
    cases hstep
    exact inv_update h number handler Entry.handler_timeout
  | abandoned number handler =>
    cases hstep
    exact inv_deliverLate h number handler _
  | timerFires =>
    simp only [step] at hstep
    split at hstep <;> cases hstep
    exact inv_runTick h
  | activated =>
    simp only [step] at hstep
    split at hstep <;> cases hstep
    · exact inv_runTick h
    · exact h
  | ticked =>
    simp only [step] at hstep
    split at hstep
    · next round hround =>
      cases hstep
      exact inv_ticked h hround
    · cases hstep

theorem inv_start : Inv options (start options) where
  messages := {
    events := trivial
    inits := .nil
    answered _ n hn := absurd hn (Nat.not_lt_zero n)
    numbers e he := by cases he
    queued n hn := by cases hn
    handled c hc := by cases hc
    distinct := .nil
    watched w hw := by cases hw
    watchedOnce := .nil
    accounted _ _ he := by cases he }
  ticking _ := rfl
  up handler := by simp [start, running, State.up]
  phase := rfl
  alive hinit := by cases hinit

/-- The bus is sound whatever the order of messages, handlers' answers, timeouts and ticks, and
whichever inits fail. -/
theorem messageBus_sound (h : Run (step options) (fun _ _ ↦ True) (start options) s) :
    Sound options s := by
  have hs : Inv options s := h.invariant (fun _ _ _ hs _ hstep ↦ inv_step hs hstep) inv_start
  exact ⟨hs.messages.events, hs.messages.accounted, hs.messages.inits, hs.messages.answered,
    hs.ticking, hs.alive⟩

end Steps

/-! A broadcast comes in after the initialization. One handler answers it, the other one times out
and answers late. -/

def smallOptions : Options where
  handlers := ["WALLET_UPDATER", "ARKADE_SWAPS_UPDATER"]
  distinct := by decide
  messageTimeoutMs := 30000
  messageTimeoutOverrides := []
  isLongRunning _ _ := false

def smallInputs : List Input :=
  [.receive ⟨"1", "INITIALIZE_MESSAGE_BUS", none, false, []⟩, .built none, .started none,
    .started none, .receive ⟨"2", "WALLET_UPDATER", some "CLEAR", true, []⟩,
    .timeout 1 "WALLET_UPDATER", .settled 1 "ARKADE_SWAPS_UPDATER" .response,
    .settled 1 "WALLET_UPDATER" .response]

def lateLog : List Event :=
  [.respond 1 (.late "WALLET_UPDATER" none), .respond 1 (.answer "ARKADE_SWAPS_UPDATER"),
    .respond 1 (.failure "WALLET_UPDATER" (timeoutText 30000 "CLEAR via WALLET_UPDATER") true),
    .handle 1 "ARKADE_SWAPS_UPDATER", .handle 1 "WALLET_UPDATER", .respond 0 .initialized,
    .started "ARKADE_SWAPS_UPDATER", .start "ARKADE_SWAPS_UPDATER", .started "WALLET_UPDATER",
    .start "WALLET_UPDATER"]

theorem late_sound : ∃ s, s.log = lateLog ∧ Sound smallOptions s := by
  have hrun : ∃ s, exec (step smallOptions) (MessageBus.start smallOptions) smallInputs = some s ∧
      s.log = lateLog := ⟨_, rfl, rfl⟩
  obtain ⟨s, hexec, hlog⟩ := hrun
  refine ⟨s, hlog, messageBus_sound (run_of_exec hexec ?_)⟩
  exact @along_of_check _ _ _ _ (fun _ _ ↦ true) _ _ (fun _ _ _ ↦ trivial) rfl

end ArkadeSdk.MessageBus
