import ArkadeSdk.Lib.JsCoercion
import ArkadeSdk.Lib.LabelledRun
import ArkadeSdk.Lib.SlotQueue
import Mathlib.Logic.Function.Basic

/-! The gate in front of the providers: at most so many requests to an origin at a time, and none
while the origin asks to be left alone. -/

namespace ArkadeSdk.RateGate

open JsNumber JsCoercion LabelledRun SlotQueue

def DEFAULT_MAX_CONCURRENT : ℕ := 6

def DEFAULT_COOLDOWN_MS : ℚ := 5000

def MAX_COOLDOWN_MS : ℚ := 60000

structure RateGateOptions where
  maxConcurrent : ℕ := DEFAULT_MAX_CONCURRENT
  defaultCooldownMs : ℚ := DEFAULT_COOLDOWN_MS
  maxCooldownMs : ℚ := MAX_COOLDOWN_MS

/-- The wait that a `Retry-After` header asks for at a moment. `dateParse` is the language's
`Date.parse`, with nothing for `NaN`. -/
def parseRetryAfterMs (dateParse : String → Option ℚ) (now : ℚ) (header : Option String) :
    Option ℚ :=
  header.bind fun header ↦
    let trimmed := String.ofList (Decimal.trim header.toList)
    if trimmed = "" then none
    else match stringToNumber trimmed with
      | .finite seconds => if seconds < 0 then none else some (seconds * 1000)
      | _ => (dateParse trimmed).map fun time ↦ max 0 (time - now)

/-- One `run`, or one `runHttp`, which looks at the response. -/
structure Call (Origin : Type) where
  origin : Origin
  http : Bool
  serial : ℕ
  deriving DecidableEq

structure Response where
  status : ℕ
  retryAfter : Option String

/-- How far a call has come. It has a slot from `waiting`, where it sleeps through the cooldown,
to `settled`, where only the release is left; `limited` says that it was answered with a `429` that
`runHttp` has seen. -/
inductive Phase
  | idle
  | parked
  | waiting
  | sent
  | settled (limited : Bool)
  | released
  deriving DecidableEq

def Phase.holdsSlot : Phase → Bool
  | .waiting | .sent | .settled _ => true
  | _ => false

structure OriginState (Origin : Type) where
  blockedUntil : ℚ
  slots : Slots (Call Origin)

inductive Happening (Origin : Type)
  | sent (call : Call Origin) (time : ℚ)
  | reported (origin : Origin) (time cooldownEnd : ℚ) (source : Option (Call Origin))
  | released (call : Call Origin) (limited : Bool)
  deriving DecidableEq

/-- The gate, the clock, and what has happened so far, the newest first. -/
structure Gate (Origin : Type) where
  states : Origin → OriginState Origin
  books : Origin → Book (Call Origin)
  phase : Call Origin → Phase
  now : ℚ
  history : List (Happening Origin)

/-- What wakes the gate, and what the clock says then; where it is read twice, both times. -/
inductive Input (Origin : Type)
  | run (call : Call Origin) (now : ℚ)
  | wake (call : Call Origin) (now : ℚ)
  | settle (call : Call Origin) (response : Option Response) (now again : ℚ)
  | finish (call : Call Origin) (now : ℚ)
  | reportRateLimited (origin : Origin) (retryAfter : Option String) (now again : ℚ)

section Step

variable {Origin : Type} [DecidableEq Origin]

namespace Gate

variable (g : Gate Origin) (call : Call Origin) (origin : Origin)

/-- No state, which `stateFor` makes up for, and no calls. -/
def initial (now : ℚ) : Gate Origin where
  states _ := ⟨0, Slots.empty⟩
  books _ := Book.empty
  phase _ := .idle
  now := now
  history := []

def setPhase (phase : Phase) : Gate Origin :=
  { g with phase := Function.update g.phase call phase }

def setSlots (slots : Slots (Call Origin)) (book : Book (Call Origin)) : Gate Origin :=
  { g with
    states := Function.update g.states origin { g.states origin with slots := slots }
    books := Function.update g.books origin book }

def block (time : ℚ) : Gate Origin :=
  { g with
    states := Function.update g.states origin { g.states origin with blockedUntil := time } }

def log (happening : Happening Origin) : Gate Origin :=
  { g with history := happening :: g.history }

def slots : Slots (Call Origin) := (g.states origin).slots

def blockedUntil : ℚ := (g.states origin).blockedUntil

end Gate

variable (options : RateGateOptions) (dateParse : String → Option ℚ)

/-- `acquire`, and the call parked or on its way. -/
def acquire (g : Gate Origin) (call : Call Origin) : Gate Origin :=
  let slots := g.slots call.origin
  let free := slots.hasFree options.maxConcurrent
  (g.setSlots call.origin (slots.acquire options.maxConcurrent call)
    ((g.books call.origin).acquire free call)).setPhase call (if free then .waiting else .parked)

/-- The slot goes to the first in the queue, or is free. -/
def giveBack (g : Gate Origin) (call : Call Origin) : Gate Origin :=
  g.setSlots call.origin (g.slots call.origin).release
    ((g.books call.origin).release call (g.slots call.origin).queue.head?)

/-- `release`, and the first in the queue on its way. -/
def release (g : Gate Origin) (call : Call Origin) (limited : Bool) : Gate Origin :=
  let g' := ((giveBack g call).setPhase call .released).log (.released call limited)
  match (g.slots call.origin).queue.head? with
  | some next => g'.setPhase next .waiting
  | none => g'

def reportRateLimited (g : Gate Origin) (origin : Origin) (retryAfter : Option String)
    (now again : ℚ) (source : Option (Call Origin)) : Gate Origin :=
  let cooldown := min ((parseRetryAfterMs dateParse now retryAfter).getD options.defaultCooldownMs)
    options.maxCooldownMs
  (g.block origin (max (g.blockedUntil origin) (again + cooldown))).log
    (.reported origin again (again + cooldown) source)

/-- One turn of the event loop. `none`: there is no such turn in this state. -/
def step (g : Gate Origin) : Input Origin → Option (Gate Origin)
  | .run call now =>
    if g.now ≤ now ∧ g.phase call = .idle then some (acquire options { g with now := now } call)
    else none
  | .wake call now =>
    if g.now ≤ now ∧ g.phase call = .waiting then
      let g := { g with now := now }
      -- A call that finds a cooldown sleeps, for however long, and looks again.
      if g.blockedUntil call.origin - now ≤ 0 then
        some ((g.setPhase call .sent).log (.sent call now))
      else some g
    else none
  | .settle call response now again =>
    if g.now ≤ now ∧ now ≤ again ∧ g.phase call = .sent then
      let g := { g with now := again }
      match response with
      | some response =>
        if call.http ∧ response.status = 429 then
          some ((reportRateLimited options dateParse g call.origin response.retryAfter now again
            (some call)).setPhase call (.settled true))
        else some (g.setPhase call (.settled false))
      | none => some (g.setPhase call (.settled false))
    else none
  | .finish call now =>
    if g.now ≤ now then
      match g.phase call with
      | .settled limited => some (release { g with now := now } call limited)
      | _ => none
    else none
  | .reportRateLimited origin retryAfter now again =>
    if g.now ≤ now ∧ now ≤ again then
      some (reportRateLimited options dateParse { g with now := again } origin retryAfter now again
        none)
    else none

end Step

end ArkadeSdk.RateGate
