import ArkadeSdk.Lib.LabelledRun
import ArkadeSdk.Lib.TaskChains
import ArkadeSdk.Swap.AssetSwap

/-! Coverage: whether an offer's script is in the wallet's watched set. Promotions and retirements
of one script run one after the other, each deciding once it runs. -/

namespace ArkadeSdk.Coverage

open TaskChains

inductive ContractWatchState
  | watched
  | retained
  deriving DecidableEq, Repr

inductive Change
  | promote
  | retire (swaps : List AssetSwap)
  deriving DecidableEq

/-- What a change asks `setContractWatchState` for. -/
def Change.watch : Change → ContractWatchState
  | .promote => .watched
  | .retire _ => .retained

/-- A write of a contract's row. -/
structure Effect where
  task : ℕ
  script : String
  watch : ContractWatchState
  deriving DecidableEq

/-- The loop of `retireSettledOfferContracts`, at the retirement it awaits. -/
structure Batch where
  swaps : List AssetSwap
  current : ℕ
  scripts : List String

/-- `unfunded` are the promotions that have resolved and whose deposits are in no record yet. The
newest effect is the head. -/
structure State where
  changes : Chains String Change
  batches : List Batch
  issuedAt : String → Option ℤ
  watch : String → ContractWatchState
  effects : List Effect
  known : List AssetSwap
  unfunded : List (ℕ × String)

def live (swaps : List AssetSwap) (script : String) : Bool :=
  swaps.any fun s ↦ s.swapPkScript = script && !RETIRABLE.contains s.status

/-- A record at the script that was created since. -/
def shows (swaps : List AssetSwap) (script : String) (issued : ℤ) : Bool :=
  swaps.any fun s ↦ s.swapPkScript = script && decide (issued ≤ s.createdAt)

/-- Whether an address at the script still waits for its deposit, and the marks afterwards. -/
def addressOutstanding (issuedAt : String → Option ℤ) (swaps : List AssetSwap) (script : String) :
    Bool × (String → Option ℤ) :=
  match issuedAt script with
  | none => (false, issuedAt)
  | some issued =>
    if shows swaps script issued then (false, fun k ↦ if k = script then none else issuedAt k)
    else (true, issuedAt)

def settledScripts (swaps : List AssetSwap) : List String :=
  ((swaps.filter fun s ↦ RETIRABLE.contains s.status).map (·.swapPkScript)).eraseDups

/-- `land` is the manager's write, `answer` its call settling, `start` and `cleanup` are the
continuations of a script's promises. A record may show the deposit of a promotion. -/
inductive Input
  | promoteOfferContract (script : String)
  | retireOfferContract (swaps : List AssetSwap) (script : String)
  | retireSettledOfferContracts (swaps : List AssetSwap)
  | next (batch : ℕ)
  | start (task : ℕ)
  | land (task : ℕ)
  | answer (task : ℕ) (done : Bool) (now : ℤ)
  | cleanup (task : ℕ)
  | record (swap : AssetSwap) (deposit : Option ℕ)

namespace State

variable (s : State)

def landed (i : ℕ) : Bool := s.effects.any (·.task = i)

/-- The loop goes on to the next script. -/
def retireNext (batch : ℕ) (swaps : List AssetSwap) : List String → State
  | [] => s
  | script :: scripts =>
    { s with
      changes := s.changes.enqueue script (.retire swaps)
      batches := s.batches.take batch ++ [⟨swaps, s.changes.tasks.length, scripts⟩] ++
        s.batches.drop (batch + 1) }

def next (batch : ℕ) : Option State :=
  (s.batches[batch]?).bind fun b ↦
    if s.changes.settled b.current ∧ b.scripts ≠ [] then
      some (s.retireNext batch b.swaps b.scripts)
    else none

/-- A task runs up to its call. A retirement that finds its script in use ends there. -/
def start (i : ℕ) : Option State :=
  (s.changes.tasks[i]?).bind fun task ↦ (s.changes.start i).bind fun changes ↦
    match task.job with
    | .promote => some { s with changes := changes }
    | .retire swaps =>
      if live swaps task.key then (changes.settle i).map fun changes ↦ { s with changes := changes }
      else match addressOutstanding s.issuedAt swaps task.key with
        | (true, issuedAt) =>
          (changes.settle i).map fun changes ↦ { s with changes := changes, issuedAt := issuedAt }
        | (false, issuedAt) => some { s with changes := changes, issuedAt := issuedAt }

def land (i : ℕ) : Option State :=
  (s.changes.tasks[i]?).bind fun task ↦
    if task.phase = .running ∧ s.landed i = false then
      some { s with
        watch := fun k ↦ if k = task.key then task.job.watch else s.watch k
        effects := ⟨i, task.key, task.job.watch⟩ :: s.effects }
    else none

/-- The call settles. It may fail before or after its write. -/
def answer (i : ℕ) (done : Bool) (now : ℤ) : Option State :=
  (s.changes.tasks[i]?).bind fun task ↦ (s.changes.settle i).bind fun changes ↦
    if done = true ∧ s.landed i = false then none
    else match task.job, done with
      | .promote, true =>
        some { s with
          changes := changes
          issuedAt := fun k ↦ if k = task.key then some now else s.issuedAt k
          unfunded := (i, task.key) :: s.unfunded }
      | _, _ => some { s with changes := changes }

def record (swap : AssetSwap) (deposit : Option ℕ) : Option State :=
  let known := swap :: s.known.filter (·.id ≠ swap.id)
  match deposit with
  | none => some { s with known := known }
  | some i =>
    if (i, swap.swapPkScript) ∈ s.unfunded then
      some { s with known := known, unfunded := s.unfunded.erase (i, swap.swapPkScript) }
    else none

end State

def step (s : State) : Input → Option State
  | .promoteOfferContract script => some { s with changes := s.changes.enqueue script .promote }
  | .retireOfferContract swaps script =>
    some { s with changes := s.changes.enqueue script (.retire swaps) }
  | .retireSettledOfferContracts swaps =>
    some (s.retireNext s.batches.length swaps (settledScripts swaps))
  | .next batch => s.next batch
  | .start i => s.start i
  | .land i => s.land i
  | .answer i done now => s.answer i done now
  | .cleanup i => (s.changes.cleanup i).map fun changes ↦ { s with changes := changes }
  | .record swap deposit => s.record swap deposit

/-- An address waits for its deposit, or a record holds the script. -/
def Held (s : State) (script : String) : Prop :=
  (∃ i, (i, script) ∈ s.unfunded) ∨ live s.known script = true

/-- A retirement that finds nothing live in its list is right about the records known, a mark that
its list clears leaves no address unfunded, and records come to be live at scripts that are
held. -/
def Meets (s : State) : Input → Prop
  | .start i => ∀ task swaps, s.changes.tasks[i]? = some task → task.job = .retire swaps →
    live swaps task.key = false → live s.known task.key = false ∧
      ∀ issued, s.issuedAt task.key = some issued → shows swaps task.key issued = true →
        ∀ j, (j, task.key) ∉ s.unfunded
  | .record swap deposit => swap.status ∉ RETIRABLE → deposit.isSome = true ∨
    live s.known swap.swapPkScript = true
  | _ => True

end ArkadeSdk.Coverage
