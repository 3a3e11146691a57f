import ArkadeSdk.Exit.Unroll

/-! Executing a pre-signed exit package: its steps one after the other, then its sweeps in turn as
they mature. The chain is the only state, and everything is looked up before it is broadcast. -/

namespace ArkadeSdk.Exit.Executor

open LabelledRun Unroll

inductive DelayType
  | blocks
  | seconds
  deriving DecidableEq

structure ExitDelay where
  type : DelayType
  value : ℤ
  deriving DecidableEq

structure SweepStep where
  vtxo : String
  txid : String
  hex : String
  dependsOnTxid : String
  delay : ExitDelay
  deriving DecidableEq

inductive ExitStep
  | broadcast (txid hex : String)
  | package (parentTxid parentHex childHex : String) (forVtxos : List String)
  | bump (parentTxid parentHex : String) (forVtxos : List String)
  | sweep (step : SweepStep)
  deriving DecidableEq

namespace ExitStep

def sweep? : ExitStep → Option SweepStep
  | .sweep step => some step
  | _ => none

def forVtxos : ExitStep → Option (List String)
  | .package _ _ _ forVtxos => some forVtxos
  | .bump _ _ forVtxos => some forVtxos
  | _ => none

def anchorTxid : ExitStep → String
  | .broadcast txid _ => txid
  | .package parentTxid _ _ _ => parentTxid
  | .bump parentTxid _ _ => parentTxid
  | .sweep step => step.txid

end ExitStep

/-- The deadline is in seconds. -/
structure ExitPackage where
  validUntil : Option ℤ
  steps : List ExitStep

def ExitPackage.indexed (pkg : ExitPackage) : List (ExitStep × ℕ) := pkg.steps.zipIdx

def ExitPackage.sweeps (pkg : ExitPackage) : List (SweepStep × ℕ) :=
  pkg.indexed.filterMap fun e ↦ e.1.sweep?.map (·, e.2)

inductive Status
  | skipped
  | broadcast
  | confirmed
  | waiting_csv
  | failed
  deriving DecidableEq

structure ExecutorEvent where
  stepIndex : ℕ
  status : Status
  txid : Option String
  forVtxos : Option (List String)
  reason : Option String
  matures : Option (DelayType × ℤ)

/-- The warning that the package is past its deadline is about no step. -/
inductive Event
  | warning (validUntil : ℤ)
  | step (event : ExecutorEvent)

def Event.verdict? : Event → Option ℕ
  | .step event => match event.status with
    | .skipped => some event.stepIndex
    | .confirmed => some event.stepIndex
    | .failed => some event.stepIndex
    | _ => none
  | .warning _ => none

def verdicts (events : List Event) : List ℕ := events.filterMap Event.verdict?

structure TxStatus where
  confirmed : Bool
  blockHeight : Option ℤ
  blockTime : Option ℤ

structure ChainTip where
  height : ℤ
  time : ℤ

/-- A round over the sweeps: those that are settled, those announced to wait, the one at hand and
those after it. -/
structure Round where
  done : List ℕ
  announced : List ℕ
  step : SweepStep
  index : ℕ
  todo : List (SweepStep × ℕ)

inductive Phase
  | checking (step : ExitStep) (index : ℕ) (rest : List (ExitStep × ℕ))
  | bumping (step : ExitStep) (index : ℕ) (rest : List (ExitStep × ℕ))
  | sending (step : ExitStep) (index : ℕ) (rest : List (ExitStep × ℕ)) (hexes : List String)
  | confirming (step : ExitStep) (index : ℕ) (rest : List (ExitStep × ℕ))
  | sweepStatus (round : Round)
  | depStatus (round : Round)
  | chainTip (round : Round) (dep : TxStatus)
  | sweepSending (round : Round) (dep : TxStatus) (tip : ChainTip)
  | sleeping (done announced : List ℕ)
  | finished
  | thrown

/-- The newest event is the head. -/
structure State where
  network : String → TxState
  phase : Phase
  dead : List String
  events : List Event

/-- Answers to the executor, and what happens on the network, where confirmations are final. A
status is `none` where its lookup throws. -/
inductive Input
  | status (answer : Option TxStatus)
  | bumped (answer : Except String (String × String))
  | sent (answer : Except String Unit)
  | tip (answer : Except String ChainTip)
  | wake
  | abort
  | enters (txid : String)
  | confirms (txid : String)

def branchFailed : String := "branch failed earlier"

def needsFeeWallet : String :=
  "graph package requires a fee wallet (opts.feeWallet) to fund CPFP bumps"

/-- `/non-?bip68|non-?final|premature/i`. -/
def isTransient (reason : String) : Bool :=
  ["nonbip68", "non-bip68", "nonfinal", "non-final", "premature"].any fun text ↦
    (reason.toList.map Char.toLower).tails.any fun tail ↦ text.toList.isPrefixOf tail

def isMature (delay : ExitDelay) (dep : TxStatus) (tip : ChainTip) : Bool :=
  match delay.type with
  | .blocks => tip.height ≥ dep.blockHeight.getD 0 + delay.value
  | .seconds => tip.time ≥ dep.blockTime.getD 0 + delay.value

def maturesAt (delay : ExitDelay) (dep : TxStatus) : DelayType × ℤ :=
  match delay.type with
  | .blocks => (.blocks, dep.blockHeight.getD 0 + delay.value)
  | .seconds => (.seconds, dep.blockTime.getD 0 + delay.value)

def branchDead (step : ExitStep) (dead : List String) : Bool :=
  match step.forVtxos with
  | some forVtxos => forVtxos.all (· ∈ dead)
  | none => false

/-- The outputs that are lost with the step. Every package hangs on the splitter. -/
def killed (pkg : ExitPackage) : ExitStep → List String
  | .broadcast _ _ => pkg.steps.flatMap fun
    | .package _ _ _ forVtxos => forVtxos
    | _ => []
  | .package _ _ _ forVtxos => forVtxos
  | .bump _ _ forVtxos => forVtxos
  | .sweep _ => []

def stepEvent (step : ExitStep) (index : ℕ) (status : Status) (reason : Option String) : Event :=
  .step ⟨index, status, some step.anchorTxid, step.forVtxos, reason, none⟩

def skippedEvent (step : ExitStep) (index : ℕ) : Event :=
  .step ⟨index, .skipped, none, step.forVtxos, some branchFailed, none⟩

def sweepEvent (step : SweepStep) (index : ℕ) (status : Status) (reason : Option String) : Event :=
  .step ⟨index, status, some step.txid, some [step.vtxo], reason, none⟩

def waitingEvent (step : SweepStep) (index : ℕ) (dep : TxStatus) : Event :=
  .step ⟨index, .waiting_csv, some step.txid, some [step.vtxo], none,
    some (maturesAt step.delay dep)⟩

def pending (pkg : ExitPackage) (dead : List String) : List (SweepStep × ℕ) :=
  pkg.sweeps.filter (·.1.vtxo ∉ dead)

def lost (pkg : ExitPackage) (dead : List String) : List (SweepStep × ℕ) :=
  pkg.sweeps.filter (·.1.vtxo ∈ dead)

namespace State

def emit (s : State) (event : Event) : State := { s with events := event :: s.events }

def enter (s : State) (txid : String) : State := { s with network := entered s.network txid }

end State

section

variable (pkg : ExitPackage)

def nextSweep (done announced : List ℕ) (s : State) : List (SweepStep × ℕ) → State
  | [] =>
    if done.length < (pending pkg s.dead).length then { s with phase := .sleeping done announced }
    else { s with phase := .finished }
  | (step, index) :: todo =>
    if index ∈ done then nextSweep done announced s todo
    else { s with phase := .sweepStatus ⟨done, announced, step, index, todo⟩ }

def newRound (done announced : List ℕ) (s : State) : State :=
  nextSweep pkg done announced s (pending pkg s.dead)

def startSweeps (s : State) : State :=
  newRound pkg [] [] { s with events :=
    ((lost pkg s.dead).map fun e ↦ sweepEvent e.1 e.2 .failed (some branchFailed)).reverse ++
      s.events }

/-- On to the next step that is to be looked up. -/
def drive : List (ExitStep × ℕ) → State → State
  | [], s => startSweeps pkg s
  | (step, index) :: rest, s =>
    if step.sweep?.isSome then drive rest s
    else if branchDead step s.dead then drive rest (s.emit (skippedEvent step index))
    else { s with phase := .checking step index rest }

def warnings (now : ℤ) : List Event :=
  match pkg.validUntil with
  | some validUntil =>
    if validUntil ≠ 0 ∧ now > 1000 * validUntil then [.warning validUntil] else []
  | none => []

def start (now : ℤ) (network : String → TxState) : State :=
  drive pkg pkg.indexed ⟨network, .finished, [], warnings pkg now⟩

def failStep (s : State) (step : ExitStep) (index : ℕ) (rest : List (ExitStep × ℕ))
    (reason : String) : State :=
  drive pkg rest ({ s with dead := killed pkg step ++ s.dead }.emit
    (stepEvent step index .failed (some reason)))

/-- A step whose transaction is not found. -/
def send (feeWallet : Bool) (s : State) (step : ExitStep) (index : ℕ)
    (rest : List (ExitStep × ℕ)) : State :=
  match step with
  | .package _ parentHex childHex _ =>
    { s with phase := .sending step index rest [parentHex, childHex] }
  | .bump _ _ _ =>
    if feeWallet then { s with phase := .bumping step index rest }
    else failStep pkg s step index rest needsFeeWallet
  | .broadcast _ hex => { s with phase := .sending step index rest [hex] }
  | .sweep _ => s

namespace Round

/-- Nothing is settled for the sweep in this round. -/
def skip (round : Round) (s : State) : State :=
  nextSweep pkg round.done round.announced s round.todo

def settle (round : Round) (s : State) (status : Status) (reason : Option String) : State :=
  nextSweep pkg (round.index :: round.done) round.announced
    (s.emit (sweepEvent round.step round.index status reason)) round.todo

def announce (round : Round) (dep : TxStatus) (s : State) : State :=
  if round.index ∈ round.announced then round.skip pkg s
  else nextSweep pkg round.done (round.index :: round.announced)
    (s.emit (waitingEvent round.step round.index dep)) round.todo

end Round

def step (feeWallet : Bool) (s : State) : Input → Option State
  | .status answer => match s.phase, answer with
    | .checking step index rest, some status =>
      if status.confirmed then some (drive pkg rest (s.emit (stepEvent step index .skipped none)))
      else some { s with phase := .confirming step index rest }
    | .checking step index rest, none => some (send pkg feeWallet s step index rest)
    | .confirming step index rest, answer =>
      if answer.any (·.confirmed) then
        some (drive pkg rest (s.emit (stepEvent step index .confirmed none)))
      else some s
    | .sweepStatus round, some status =>
      if status.confirmed then some (round.settle pkg s .confirmed none)
      else some (round.skip pkg s)
    | .sweepStatus round, none => some { s with phase := .depStatus round }
    | .depStatus round, some dep =>
      if dep.confirmed then some { s with phase := .chainTip round dep }
      else some (round.skip pkg s)
    | .depStatus round, none => some (round.skip pkg s)
    | _, _ => none
  | .bumped answer => match s.phase, answer with
    | .bumping step index rest, .ok (parentHex, childHex) =>
      some { s with phase := .sending step index rest [parentHex, childHex] }
    | .bumping step index rest, .error reason => some (failStep pkg s step index rest reason)
    | _, _ => none
  | .sent answer => match s.phase, answer with
    | .sending step index rest _, .ok () =>
      some { (s.enter step.anchorTxid).emit (stepEvent step index .broadcast none) with
        phase := .confirming step index rest }
    | .sending step index rest _, .error reason => some (failStep pkg s step index rest reason)
    | .sweepSending round _ _, .ok () =>
      some (round.skip pkg ((s.enter round.step.txid).emit
        (sweepEvent round.step round.index .broadcast none)))
    | .sweepSending round _ _, .error reason =>
      if isTransient reason then some (round.skip pkg s)
      else some (round.settle pkg s .failed (some reason))
    | _, _ => none
  | .tip answer => match s.phase, answer with
    | .chainTip round dep, .ok tip =>
      if isMature round.step.delay dep tip then
        some { s with phase := .sweepSending round dep tip }
      else some (round.announce pkg dep s)
    | .chainTip _ _, .error _ => some { s with phase := .thrown }
    | _, _ => none
  | .wake => match s.phase with
    | .sleeping done announced => some (newRound pkg done announced s)
    | _ => none
  | .abort => match s.phase with
    | .confirming _ _ _ => some { s with phase := .thrown }
    | .sweepStatus _ => some { s with phase := .thrown }
    | .sleeping _ _ => some { s with phase := .thrown }
    | _ => none
  | .enters txid => some (s.enter txid)
  | .confirms txid =>
    if s.network txid = .mempool then
      some { s with network := Function.update s.network txid .confirmed }
    else none

end

structure SettledOnce (pkg : ExitPackage) (s : State) : Prop where
  once : (verdicts s.events).Nodup
  steps : ∀ i ∈ verdicts s.events, i < pkg.steps.length
  finished : s.phase = .finished → ∀ i < pkg.steps.length, i ∈ verdicts s.events

def Event.failure? : Event → Option ℕ
  | .step event => if event.status = .failed then some event.stepIndex else none
  | .warning _ => none

def Event.sent? : Event → Option ℕ
  | .step event => if event.status = .broadcast then some event.stepIndex else none
  | .warning _ => none

def failures (events : List Event) : List ℕ := events.filterMap Event.failure?

def broadcasts (events : List Event) : List ℕ := events.filterMap Event.sent?

def Phase.asks? : Phase → Option String
  | .checking step _ _ => some step.anchorTxid
  | .confirming step _ _ => some step.anchorTxid
  | .sweepStatus round => some round.step.txid
  | .depStatus round => some round.step.dependsOnTxid
  | _ => none

/-- What the explorer calls confirmed is. -/
def Truthful (s : State) : Input → Prop
  | .status (some status) => status.confirmed = true →
      ∀ txid, s.phase.asks? = some txid → s.network txid = .confirmed
  | _ => True

/-- The executor is through with a step: it is onchain, it failed, or all that it serves is lost. -/
def Passed (s : State) (step : ExitStep) (index : ℕ) : Prop :=
  s.network step.anchorTxid = .confirmed ∨ index ∈ failures s.events ∨
    branchDead step s.dead = true

/-- The steps go out in order and at most once, none that serves only what is lost, and a sweep only
when what it spends is confirmed and mature. What is lost is what failed steps serve. -/
structure Ordered (pkg : ExitPackage) (s : State) : Prop where
  lost : ∀ vtxo, vtxo ∈ s.dead ↔
    ∃ i ∈ failures s.events, ∃ step, pkg.steps[i]? = some step ∧ vtxo ∈ killed pkg step
  step : ∀ step index rest hexes, s.phase = .sending step index rest hexes →
    pkg.steps[index]? = some step ∧ branchDead step s.dead = false ∧
      index ∉ broadcasts s.events ∧
      ∀ i < index, ∀ earlier, pkg.steps[i]? = some earlier → earlier.sweep? = none →
        Passed s earlier i
  sweep : ∀ round dep tip, s.phase = .sweepSending round dep tip →
    pkg.steps[round.index]? = some (.sweep round.step) ∧ round.step.vtxo ∉ s.dead ∧
      s.network round.step.dependsOnTxid = .confirmed ∧
      isMature round.step.delay dep tip = true ∧
      ∀ i earlier, pkg.steps[i]? = some earlier → earlier.sweep? = none → Passed s earlier i

/-- What one input does, case by case. -/
inductive Moves (pkg : ExitPackage) (feeWallet : Bool) (s : State) : Input → State → Prop
  | skip {step index rest status} : s.phase = .checking step index rest →
      status.confirmed = true →
      Moves pkg feeWallet s (.status (some status))
        (drive pkg rest (s.emit (stepEvent step index .skipped none)))
  | known {step index rest status} : s.phase = .checking step index rest →
      status.confirmed = false →
      Moves pkg feeWallet s (.status (some status)) { s with phase := .confirming step index rest }
  | send {step index rest} : s.phase = .checking step index rest →
      Moves pkg feeWallet s (.status none) (send pkg feeWallet s step index rest)
  | confirm {step index rest status} : s.phase = .confirming step index rest →
      status.confirmed = true →
      Moves pkg feeWallet s (.status (some status))
        (drive pkg rest (s.emit (stepEvent step index .confirmed none)))
  | poll {answer} : Moves pkg feeWallet s (.status answer) s
  | swept {round status} : s.phase = .sweepStatus round → status.confirmed = true →
      Moves pkg feeWallet s (.status (some status)) (round.settle pkg s .confirmed none)
  | askDep {round} : s.phase = .sweepStatus round →
      Moves pkg feeWallet s (.status none) { s with phase := .depStatus round }
  | askTip {round dep} : s.phase = .depStatus round → dep.confirmed = true →
      Moves pkg feeWallet s (.status (some dep)) { s with phase := .chainTip round dep }
  | pass {round answer} : (s.phase = .sweepStatus round ∨ s.phase = .depStatus round) →
      Moves pkg feeWallet s (.status answer) (round.skip pkg s)
  | bumped {step index rest parentHex childHex} : s.phase = .bumping step index rest →
      Moves pkg feeWallet s (.bumped (.ok (parentHex, childHex)))
        { s with phase := .sending step index rest [parentHex, childHex] }
  | unbumped {step index rest reason} : s.phase = .bumping step index rest →
      Moves pkg feeWallet s (.bumped (.error reason)) (failStep pkg s step index rest reason)
  | sent {step index rest hexes} : s.phase = .sending step index rest hexes →
      Moves pkg feeWallet s (.sent (.ok ()))
        { (s.enter step.anchorTxid).emit (stepEvent step index .broadcast none) with
          phase := .confirming step index rest }
  | refused {step index rest hexes reason} : s.phase = .sending step index rest hexes →
      Moves pkg feeWallet s (.sent (.error reason)) (failStep pkg s step index rest reason)
  | sweep {round dep tip} : s.phase = .sweepSending round dep tip →
      Moves pkg feeWallet s (.sent (.ok ()))
        (round.skip pkg ((s.enter round.step.txid).emit
          (sweepEvent round.step round.index .broadcast none)))
  | early {round dep tip reason} : s.phase = .sweepSending round dep tip →
      Moves pkg feeWallet s (.sent (.error reason)) (round.skip pkg s)
  | unswept {round dep tip reason} : s.phase = .sweepSending round dep tip →
      Moves pkg feeWallet s (.sent (.error reason)) (round.settle pkg s .failed (some reason))
  | mature {round dep tip} : s.phase = .chainTip round dep →
      isMature round.step.delay dep tip = true →
      Moves pkg feeWallet s (.tip (.ok tip)) { s with phase := .sweepSending round dep tip }
  | wait {round dep tip} : s.phase = .chainTip round dep →
      Moves pkg feeWallet s (.tip (.ok tip)) (round.announce pkg dep s)
  | wake {done announced} : s.phase = .sleeping done announced →
      Moves pkg feeWallet s .wake (newRound pkg done announced s)
  | throw {input} : Moves pkg feeWallet s input { s with phase := .thrown }
  | enters {txid} : Moves pkg feeWallet s (.enters txid) (s.enter txid)
  | confirms {txid} : s.network txid = .mempool → Moves pkg feeWallet s (.confirms txid)
      { s with network := Function.update s.network txid .confirmed }

theorem moves_of_step {pkg : ExitPackage} {feeWallet : Bool} {s t : State} {input : Input}
    (h : step pkg feeWallet s input = some t) : Moves pkg feeWallet s input t := by
  cases input with
  | status answer =>
    cases hphase : s.phase with
    | checking step index rest =>
      cases answer with
      | none =>
        simp only [Executor.step, hphase] at h
        cases h
        exact .send hphase
      | some status =>
        simp only [Executor.step, hphase] at h
        split at h
        · next hconfirmed =>
          cases h
          exact .skip hphase hconfirmed
        · next hconfirmed =>
          cases h
          exact .known hphase (Bool.not_eq_true _ ▸ hconfirmed)
    | confirming step index rest =>
      cases answer with
      | none =>
        simp only [Executor.step, hphase, Option.any_none, Bool.false_eq_true, if_false] at h
        cases h
        exact .poll
      | some status =>
        simp only [Executor.step, hphase, Option.any_some] at h
        split at h
        · next hconfirmed =>
          cases h
          exact .confirm hphase hconfirmed
        · cases h
          exact .poll
    | sweepStatus round =>
      cases answer with
      | none =>
        simp only [Executor.step, hphase] at h
        cases h
        exact .askDep hphase
      | some status =>
        simp only [Executor.step, hphase] at h
        split at h
        · next hconfirmed =>
          cases h
          exact .swept hphase hconfirmed
        · cases h
          exact .pass (.inl hphase)
    | depStatus round =>
      cases answer with
      | none =>
        simp only [Executor.step, hphase] at h
        cases h
        exact .pass (.inr hphase)
      | some dep =>
        simp only [Executor.step, hphase] at h
        split at h
        · next hconfirmed =>
          cases h
          exact .askTip hphase hconfirmed
        · cases h
          exact .pass (.inr hphase)
    | _ => simp [Executor.step, hphase] at h
  | bumped answer =>
    cases hphase : s.phase with
    | bumping step index rest =>
      cases answer <;> simp only [Executor.step, hphase] at h <;> cases h
      · exact .unbumped hphase
      · exact .bumped hphase
    | _ => simp [Executor.step, hphase] at h
  | sent answer =>
    cases hphase : s.phase with
    | sending step index rest hexes =>
      cases answer <;> simp only [Executor.step, hphase] at h <;> cases h
      · exact .refused hphase
      · exact .sent hphase
    | sweepSending round dep tip =>
      cases answer with
      | ok =>
        simp only [Executor.step, hphase] at h
        cases h
        exact .sweep hphase
      | error reason =>
        simp only [Executor.step, hphase] at h
        split at h <;> cases h
        · exact .early hphase
        · exact .unswept hphase
    | _ => simp [Executor.step, hphase] at h
  | tip answer =>
    cases hphase : s.phase with
    | chainTip round dep =>
      cases answer with
      | ok tip =>
        simp only [Executor.step, hphase] at h
        split at h
        · next hmature =>
          cases h
          exact .mature hphase hmature
        · cases h
          exact .wait hphase
      | error reason =>
        simp only [Executor.step, hphase] at h
        cases h
        exact .throw
    | _ => simp [Executor.step, hphase] at h
  | wake =>
    cases hphase : s.phase with
    | sleeping done announced =>
      simp only [Executor.step, hphase] at h
      cases h
      exact .wake hphase
    | _ => simp [Executor.step, hphase] at h
  | abort =>
    simp only [Executor.step] at h
    split at h <;> cases h <;> exact .throw
  | enters txid =>
    cases h
    exact .enters
  | confirms txid =>
    simp only [Executor.step] at h
    split at h
    · next hmempool =>
      cases h
      exact .confirms hmempool
    · cases h

section Indices

variable {pkg : ExitPackage} {dead : List String}

theorem mem_indexed {step : ExitStep} {i : ℕ} :
    (step, i) ∈ pkg.indexed ↔ pkg.steps[i]? = some step :=
  List.mk_mem_zipIdx_iff_getElem?

theorem mem_sweeps {step : SweepStep} {i : ℕ} :
    (step, i) ∈ pkg.sweeps ↔ pkg.steps[i]? = some (.sweep step) := by
  simp only [ExitPackage.sweeps, List.mem_filterMap, Option.map_eq_some_iff, Prod.mk.injEq,
    Prod.exists, mem_indexed]
  constructor
  · rintro ⟨exitStep, i', hstep, sweep, hsweep, rfl, rfl⟩
    cases exitStep with
    | sweep other =>
      cases hsweep
      exact hstep
    | _ => cases hsweep
  · intro h
    exact ⟨_, i, h, step, rfl, rfl, rfl⟩

theorem nodup_indexed : (pkg.indexed.map (·.2)).Nodup := by
  have h : pkg.indexed.map (·.2) = List.range' 0 pkg.steps.length := List.zipIdx_map_snd _ _
  rw [h]
  exact List.nodup_range'

theorem nodup_sweeps : (pkg.sweeps.map (·.2)).Nodup := by
  have h : (pkg.sweeps.map (·.2)).Sublist (pkg.indexed.map (·.2)) := by
    unfold ExitPackage.sweeps
    induction pkg.indexed with
    | nil => exact .slnil
    | cons e l ih =>
      rw [List.filterMap_cons]
      cases e.1.sweep? with
      | none => exact ih.cons _
      | some sweep => exact ih.cons_cons _
  exact h.nodup nodup_indexed

def loopIndices (l : List (ExitStep × ℕ)) : List ℕ :=
  (l.filter fun e ↦ e.1.sweep?.isNone).map (·.2)

theorem mem_loopIndices {i : ℕ} : i ∈ loopIndices pkg.indexed ↔
    ∃ step, pkg.steps[i]? = some step ∧ step.sweep? = none := by
  simp only [loopIndices, List.mem_map, List.mem_filter, Option.isNone_iff_eq_none, Prod.exists,
    mem_indexed]
  constructor
  · rintro ⟨step, i', ⟨hstep, hsweep⟩, rfl⟩
    exact ⟨step, hstep, hsweep⟩
  · rintro ⟨step, hstep, hsweep⟩
    exact ⟨step, i, ⟨hstep, hsweep⟩, rfl⟩

theorem mem_pending {step : SweepStep} {i : ℕ} : (step, i) ∈ pending pkg dead ↔
    pkg.steps[i]? = some (.sweep step) ∧ step.vtxo ∉ dead := by
  rw [pending, List.mem_filter, mem_sweeps, decide_eq_true_eq]

theorem mem_lost {step : SweepStep} {i : ℕ} : (step, i) ∈ lost pkg dead ↔
    pkg.steps[i]? = some (.sweep step) ∧ step.vtxo ∈ dead := by
  rw [lost, List.mem_filter, mem_sweeps, decide_eq_true_eq]

theorem nodup_pending : ((pending pkg dead).map (·.2)).Nodup :=
  (List.filter_sublist.map _).nodup nodup_sweeps

theorem nodup_lost : ((lost pkg dead).map (·.2)).Nodup :=
  (List.filter_sublist.map _).nodup nodup_sweeps

end Indices

section Verdicts

variable {pkg : ExitPackage} {feeWallet : Bool}

def AtStep (pkg : ExitPackage) (s : State) (step : ExitStep) (index : ℕ)
    (rest : List (ExitStep × ℕ)) : Prop :=
  step.sweep? = none ∧ branchDead step s.dead = false ∧ ∃ passed,
    pkg.indexed = passed ++ (step, index) :: rest ∧
      ∀ i, i ∈ verdicts s.events ↔ i ∈ loopIndices passed

theorem AtStep.mem {s : State} {step : ExitStep} {index : ℕ} {rest : List (ExitStep × ℕ)}
    (h : AtStep pkg s step index rest) : pkg.steps[index]? = some step := by
  obtain ⟨-, -, passed, hsplit, -⟩ := h
  exact mem_indexed.mp (hsplit ▸ List.mem_append_right _ List.mem_cons_self)

theorem AtStep.subset {s : State} {step : ExitStep} {index : ℕ} {rest : List (ExitStep × ℕ)}
    (h : AtStep pkg s step index rest) : rest ⊆ pkg.indexed := by
  obtain ⟨-, -, passed, hsplit, -⟩ := h
  rw [hsplit]
  exact fun e he ↦ List.mem_append_right _ (List.mem_cons_of_mem _ he)

/-- In the rounds over the sweeps, what is settled is the rest of the package and `done`. -/
structure InRound (pkg : ExitPackage) (s : State) (done : List ℕ) : Prop where
  settled : ∀ i, i ∈ verdicts s.events ↔
    i ∈ loopIndices pkg.indexed ∨ i ∈ (lost pkg s.dead).map (·.2) ∨ i ∈ done
  nodup : done.Nodup
  pending : done ⊆ (pending pkg s.dead).map (·.2)

def AtSweep (pkg : ExitPackage) (s : State) (round : Round) : Prop :=
  InRound pkg s round.done ∧ (round.step, round.index) ∈ pending pkg s.dead ∧
    round.index ∉ round.done ∧ round.todo ⊆ pending pkg s.dead

def PhaseInv (pkg : ExitPackage) (s : State) : Phase → Prop
  | .checking step index rest => AtStep pkg s step index rest
  | .bumping step index rest => AtStep pkg s step index rest
  | .sending step index rest _ => AtStep pkg s step index rest
  | .confirming step index rest => AtStep pkg s step index rest
  | .sweepStatus round => AtSweep pkg s round
  | .depStatus round => AtSweep pkg s round
  | .chainTip round _ => AtSweep pkg s round
  | .sweepSending round _ _ => AtSweep pkg s round
  | .sleeping done _ => InRound pkg s done
  | .finished => ∃ done, InRound pkg s done ∧ (pending pkg s.dead).map (·.2) ⊆ done
  | .thrown => True

structure Inv (pkg : ExitPackage) (s : State) : Prop where
  phase : PhaseInv pkg s s.phase
  once : (verdicts s.events).Nodup
  steps : ∀ i ∈ verdicts s.events, i < pkg.steps.length

theorem verdicts_cons {event : Event} {events : List Event} :
    verdicts (event :: events) = event.verdict?.toList ++ verdicts events := by
  unfold verdicts
  rw [List.filterMap_cons]
  cases event.verdict? <;> rfl

theorem lt_of_getElem? {i : ℕ} {step : ExitStep} (h : pkg.steps[i]? = some step) :
    i < pkg.steps.length := (List.getElem?_eq_some_iff.mp h).1

theorem inv_nextSweep {s : State} {done announced : List ℕ} {todo : List (SweepStep × ℕ)}
    (hround : InRound pkg s done) (htodo : todo ⊆ pending pkg s.dead)
    (honce : (verdicts s.events).Nodup) (hsteps : ∀ i ∈ verdicts s.events, i < pkg.steps.length) :
    Inv pkg (nextSweep pkg done announced s todo) := by
  induction todo with
  | nil =>
    unfold nextSweep
    split
    · exact ⟨⟨hround.settled, hround.nodup, hround.pending⟩, honce, hsteps⟩
    · next hlength =>
      refine ⟨⟨done, ⟨hround.settled, hround.nodup, hround.pending⟩, ?_⟩, honce, hsteps⟩
      have hle : ((pending pkg s.dead).map (·.2)).length ≤ done.length := by
        rw [List.length_map]
        exact Nat.le_of_not_lt hlength
      exact ((hround.nodup.subperm hround.pending).perm_of_length_le hle).symm.subset
  | cons e todo ih =>
    obtain ⟨he, htodo⟩ := List.cons_subset.mp htodo
    unfold nextSweep
    split
    · exact ih htodo
    · next hnew =>
      exact ⟨⟨⟨hround.settled, hround.nodup, hround.pending⟩, he, hnew, htodo⟩, honce, hsteps⟩

theorem inv_startSweeps {s : State}
    (hsettled : ∀ i, i ∈ verdicts s.events ↔ i ∈ loopIndices pkg.indexed)
    (honce : (verdicts s.events).Nodup) : Inv pkg (startSweeps pkg s) := by
  have hevents : verdicts (((lost pkg s.dead).map fun e ↦
      sweepEvent e.1 e.2 .failed (some branchFailed)).reverse ++ s.events) =
      ((lost pkg s.dead).map (·.2)).reverse ++ verdicts s.events := by
    unfold verdicts
    rw [List.filterMap_append, List.filterMap_reverse, List.filterMap_map]
    congr 2
    rw [← List.filterMap_eq_map]
    rfl
  have hdisjoint : ∀ i ∈ (lost pkg s.dead).map (·.2), i ∉ loopIndices pkg.indexed := by
    intro i hi hloop
    obtain ⟨⟨step, _⟩, hmem, rfl⟩ := List.mem_map.mp hi
    obtain ⟨other, hother, hsweep⟩ := mem_loopIndices.mp hloop
    rw [(mem_lost.mp hmem).1] at hother
    cases hother
    cases hsweep
  unfold startSweeps newRound
  refine inv_nextSweep ⟨?_, List.nodup_nil, List.nil_subset _⟩ (List.Subset.refl _) ?_ ?_
  · intro i
    simp only [hevents, List.mem_append, List.mem_reverse, hsettled, List.not_mem_nil, or_false]
    exact or_comm
  · simp only [hevents]
    refine List.nodup_append'.mpr ⟨List.nodup_reverse.mpr nodup_lost, honce, ?_⟩
    intro i hi hverdict
    exact hdisjoint i (List.mem_reverse.mp hi) ((hsettled i).mp hverdict)
  · intro i
    simp only [hevents, List.mem_append, List.mem_reverse, hsettled]
    rintro (hi | hi)
    · obtain ⟨⟨step, _⟩, hmem, rfl⟩ := List.mem_map.mp hi
      exact lt_of_getElem? (mem_lost.mp hmem).1
    · obtain ⟨step, hstep, -⟩ := mem_loopIndices.mp hi
      exact lt_of_getElem? hstep

theorem settled_emit {s : State} {event : Event} {step : ExitStep} {index : ℕ}
    {passed : List (ExitStep × ℕ)} (hverdict : event.verdict? = some index)
    (hsweep : step.sweep? = none) (hsettled : ∀ i, i ∈ verdicts s.events ↔ i ∈ loopIndices passed)
    (i : ℕ) : i ∈ verdicts (s.emit event).events ↔ i ∈ loopIndices (passed ++ [(step, index)]) := by
  have hloop : loopIndices (passed ++ [(step, index)]) = loopIndices passed ++ [index] := by
    simp [loopIndices, hsweep]
  rw [hloop, State.emit, verdicts_cons, hverdict]
  simp only [Option.toList_some, List.singleton_append, List.mem_cons, List.mem_append, hsettled,
    List.not_mem_nil, or_false]
  exact or_comm

theorem new_index {s : State} {step : ExitStep} {index : ℕ} {passed rest : List (ExitStep × ℕ)}
    (hsplit : pkg.indexed = passed ++ (step, index) :: rest)
    (hsettled : ∀ i, i ∈ verdicts s.events ↔ i ∈ loopIndices passed) :
    index ∉ verdicts s.events := by
  intro hmem
  have hnodup := @nodup_indexed pkg
  rw [hsplit, List.map_append, List.map_cons] at hnodup
  have hpassed : index ∈ passed.map (·.2) :=
    (List.filter_sublist.map _).subset ((hsettled index).mp hmem)
  exact (List.nodup_append'.mp hnodup).2.2 hpassed List.mem_cons_self

theorem inv_drive {rest : List (ExitStep × ℕ)} : ∀ (passed : List (ExitStep × ℕ)) {s : State},
    pkg.indexed = passed ++ rest → (∀ i, i ∈ verdicts s.events ↔ i ∈ loopIndices passed) →
    (verdicts s.events).Nodup → (∀ i ∈ verdicts s.events, i < pkg.steps.length) →
    Inv pkg (drive pkg rest s) := by
  induction rest with
  | nil =>
    intro passed s hsplit hsettled honce hsteps
    rw [List.append_nil] at hsplit
    exact inv_startSweeps (hsplit ▸ hsettled) honce
  | cons e rest ih =>
    intro passed s hsplit hsettled honce hsteps
    obtain ⟨step, index⟩ := e
    have hsplit' : pkg.indexed = (passed ++ [(step, index)]) ++ rest := by
      rw [hsplit, List.append_assoc, List.singleton_append]
    unfold drive
    split
    · next hsweep =>
      refine ih _ hsplit' (fun i ↦ ?_) honce hsteps
      have hloop : loopIndices (passed ++ [(step, index)]) = loopIndices passed := by
        simp [loopIndices, Option.ne_none_iff_isSome.mpr hsweep]
      rw [hloop, hsettled]
    · next hsweep =>
      have hsweep : step.sweep? = none := by simpa using hsweep
      split
      · have hmem : (step, index) ∈ pkg.indexed :=
          hsplit ▸ List.mem_append_right _ List.mem_cons_self
        refine ih _ hsplit' (settled_emit rfl hsweep hsettled) ?_ ?_
        · exact List.nodup_cons.mpr ⟨new_index hsplit hsettled, honce⟩
        · exact List.forall_mem_cons.mpr ⟨lt_of_getElem? (mem_indexed.mp hmem), hsteps⟩
      · next hdead =>
        exact ⟨⟨hsweep, Bool.not_eq_true _ ▸ hdead, passed, hsplit, hsettled⟩, honce, hsteps⟩

theorem inv_settled {s : State} {step : ExitStep} {index : ℕ} {rest : List (ExitStep × ℕ)}
    {event : Event} (hs : Inv pkg s) (hat : AtStep pkg s step index rest)
    (hverdict : event.verdict? = some index) (dead : List String) :
    Inv pkg (drive pkg rest ({ s with dead := dead }.emit event)) := by
  obtain ⟨hsweep, -, passed, hsplit, hsettled⟩ := hat
  have hmem : (step, index) ∈ pkg.indexed := hsplit ▸ List.mem_append_right _ List.mem_cons_self
  have hevents : verdicts (event :: s.events) = index :: verdicts s.events := by
    rw [verdicts_cons, hverdict]
    rfl
  refine inv_drive (passed ++ [(step, index)]) ?_
    (settled_emit (s := { s with dead := dead }) hverdict hsweep hsettled) ?_ ?_
  · rw [hsplit, List.append_assoc, List.singleton_append]
  · exact hevents ▸ List.nodup_cons.mpr ⟨new_index hsplit hsettled, hs.once⟩
  · intro i hi
    obtain rfl | hi := List.mem_cons.mp (hevents ▸ hi)
    · exact lt_of_getElem? (mem_indexed.mp hmem)
    · exact hs.steps i hi

theorem inv_skip {s : State} {round : Round} (hs : Inv pkg s) (hat : AtSweep pkg s round) :
    Inv pkg (round.skip pkg s) :=
  inv_nextSweep hat.1 hat.2.2.2 hs.once hs.steps

theorem inv_settle {s : State} {round : Round} {status : Status} {reason : Option String}
    (hs : Inv pkg s) (hat : AtSweep pkg s round)
    (hstatus : (sweepEvent round.step round.index status reason).verdict? = some round.index) :
    Inv pkg (round.settle pkg s status reason) := by
  obtain ⟨hround, hmem, hnew, htodo⟩ := hat
  have hevents : verdicts (sweepEvent round.step round.index status reason :: s.events) =
      round.index :: verdicts s.events := by
    rw [verdicts_cons, hstatus]
    rfl
  have hstep := (mem_pending.mp hmem).1
  refine inv_nextSweep ⟨?_, List.nodup_cons.mpr ⟨hnew, hround.nodup⟩, ?_⟩ htodo ?_ ?_
  · intro i
    simp only [State.emit, hevents, List.mem_cons, hround.settled i]
    tauto
  · exact List.cons_subset.mpr ⟨List.mem_map.mpr ⟨_, hmem, rfl⟩, hround.pending⟩
  · simp only [State.emit, hevents]
    refine List.nodup_cons.mpr ⟨fun hverdict ↦ ?_, hs.once⟩
    obtain hloop | hlost | hdone := (hround.settled _).mp hverdict
    · obtain ⟨other, hother, hsweep⟩ := mem_loopIndices.mp hloop
      rw [hstep] at hother
      cases hother
      cases hsweep
    · obtain ⟨⟨other, _⟩, hother, he⟩ := List.mem_map.mp hlost
      obtain ⟨hother, hdead⟩ := mem_lost.mp hother
      simp only at he
      rw [he, hstep] at hother
      cases hother
      exact (mem_pending.mp hmem).2 hdead
    · exact hnew hdone
  · intro i hi
    simp only [State.emit, hevents] at hi
    obtain rfl | hi := List.mem_cons.mp hi
    · exact lt_of_getElem? hstep
    · exact hs.steps i hi

theorem PhaseInv.congr {s t : State} (hdead : t.dead = s.dead)
    (hverdicts : verdicts t.events = verdicts s.events) {phase : Phase}
    (h : PhaseInv pkg s phase) : PhaseInv pkg t phase := by
  have hstep : ∀ {step index rest}, AtStep pkg s step index rest →
      AtStep pkg t step index rest := by
    rintro step index rest ⟨hsweep, halive, passed, hsplit, hsettled⟩
    exact ⟨hsweep, hdead ▸ halive, passed, hsplit, hverdicts ▸ hsettled⟩
  have hround : ∀ {done}, InRound pkg s done → InRound pkg t done := fun h ↦
    ⟨hdead ▸ hverdicts ▸ h.settled, h.nodup, hdead ▸ h.pending⟩
  have hsweep : ∀ {round}, AtSweep pkg s round → AtSweep pkg t round := by
    rintro round ⟨h, hmem, hnew, htodo⟩
    exact ⟨hround h, hdead ▸ hmem, hnew, hdead ▸ htodo⟩
  cases phase with
  | checking step index rest => exact hstep h
  | bumping step index rest => exact hstep h
  | sending step index rest hexes => exact hstep h
  | confirming step index rest => exact hstep h
  | sweepStatus round => exact hsweep h
  | depStatus round => exact hsweep h
  | chainTip round dep => exact hsweep h
  | sweepSending round dep tip => exact hsweep h
  | sleeping done announced => exact hround h
  | finished =>
    obtain ⟨done, hdone, hall⟩ := h
    exact ⟨done, hround hdone, hdead ▸ hall⟩
  | thrown => trivial

theorem Inv.congr {s t : State} (hs : Inv pkg s) (hdead : t.dead = s.dead)
    (hverdicts : verdicts t.events = verdicts s.events) (hphase : PhaseInv pkg s t.phase) :
    Inv pkg t :=
  ⟨hphase.congr hdead hverdicts, hverdicts ▸ hs.once, hverdicts ▸ hs.steps⟩

theorem Inv.emit {s : State} (hs : Inv pkg s) (event : Event) (h : event.verdict? = none) :
    Inv pkg (s.emit event) := by
  refine hs.congr rfl ?_ hs.phase
  rw [State.emit, verdicts_cons, h]
  rfl

theorem inv_send {s : State} {step : ExitStep} {index : ℕ} {rest : List (ExitStep × ℕ)}
    (hs : Inv pkg s) (hat : AtStep pkg s step index rest) :
    Inv pkg (send pkg feeWallet s step index rest) := by
  cases step with
  | broadcast txid hex => exact hs.congr rfl rfl hat
  | package parentTxid parentHex childHex forVtxos => exact hs.congr rfl rfl hat
  | bump parentTxid parentHex forVtxos =>
    unfold send
    dsimp only
    split
    · exact hs.congr rfl rfl hat
    · exact inv_settled hs hat rfl _
  | sweep sweep => cases hat.1

theorem AtSweep.congr {s t : State} {round : Round} (h : AtSweep pkg s round)
    (hdead : t.dead = s.dead) (hverdicts : verdicts t.events = verdicts s.events) :
    AtSweep pkg t round :=
  @PhaseInv.congr pkg s t hdead hverdicts (.sweepStatus round) h

theorem inv_moves {s t : State} {input : Input} (hs : Inv pkg s)
    (h : Moves pkg feeWallet s input t) : Inv pkg t := by
  have hphase := hs.phase
  cases h with
  | skip hp _ =>
    rw [hp] at hphase
    exact inv_settled hs hphase rfl s.dead
  | known hp _ =>
    rw [hp] at hphase
    exact hs.congr rfl rfl hphase
  | send hp =>
    rw [hp] at hphase
    exact inv_send hs hphase
  | confirm hp _ =>
    rw [hp] at hphase
    exact inv_settled hs hphase rfl s.dead
  | poll => exact hs
  | swept hp _ =>
    rw [hp] at hphase
    exact inv_settle hs hphase rfl
  | askDep hp =>
    rw [hp] at hphase
    exact hs.congr rfl rfl hphase
  | askTip hp _ =>
    rw [hp] at hphase
    exact hs.congr rfl rfl hphase
  | pass hp =>
    obtain hp | hp := hp <;> rw [hp] at hphase
    · exact inv_skip hs hphase
    · exact inv_skip hs hphase
  | bumped hp =>
    rw [hp] at hphase
    exact hs.congr rfl rfl hphase
  | unbumped hp =>
    rw [hp] at hphase
    exact inv_settled hs hphase rfl _
  | @sent step index rest hexes hp =>
    rw [hp] at hphase
    refine hs.congr rfl ?_ hphase
    simp only [State.emit, State.enter, verdicts_cons]
    rfl
  | refused hp =>
    rw [hp] at hphase
    exact inv_settled hs hphase rfl _
  | @sweep round dep tip hp =>
    rw [hp] at hphase
    have hentered : Inv pkg (s.enter round.step.txid) := hs.congr rfl rfl hs.phase
    refine inv_skip (hentered.emit _ rfl) (AtSweep.congr hphase rfl ?_)
    simp only [State.emit, State.enter, verdicts_cons]
    rfl
  | early hp =>
    rw [hp] at hphase
    exact inv_skip hs hphase
  | unswept hp =>
    rw [hp] at hphase
    exact inv_settle hs hphase rfl
  | mature hp _ =>
    rw [hp] at hphase
    exact hs.congr rfl rfl hphase
  | @wait round dep tip hp =>
    rw [hp] at hphase
    unfold Round.announce
    split
    · exact inv_skip hs hphase
    · have hemit := hs.emit (waitingEvent round.step round.index dep) rfl
      have hat : AtSweep pkg (s.emit (waitingEvent round.step round.index dep)) round :=
        AtSweep.congr hphase rfl rfl
      exact inv_nextSweep hat.1 hat.2.2.2 hemit.once hemit.steps
  | wake hp =>
    rw [hp] at hphase
    exact inv_nextSweep hphase (List.Subset.refl _) hs.once hs.steps
  | throw => exact hs.congr rfl rfl trivial
  | enters => exact hs.congr rfl rfl hs.phase
  | confirms _ => exact hs.congr rfl rfl hs.phase

theorem filterMap_warnings {β : Type} {f : Event → Option β} (hf : ∀ v, f (.warning v) = none)
    (now : ℤ) : (warnings pkg now).filterMap f = [] := by
  unfold warnings
  split
  · split
    · rw [List.filterMap_cons_none (hf _), List.filterMap_nil]
    · rfl
  · rfl

theorem inv_start (now : ℤ) (network : String → TxState) : Inv pkg (start pkg now network) := by
  have hnone : verdicts (warnings pkg now) = [] := filterMap_warnings (fun _ ↦ rfl) now
  refine inv_drive [] rfl ?_ ?_ ?_
  · intro i
    simp only [hnone]
    rfl
  · simp only [hnone]
    exact List.nodup_nil
  · simp [hnone]

/-- Whatever the explorer, the fee wallet and the network answer, no step is settled twice, and when
the execution ends every step is. -/
theorem steps_settledOnce {now : ℤ} {network : String → TxState} {s : State}
    (h : Run (step pkg feeWallet) (fun _ _ ↦ True) (start pkg now network) s) :
    SettledOnce pkg s := by
  have hs : Inv pkg s := h.invariant (P := Inv pkg)
    (fun _ _ _ hs _ hstep ↦ inv_moves hs (moves_of_step hstep)) (inv_start now network)
  refine ⟨hs.once, hs.steps, fun hphase i hi ↦ ?_⟩
  obtain ⟨done, hround, hall⟩ : PhaseInv pkg s .finished := hphase ▸ hs.phase
  have hstep : pkg.steps[i]? = some (pkg.steps.get ⟨i, hi⟩) := List.getElem?_eq_getElem hi
  rw [hround.settled]
  cases hsweep : (pkg.steps.get ⟨i, hi⟩).sweep? with
  | none => exact .inl (mem_loopIndices.mpr ⟨_, hstep, hsweep⟩)
  | some sweep =>
    have hsweep : pkg.steps.get ⟨i, hi⟩ = .sweep sweep := by
      cases hget : pkg.steps.get ⟨i, hi⟩ with
      | sweep other =>
        rw [hget] at hsweep
        cases hsweep
        rfl
      | _ =>
        rw [hget] at hsweep
        cases hsweep
    rw [hsweep] at hstep
    by_cases hdead : sweep.vtxo ∈ s.dead
    · exact .inr (.inl (List.mem_map.mpr ⟨_, mem_lost.mpr ⟨hstep, hdead⟩, rfl⟩))
    · exact .inr (.inr (hall (List.mem_map.mpr ⟨_, mem_pending.mpr ⟨hstep, hdead⟩, rfl⟩)))

/-! A splitter that is refused takes the package that hangs on it and its sweep along. -/

def smallPackage : ExitPackage where
  validUntil := some 1700000000
  steps := [.broadcast "splitter" "00", .package "leaf" "01" "02" ["v:0"],
    .sweep ⟨"v:0", "sweep", "03", "leaf", ⟨.blocks, 10⟩⟩]

theorem refused_settledOnce : ∃ s, verdicts s.events = [2, 1, 0] ∧ s.phase = .finished ∧
    SettledOnce smallPackage s := by
  have hrun : ∃ s, Run (step smallPackage false) (fun _ _ ↦ True)
      (start smallPackage 0 fun _ ↦ .unknown) s ∧ verdicts s.events = [2, 1, 0] ∧
      s.phase = .finished := by
    refine ⟨_, @run_of_exec _ _ _ _ _ _ [.status none, .sent (.error "missing inputs")] rfl ?_, rfl,
      rfl⟩
    exact ⟨trivial, fun _ _ ↦ ⟨trivial, fun _ _ ↦ trivial⟩⟩
  obtain ⟨s, hrun, hverdicts, hphase⟩ := hrun
  exact ⟨s, hverdicts, hphase, steps_settledOnce hrun⟩

end Verdicts

section Order

variable {pkg : ExitPackage} {feeWallet : Bool}

theorem branchDead_mono {step : ExitStep} {dead dead' : List String} (hdead : dead ⊆ dead')
    (h : branchDead step dead = true) : branchDead step dead' = true := by
  unfold branchDead at h ⊢
  cases hserves : step.forVtxos with
  | none =>
    rw [hserves] at h
    cases h
  | some forVtxos =>
    simp only [hserves, List.all_eq_true, decide_eq_true_eq] at h ⊢
    exact fun vtxo hvtxo ↦ hdead (h vtxo hvtxo)

theorem Passed.mono {s t : State} {step : ExitStep} {index : ℕ} (h : Passed s step index)
    (hnetwork : Grows s.network t.network) (hfailures : failures s.events ⊆ failures t.events)
    (hdead : s.dead ⊆ t.dead) : Passed t step index := by
  obtain h | h | h := h
  · exact .inl (hnetwork.confirmed _ h)
  · exact .inr (.inl (hfailures h))
  · exact .inr (.inr (branchDead_mono hdead h))

theorem failures_cons {event : Event} {events : List Event} :
    failures (event :: events) = event.failure?.toList ++ failures events := by
  unfold failures
  rw [List.filterMap_cons]
  cases event.failure? <;> rfl

theorem broadcasts_cons {event : Event} {events : List Event} :
    broadcasts (event :: events) = event.sent?.toList ++ broadcasts events := by
  unfold broadcasts
  rw [List.filterMap_cons]
  cases event.sent? <;> rfl

/-- What the events say of the steps. -/
structure Facts (pkg : ExitPackage) (s : State) : Prop where
  passed : ∀ i ∈ verdicts s.events, ∀ step, pkg.steps[i]? = some step → Passed s step i
  lost : ∀ vtxo, vtxo ∈ s.dead ↔
    ∃ i ∈ failures s.events, ∃ step, pkg.steps[i]? = some step ∧ vtxo ∈ killed pkg step

/-- What has been broadcast is settled, is a sweep or is `waiting` to be confirmed. -/
def Sent (pkg : ExitPackage) (events : List Event) (waiting : ℕ → Prop) : Prop :=
  ∀ i ∈ broadcasts events, i ∈ verdicts events ∨ waiting i ∨
    ∃ sweep, pkg.steps[i]? = some (.sweep sweep)

def Phase.Waits : Phase → ℕ → Prop
  | .confirming _ index _, i => i = index
  | .thrown, _ => True
  | _, _ => False

def Told (network : String → TxState) : Phase → Prop
  | .chainTip round _ => network round.step.dependsOnTxid = .confirmed
  | .sweepSending round dep tip =>
    network round.step.dependsOnTxid = .confirmed ∧ isMature round.step.delay dep tip = true
  | _ => True

structure Known (pkg : ExitPackage) (s : State) : Prop where
  facts : Facts pkg s
  sent : Sent pkg s.events s.phase.Waits
  told : Told s.network s.phase

theorem Facts.congr {s t : State} (hs : Facts pkg s) (hnetwork : Grows s.network t.network)
    (hdead : t.dead = s.dead) (hevents : t.events = s.events) : Facts pkg t := by
  refine ⟨fun i hi step hstep ↦ ?_, fun vtxo ↦ ?_⟩
  · refine (hs.passed i (hevents ▸ hi) step hstep).mono hnetwork ?_ ?_
    · rw [hevents]
      exact List.Subset.refl _
    · rw [hdead]
      exact List.Subset.refl _
  · rw [hdead, hevents]
    exact hs.lost vtxo

/-- An event that is no failure, about a step that has been passed or not settled. -/
theorem Facts.emit {s : State} (hs : Facts pkg s) {event : Event} (hfailure : event.failure? = none)
    (hpassed : ∀ i ∈ event.verdict?, ∀ step, pkg.steps[i]? = some step → Passed s step i) :
    Facts pkg (s.emit event) := by
  have hfailures : failures (event :: s.events) = failures s.events := by
    rw [failures_cons, hfailure]
    rfl
  have hmono : ∀ {step i}, Passed s step i → Passed (s.emit event) step i := fun h ↦
    h.mono (.refl _) (hfailures ▸ List.Subset.refl _) (List.Subset.refl _)
  refine ⟨fun i hi step hstep ↦ hmono ?_, fun vtxo ↦ ?_⟩
  · rw [State.emit, verdicts_cons, List.mem_append, Option.mem_toList] at hi
    obtain hi | hi := hi
    · exact hpassed i hi step hstep
    · exact hs.passed i hi step hstep
  · simp only [State.emit, hfailures]
    exact hs.lost vtxo

theorem Facts.note {s : State} (hs : Facts pkg s) (event : Event) (hfailure : event.failure? = none)
    (hverdict : event.verdict? = none) : Facts pkg (s.emit event) := by
  refine hs.emit hfailure fun i hi ↦ ?_
  rw [hverdict] at hi
  cases hi

theorem Facts.fail {s : State} (hs : Facts pkg s) {event : Event} {step : ExitStep} {index : ℕ}
    (hstep : pkg.steps[index]? = some step) (hfailure : event.failure? = some index)
    (hverdict : event.verdict? = some index) :
    Facts pkg ({ s with dead := killed pkg step ++ s.dead }.emit event) := by
  have hfailures : failures (event :: s.events) = index :: failures s.events := by
    rw [failures_cons, hfailure]
    rfl
  refine ⟨fun i hi other hother ↦ ?_, fun vtxo ↦ ?_⟩
  · rw [State.emit, verdicts_cons, hverdict] at hi
    obtain rfl | hi := List.mem_cons.mp hi
    · refine .inr (.inl ?_)
      simp only [State.emit, hfailures]
      exact List.mem_cons_self
    · refine (hs.passed i hi other hother).mono (.refl _) ?_ (List.subset_append_right _ _)
      simp only [State.emit, hfailures]
      exact List.subset_cons_self _ _
  · simp only [State.emit, hfailures, List.mem_append, hs.lost vtxo, List.mem_cons,
      exists_eq_or_imp, hstep, Option.some.injEq, exists_eq_left']

theorem sent_emit {s : State} {event : Event} {waiting : ℕ → Prop}
    (hs : Sent pkg s.events waiting) (hsent : event.sent? = none)
    (hwaiting : ∀ i, waiting i → event.verdict? = some i) :
    Sent pkg (s.emit event).events fun _ ↦ False := by
  intro i hi
  rw [State.emit, broadcasts_cons, hsent] at hi
  obtain hi | hi | hi := hs i hi
  · exact .inl (verdicts_cons ▸ List.mem_append_right _ hi)
  · refine .inl (verdicts_cons ▸ List.mem_append_left _ ?_)
    rw [hwaiting i hi]
    exact List.mem_cons_self
  · exact .inr (.inr hi)

theorem Sent.mono {events : List Event} {waiting waiting' : ℕ → Prop}
    (hs : Sent pkg events waiting) (h : ∀ i, waiting i → waiting' i) : Sent pkg events waiting' :=
  fun i hi ↦ (hs i hi).imp_right (Or.imp_left (h i))

theorem Known.quiet {s : State} (hs : Known pkg s) (h : ∀ i, ¬s.phase.Waits i)
    (waiting : ℕ → Prop) : Sent pkg s.events waiting :=
  hs.sent.mono fun i hi ↦ absurd hi (h i)

theorem Told.grows {w w' : String → TxState} {phase : Phase} (h : Told w phase)
    (hg : Grows w w') : Told w' phase := by
  cases phase with
  | chainTip round dep => exact hg.confirmed _ h
  | sweepSending round dep tip => exact ⟨hg.confirmed _ h.1, h.2⟩
  | _ => trivial

theorem Known.grows {s t : State} (hs : Known pkg s) (hdead : t.dead = s.dead)
    (hevents : t.events = s.events) (hphase : t.phase = s.phase)
    (hg : Grows s.network t.network) : Known pkg t :=
  ⟨hs.facts.congr hg hdead hevents, hevents ▸ hphase ▸ hs.sent, hphase ▸ hs.told.grows hg⟩

theorem known_nextSweep {s : State} {done announced : List ℕ} {todo : List (SweepStep × ℕ)}
    (hs : Facts pkg s) (hsent : Sent pkg s.events fun _ ↦ False) :
    Known pkg (nextSweep pkg done announced s todo) := by
  have hsent' : ∀ phase : Phase, Sent pkg s.events phase.Waits := fun _ ↦
    hsent.mono fun _ ↦ False.elim
  induction todo with
  | nil =>
    unfold nextSweep
    split <;> exact ⟨hs.congr (.refl _) rfl rfl, hsent' _, trivial⟩
  | cons e todo ih =>
    unfold nextSweep
    split
    · exact ih
    · exact ⟨hs.congr (.refl _) rfl rfl, hsent' _, trivial⟩

theorem known_startSweeps {s : State} (hs : Facts pkg s)
    (hsent : Sent pkg s.events fun _ ↦ False) : Known pkg (startSweeps pkg s) := by
  have hfail : ∀ (l : List (SweepStep × ℕ)) (t : State), l ⊆ pkg.sweeps → Facts pkg t →
      Sent pkg t.events (fun _ ↦ False) →
      let events := (l.map fun e ↦ sweepEvent e.1 e.2 .failed (some branchFailed)).reverse ++
        t.events
      Facts pkg { t with events } ∧ Sent pkg events fun _ ↦ False := by
    intro l
    induction l with
    | nil => exact fun t _ ht hsent ↦ ⟨ht, hsent⟩
    | cons e l ih =>
      intro t hl ht hsent
      obtain ⟨he, hl⟩ := List.cons_subset.mp hl
      have h := ih (t.emit (sweepEvent e.1 e.2 .failed (some branchFailed))) hl
        (ht.fail (mem_sweeps.mp he) rfl rfl) (sent_emit hsent rfl fun _ ↦ False.elim)
      simpa [State.emit] using h
  obtain ⟨hfacts, hsent⟩ := hfail (lost pkg s.dead) s (List.filter_subset_self _) hs hsent
  exact known_nextSweep hfacts hsent

theorem known_drive {rest : List (ExitStep × ℕ)} (hrest : rest ⊆ pkg.indexed) {s : State}
    (hs : Facts pkg s) (hsent : Sent pkg s.events fun _ ↦ False) :
    Known pkg (drive pkg rest s) := by
  induction rest generalizing s with
  | nil => exact known_startSweeps hs hsent
  | cons e rest ih =>
    obtain ⟨step, index⟩ := e
    obtain ⟨he, hrest⟩ := List.cons_subset.mp hrest
    unfold drive
    split
    · exact ih hrest hs hsent
    · split
      · next hdead =>
        refine ih hrest (hs.emit rfl ?_) (sent_emit hsent rfl fun _ ↦ False.elim)
        rintro i ⟨⟩ other hother
        cases (mem_indexed.mp he).symm.trans hother
        exact .inr (.inr hdead)
      · exact ⟨hs.congr (.refl _) rfl rfl, hsent.mono fun _ ↦ False.elim, trivial⟩

theorem known_settled {s : State} {step : ExitStep} {index : ℕ} {rest : List (ExitStep × ℕ)}
    {event : Event} (hs : Known pkg s) (hat : AtStep pkg s step index rest)
    (hpassed : Passed s step index) (hverdict : event.verdict? = some index)
    (hfailure : event.failure? = none) (hsent : event.sent? = none)
    (hwaits : ∀ i, s.phase.Waits i → i = index) : Known pkg (drive pkg rest (s.emit event)) := by
  have hmem := hat.mem
  refine known_drive hat.subset (hs.facts.emit hfailure ?_)
    (sent_emit hs.sent hsent fun i hi ↦ hwaits i hi ▸ hverdict)
  intro i hi other hother
  rw [hverdict] at hi
  cases hi
  cases hmem.symm.trans hother
  exact hpassed

theorem known_failStep {s : State} {step : ExitStep} {index : ℕ} {rest : List (ExitStep × ℕ)}
    {reason : String} (hs : Known pkg s) (hat : AtStep pkg s step index rest)
    (hwaits : ∀ i, ¬s.phase.Waits i) : Known pkg (failStep pkg s step index rest reason) :=
  known_drive hat.subset (hs.facts.fail hat.mem rfl rfl)
    (sent_emit (s := { s with dead := killed pkg step ++ s.dead }) hs.sent rfl
      fun i hi ↦ absurd hi (hwaits i))

theorem known_send {s : State} {step : ExitStep} {index : ℕ} {rest : List (ExitStep × ℕ)}
    (hs : Known pkg s) (hat : AtStep pkg s step index rest) (hwaits : ∀ i, ¬s.phase.Waits i) :
    Known pkg (send pkg feeWallet s step index rest) := by
  have hsent := hs.quiet hwaits
  cases step with
  | broadcast txid hex => exact ⟨hs.facts.congr (.refl _) rfl rfl, hsent _, trivial⟩
  | package parentTxid parentHex childHex forVtxos =>
    exact ⟨hs.facts.congr (.refl _) rfl rfl, hsent _, trivial⟩
  | bump parentTxid parentHex forVtxos =>
    unfold send
    dsimp only
    split
    · exact ⟨hs.facts.congr (.refl _) rfl rfl, hsent _, trivial⟩
    · exact known_failStep hs hat hwaits
  | sweep sweep => cases hat.1

theorem known_settle {s : State} {round : Round} {status : Status} {reason : Option String}
    (hs : Known pkg s) (hat : AtSweep pkg s round) (hwaits : ∀ i, ¬s.phase.Waits i)
    (hstatus : status = .confirmed ∧ s.network round.step.txid = .confirmed ∨ status = .failed) :
    Known pkg (round.settle pkg s status reason) := by
  have hmem := (mem_pending.mp hat.2.1).1
  have hsent := hs.quiet hwaits fun _ ↦ False
  obtain ⟨rfl, hconfirmed⟩ | rfl := hstatus
  · refine known_nextSweep (hs.facts.emit rfl ?_) (sent_emit hsent rfl fun _ ↦ False.elim)
    rintro i ⟨⟩ other hother
    cases hmem.symm.trans hother
    exact .inl hconfirmed
  · exact known_nextSweep (hs.facts.fail hmem rfl rfl) (sent_emit hsent rfl fun _ ↦ False.elim)

theorem known_skip {s : State} {round : Round} (hs : Known pkg s) (hwaits : ∀ i, ¬s.phase.Waits i) :
    Known pkg (round.skip pkg s) :=
  known_nextSweep hs.facts (hs.quiet hwaits _)

theorem known_moves {s t : State} {input : Input} (hinv : Inv pkg s) (hs : Known pkg s)
    (htruthful : Truthful s input) (h : Moves pkg feeWallet s input t) : Known pkg t := by
  have hphase := hinv.phase
  have hquiet : ∀ {phase : Phase}, s.phase = phase → (∀ i, ¬phase.Waits i) →
      ∀ i, ¬s.phase.Waits i := by
    rintro _ rfl h
    exact h
  have hasked : ∀ {status txid}, input = .status (some status) → status.confirmed = true →
      s.phase.asks? = some txid → s.network txid = .confirmed := by
    rintro status txid rfl hconfirmed hasks
    exact htruthful hconfirmed txid hasks
  cases h with
  | skip hp hconfirmed =>
    rw [hp] at hphase
    refine known_settled hs hphase (.inl (hasked rfl hconfirmed ?_)) rfl rfl rfl ?_
    · rw [hp]
      rfl
    · exact fun i hi ↦ absurd hi (hquiet hp (fun _ ↦ id) i)
  | known hp _ =>
    have hsent := hs.quiet (hquiet hp fun _ ↦ id)
    exact ⟨hs.facts.congr (.refl _) rfl rfl, hsent _, trivial⟩
  | send hp =>
    rw [hp] at hphase
    exact known_send hs hphase (hquiet hp fun _ ↦ id)
  | @confirm step index rest status hp hconfirmed =>
    rw [hp] at hphase
    refine known_settled hs hphase (.inl (hasked rfl hconfirmed ?_)) rfl rfl rfl ?_
    · rw [hp]
      rfl
    · rw [hp]
      exact fun _ ↦ id
  | poll => exact hs
  | swept hp hconfirmed =>
    rw [hp] at hphase
    refine known_settle hs hphase (hquiet hp fun _ ↦ id) (.inl ⟨rfl, hasked rfl hconfirmed ?_⟩)
    rw [hp]
    rfl
  | askDep hp =>
    exact ⟨hs.facts.congr (.refl _) rfl rfl, hs.quiet (hquiet hp fun _ ↦ id) _, trivial⟩
  | askTip hp hconfirmed =>
    refine ⟨hs.facts.congr (.refl _) rfl rfl, hs.quiet (hquiet hp fun _ ↦ id) _,
      hasked rfl hconfirmed ?_⟩
    rw [hp]
    rfl
  | pass hp =>
    obtain hp | hp := hp
    · exact known_skip hs (hquiet hp fun _ ↦ id)
    · exact known_skip hs (hquiet hp fun _ ↦ id)
  | bumped hp =>
    exact ⟨hs.facts.congr (.refl _) rfl rfl, hs.quiet (hquiet hp fun _ ↦ id) _, trivial⟩
  | unbumped hp =>
    rw [hp] at hphase
    exact known_failStep hs hphase (hquiet hp fun _ ↦ id)
  | @sent step index rest hexes hp =>
    have hsent := hs.quiet (hquiet hp fun _ ↦ id)
    have hentered : Facts pkg (s.enter step.anchorTxid) :=
      hs.facts.congr (grows_entered _ _) rfl rfl
    have hnoted := hentered.note (stepEvent step index .broadcast none) rfl rfl
    refine ⟨hnoted.congr (.refl _) rfl rfl, fun i hi ↦ ?_, trivial⟩
    obtain rfl | hi := List.mem_cons.mp hi
    · exact .inr (.inl rfl)
    · exact hsent _ i hi
  | refused hp =>
    rw [hp] at hphase
    exact known_failStep hs hphase (hquiet hp fun _ ↦ id)
  | @sweep round dep tip hp =>
    rw [hp] at hphase
    have hsent := hs.quiet (hquiet hp fun _ ↦ id)
    have hentered : Facts pkg (s.enter round.step.txid) :=
      hs.facts.congr (grows_entered _ _) rfl rfl
    refine known_nextSweep (hentered.note _ rfl rfl) fun i hi ↦ ?_
    obtain rfl | hi := List.mem_cons.mp hi
    · exact .inr (.inr ⟨_, (mem_pending.mp hphase.2.1).1⟩)
    · exact hsent (fun _ ↦ False) i hi
  | early hp => exact known_skip hs (hquiet hp fun _ ↦ id)
  | unswept hp =>
    rw [hp] at hphase
    exact known_settle hs hphase (hquiet hp fun _ ↦ id) (.inr rfl)
  | mature hp hmature =>
    have htold : Told s.network _ := hp ▸ hs.told
    exact ⟨hs.facts.congr (.refl _) rfl rfl, hs.quiet (hquiet hp fun _ ↦ id) _, htold, hmature⟩
  | wait hp =>
    unfold Round.announce
    split
    · exact known_skip hs (hquiet hp fun _ ↦ id)
    · exact known_nextSweep (hs.facts.note _ rfl rfl)
        (sent_emit (hs.quiet (hquiet hp fun _ ↦ id) _) rfl fun _ ↦ False.elim)
  | wake hp =>
    exact known_nextSweep hs.facts (hs.quiet (hquiet hp fun _ ↦ id) _)
  | throw => exact ⟨hs.facts.congr (.refl _) rfl rfl, fun i _ ↦ .inr (.inl trivial), trivial⟩
  | enters => exact hs.grows rfl rfl rfl (grows_entered _ _)
  | confirms hmempool =>
    exact hs.grows rfl rfl rfl (grows_update (by simp [hmempool]) (by decide))

theorem known_start (now : ℤ) (network : String → TxState) : Known pkg (start pkg now network) := by
  have hverdicts : verdicts (warnings pkg now) = [] := filterMap_warnings (fun _ ↦ rfl) now
  have hfailures : failures (warnings pkg now) = [] := filterMap_warnings (fun _ ↦ rfl) now
  have hsent : broadcasts (warnings pkg now) = [] := filterMap_warnings (fun _ ↦ rfl) now
  refine known_drive (List.Subset.refl _) ⟨?_, ?_⟩ ?_
  · simp [hverdicts]
  · simp [hfailures]
  · simp [Sent, hsent]

theorem passed_earlier {s : State} (hs : Known pkg s) {step : ExitStep} {index : ℕ}
    {rest : List (ExitStep × ℕ)} (hat : AtStep pkg s step index rest) {i : ℕ} (hi : i < index)
    {earlier : ExitStep} (hearlier : pkg.steps[i]? = some earlier)
    (hsweep : earlier.sweep? = none) : Passed s earlier i := by
  obtain ⟨-, -, passed, hsplit, hsettled⟩ := hat
  refine hs.facts.passed i ((hsettled i).mpr ?_) earlier hearlier
  have hsorted : (pkg.indexed.map (·.2)).Pairwise (· < ·) := by
    have h : pkg.indexed.map (·.2) = List.range' 0 pkg.steps.length := List.zipIdx_map_snd _ _
    rw [h]
    exact List.pairwise_lt_range'
  rw [hsplit, List.map_append, List.map_cons, List.pairwise_append, List.pairwise_cons] at hsorted
  have hmem : (earlier, i) ∈ passed ++ (step, index) :: rest := hsplit ▸ mem_indexed.mpr hearlier
  obtain hmem | hmem := List.mem_append.mp hmem
  · exact List.mem_map.mpr ⟨_, List.mem_filter.mpr ⟨hmem, by simp [hsweep]⟩, rfl⟩
  · obtain he | hmem := List.mem_cons.mp hmem
    · cases he
      exact absurd hi (Nat.lt_irrefl _)
    · exact absurd hi (Nat.lt_asymm (hsorted.2.1.1 i (List.mem_map_of_mem hmem)))

/-- While the explorer calls nothing confirmed that is not, and no block is undone, no transaction
is broadcast before those that it needs. -/
theorem execution_ordered {now : ℤ} {network : String → TxState} {s : State}
    (h : Run (step pkg feeWallet) Truthful (start pkg now network) s) : Ordered pkg s := by
  obtain ⟨hinv, hs⟩ : Inv pkg s ∧ Known pkg s :=
    h.invariant (P := fun s ↦ Inv pkg s ∧ Known pkg s)
      (fun _ _ _ hs htruthful hstep ↦ ⟨inv_moves hs.1 (moves_of_step hstep),
        known_moves hs.1 hs.2 htruthful (moves_of_step hstep)⟩)
      ⟨inv_start now network, known_start now network⟩
  refine ⟨hs.facts.lost, ?_, ?_⟩
  · intro step index rest hexes hphase
    have hat : AtStep pkg s step index rest := by
      have h := hinv.phase
      rwa [hphase] at h
    refine ⟨hat.mem, hat.2.1, ?_, fun i hi earlier hearlier ↦ passed_earlier hs hat hi hearlier⟩
    intro hsent
    obtain hverdict | hwaits | ⟨sweep, hsweep⟩ := hs.sent index hsent
    · obtain ⟨-, -, passed, hsplit, hsettled⟩ := hat
      exact new_index hsplit hsettled hverdict
    · rw [hphase] at hwaits
      exact hwaits
    · cases hat.mem.symm.trans hsweep
      cases hat.1
  · intro round dep tip hphase
    have hat : AtSweep pkg s round := by
      have h := hinv.phase
      rwa [hphase] at h
    have htold : Told s.network (.sweepSending round dep tip) := hphase ▸ hs.told
    obtain ⟨hstep, halive⟩ := mem_pending.mp hat.2.1
    refine ⟨hstep, halive, htold.1, htold.2, fun i earlier hearlier hsweep ↦ ?_⟩
    exact hs.facts.passed i ((hat.1.settled i).mpr
      (.inl (mem_loopIndices.mpr ⟨earlier, hearlier, hsweep⟩))) earlier hearlier

def truthfulCheck (s : State) : Input → Bool
  | .status (some status) =>
    !status.confirmed || s.phase.asks?.all fun txid ↦ s.network txid = .confirmed
  | _ => true

theorem truthful_of_check (s : State) (input : Input) (h : truthfulCheck s input = true) :
    Truthful s input := by
  cases input with
  | status answer =>
    cases answer with
    | none => trivial
    | some status =>
      intro hconfirmed txid hasks
      simpa [truthfulCheck, hconfirmed, hasks] using h
  | _ => trivial

/-- The small package up to its sweep. -/
def smallInputs : List Input :=
  [.status none, .sent (.ok ()), .confirms "splitter", .status (some ⟨true, some 90, none⟩),
    .status none, .sent (.ok ()), .confirms "leaf", .status (some ⟨true, some 100, none⟩),
    .status none, .status (some ⟨true, some 100, none⟩), .tip (.ok ⟨110, 0⟩)]

theorem small_ordered : ∃ s, broadcasts s.events = [1, 0] ∧ (∃ round dep tip,
    s.phase = .sweepSending round dep tip) ∧ Ordered smallPackage s := by
  have hrun : ∃ s, Run (step smallPackage false) Truthful
      (start smallPackage 0 fun _ ↦ .unknown) s ∧ broadcasts s.events = [1, 0] ∧
      ∃ round dep tip, s.phase = .sweepSending round dep tip :=
    ⟨_, @run_of_exec _ _ _ _ _ _ smallInputs rfl (along_of_check truthful_of_check rfl), rfl, _, _,
      _, rfl⟩
  obtain ⟨s, hrun, hbroadcasts, hphase⟩ := hrun
  exact ⟨s, hbroadcasts, hphase, execution_ordered hrun⟩

end Order

end ArkadeSdk.Exit.Executor
