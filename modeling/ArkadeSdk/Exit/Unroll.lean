import ArkadeSdk.Exit.Dag
import ArkadeSdk.Lib.LabelledRun
import Mathlib.Algebra.Order.BigOperators.Group.List

/-! The session that brings a virtual output onchain. It looks up the transactions of the output's
chain, the nearest to the commitment first, waits for one that is in the mempool and broadcasts the
first one that is not found. -/

namespace ArkadeSdk.Exit.Unroll

open LabelledRun

/-- What the network has of a transaction. -/
inductive TxState
  | unknown
  | mempool
  | confirmed
  deriving DecidableEq

/-- A step of the session that has been executed. -/
inductive Step
  | unroll (txid : String)
  | wait (txid : String)
  | done
  deriving DecidableEq

/-- What the session is waiting for: a lookup with the rest of the chain to look up after it, the
data and the fee child of a transaction, a broadcast, or a confirmation. -/
inductive Phase
  | looking (tx : ChainTx) (rest : List ChainTx)
  | preparing (tx : ChainTx)
  | unrolling (tx : ChainTx)
  | waiting (txid : String)
  | finished
  | failed

/-- The newest step is the head. -/
structure State where
  network : String → TxState
  phase : Phase
  steps : List Step

/-- Answers to the session, and what happens on the network, which evicts nothing and undoes no
block. A lookup that throws is `none`, any other one says whether the transaction is confirmed. -/
inductive Input
  | status (answer : Option Bool)
  | prepared (ok : Bool)
  | broadcast (accepted : Bool)
  | polled (answer : Option Bool)
  | enters (txid : String)
  | confirms (txid : String)

/-- The network once a transaction has been sent to it. -/
def entered (network : String → TxState) (txid : String) : String → TxState :=
  if network txid = .unknown then Function.update network txid .mempool else network

/-- The next transaction to look up. Commitments are onchain. -/
def nextVirtual : List ChainTx → Option (ChainTx × List ChainTx)
  | [] => none
  | tx :: rest => if isCommitment tx.type then nextVirtual rest else some (tx, rest)

namespace State

def goOn (s : State) (rest : List ChainTx) : State :=
  match nextVirtual rest with
  | some (tx, rest) => { s with phase := .looking tx rest }
  | none => { s with phase := .finished, steps := .done :: s.steps }

def record (s : State) (step : Step) : State := { s with steps := step :: s.steps }

def enter (s : State) (txid : String) : State := { s with network := entered s.network txid }

end State

variable (chain : List ChainTx)

/-- `next`: from the end of the chain to its beginning. -/
def next (s : State) : State := s.goOn chain.reverse

def start (network : String → TxState) : State := next chain ⟨network, .finished, []⟩

def step (s : State) : Input → Option State
  | .status answer => match s.phase with
    | .looking tx rest => match answer with
      | none => some { s with phase := .preparing tx }
      | some false => some { s with phase := .waiting tx.txid }
      | some true => some (s.goOn rest)
    | _ => none
  | .prepared ok => match s.phase with
    | .preparing tx => some { s with phase := if ok then .unrolling tx else .failed }
    | _ => none
  | .broadcast accepted => match s.phase with
    | .unrolling tx =>
      if accepted then some (next chain ((s.enter tx.txid).record (.unroll tx.txid)))
      else some { s with phase := .failed }
    | _ => none
  | .polled answer => match s.phase with
    | .waiting txid => match answer with
      | none => some { s with phase := .failed }
      | some false => some s
      | some true => some (next chain (s.record (.wait txid)))
    | _ => none
  | .enters txid => some (s.enter txid)
  | .confirms txid =>
    if s.network txid = .mempool then
      some { s with network := Function.update s.network txid .confirmed }
    else none

/-- The transactions that have to go onchain, the nearest to the commitment first. -/
def virtuals : List ChainTx := chain.reverse.filter fun tx ↦ !isCommitment tx.type

def TxState.answer : TxState → Option Bool
  | .unknown => none
  | .mempool => some false
  | .confirmed => some true

/-- The explorer answers with what the network has. -/
def Truthful (s : State) : Input → Prop
  | .status answer => ∀ tx rest, s.phase = .looking tx rest → answer = (s.network tx.txid).answer
  | .polled answer => ∀ txid, s.phase = .waiting txid → answer = (s.network txid).answer
  | _ => True

def Step.unrolled? : Step → Option String
  | .unroll txid => some txid
  | _ => none

/-- The broadcast transactions, the first one first. -/
def State.unrolled (s : State) : List String := s.steps.reverse.filterMap Step.unrolled?

/-- Parents go first, no step is made twice, and at the end everything is confirmed. -/
structure Orderly (s : State) : Prop where
  parents : ∀ tx, s.phase = .unrolling tx → ∃ before after,
    virtuals chain = before ++ tx :: after ∧ ∀ parent ∈ before, s.network parent.txid = .confirmed
  unrolled : s.unrolled.Sublist ((virtuals chain).map (·.txid))
  steps : s.steps.Nodup
  bounded : s.steps.length ≤ 2 * (virtuals chain).length + 1
  finished : s.phase = .finished → ∀ tx ∈ virtuals chain, s.network tx.txid = .confirmed

/-- What is known stays known, and what is confirmed stays so. -/
structure Grows (w w' : String → TxState) : Prop where
  known : ∀ txid, w txid ≠ .unknown → w' txid ≠ .unknown
  confirmed : ∀ txid, w txid = .confirmed → w' txid = .confirmed

theorem Grows.refl (w : String → TxState) : Grows w w := ⟨fun _ ↦ id, fun _ ↦ id⟩

theorem grows_update {w : String → TxState} {txid : String} {state : TxState}
    (hne : w txid ≠ .confirmed) (hstate : state ≠ .unknown) :
    Grows w (Function.update w txid state) := by
  constructor
  · intro other h
    by_cases he : other = txid
    · subst he
      rwa [Function.update_self]
    · rwa [Function.update_of_ne he]
  · intro other h
    have he : other ≠ txid := by
      rintro rfl
      exact hne h
    rwa [Function.update_of_ne he]

theorem grows_entered (w : String → TxState) (txid : String) : Grows w (entered w txid) := by
  unfold entered
  split
  · next h => exact grows_update (by simp [h]) (by decide)
  · exact .refl w

theorem entered_self (w : String → TxState) (txid : String) : entered w txid txid ≠ .unknown := by
  unfold entered
  split
  · rw [Function.update_self]
    decide
  · next h => exact h

theorem takeWhile_prefix_of_imp {α : Type} {p q : α → Bool}
    (h : ∀ a, p a = true → q a = true) (l : List α) : l.takeWhile p <+: l.takeWhile q := by
  induction l with
  | nil => exact List.prefix_refl _
  | cons a l ih =>
    cases hp : p a with
    | false =>
      rw [List.takeWhile_cons_of_neg (by simp [hp])]
      exact List.nil_prefix
    | true =>
      rw [List.takeWhile_cons_of_pos hp, List.takeWhile_cons_of_pos (h a hp)]
      exact (List.prefix_cons_inj a).mpr ih

variable {chain}

def knownPart (chain : List ChainTx) (w : String → TxState) : List String :=
  ((virtuals chain).takeWhile fun tx ↦ w tx.txid ≠ .unknown).map (·.txid)

theorem Grows.knownPart {w w' : String → TxState} (h : Grows w w') :
    Unroll.knownPart chain w <+: Unroll.knownPart chain w' := by
  refine (takeWhile_prefix_of_imp (fun tx htx ↦ ?_) _).map _
  exact decide_eq_true (h.known tx.txid (of_decide_eq_true htx))

/-- Everything before the transaction is confirmed. -/
def Reached (chain : List ChainTx) (w : String → TxState) (before : List ChainTx) (tx : ChainTx)
    (after : List ChainTx) : Prop :=
  virtuals chain = before ++ tx :: after ∧ ∀ parent ∈ before, w parent.txid = .confirmed

theorem Reached.grows {w w' : String → TxState} {before after : List ChainTx} {tx : ChainTx}
    (h : Reached chain w before tx after) (hg : Grows w w') : Reached chain w' before tx after :=
  ⟨h.1, fun parent hparent ↦ hg.confirmed _ (h.2 parent hparent)⟩

/-- The transaction is broadcast after those before it and for the first time. -/
def Due (chain : List ChainTx) (w : String → TxState) (unrolled : List String) (tx : ChainTx) :
    Prop :=
  ∃ before after, Reached chain w before tx after ∧ unrolled.Sublist (before.map (·.txid)) ∧
    tx.txid ∉ unrolled

def PhaseInv (chain : List ChainTx) (w : String → TxState) (steps : List Step)
    (unrolled : List String) : Phase → Prop
  | .looking tx rest => .done ∉ steps ∧
    ∃ before, Reached chain w before tx (rest.filter fun tx ↦ !isCommitment tx.type)
  | .preparing tx => .done ∉ steps ∧ Due chain w unrolled tx
  | .unrolling tx => .done ∉ steps ∧ Due chain w unrolled tx
  | .waiting txid => .done ∉ steps ∧ .wait txid ∉ steps ∧
    txid ∈ (virtuals chain).map (·.txid) ∧ w txid ≠ .unknown
  | .finished => ∀ tx ∈ virtuals chain, w tx.txid = .confirmed
  | .failed => True

theorem PhaseInv.grows {w w' : String → TxState} {steps : List Step} {unrolled : List String}
    (hg : Grows w w') {phase : Phase} (h : PhaseInv chain w steps unrolled phase) :
    PhaseInv chain w' steps unrolled phase := by
  cases phase with
  | looking tx rest => exact ⟨h.1, h.2.imp fun before hb ↦ hb.grows hg⟩
  | preparing tx =>
    obtain ⟨hd, before, after, hr, hrest⟩ := h
    exact ⟨hd, before, after, hr.grows hg, hrest⟩
  | unrolling tx =>
    obtain ⟨hd, before, after, hr, hrest⟩ := h
    exact ⟨hd, before, after, hr.grows hg, hrest⟩
  | waiting txid =>
    obtain ⟨hd, hnew, hmem, hknown⟩ := h
    exact ⟨hd, hnew, hmem, hg.known _ hknown⟩
  | finished => exact fun tx htx ↦ hg.confirmed _ (h tx htx)
  | failed => trivial

structure StepsInv (chain : List ChainTx) (w : String → TxState) (steps : List Step) : Prop where
  nodup : steps.Nodup
  unroll : ∀ txid, .unroll txid ∈ steps → txid ∈ (virtuals chain).map (·.txid)
  wait : ∀ txid, .wait txid ∈ steps → txid ∈ (virtuals chain).map (·.txid) ∧ w txid = .confirmed

theorem StepsInv.grows {w w' : String → TxState} {steps : List Step} (hg : Grows w w')
    (h : StepsInv chain w steps) : StepsInv chain w' steps :=
  ⟨h.nodup, h.unroll, fun txid ht ↦ ⟨(h.wait txid ht).1, hg.confirmed _ (h.wait txid ht).2⟩⟩

structure Inv (chain : List ChainTx) (s : State) : Prop where
  phase : PhaseInv chain s.network s.steps s.unrolled s.phase
  steps : StepsInv chain s.network s.steps
  unrolled : s.unrolled.Sublist (knownPart chain s.network)

theorem Inv.grows {s : State} {w : String → TxState} (h : Inv chain s) (hg : Grows s.network w) :
    Inv chain { s with network := w } :=
  ⟨h.phase.grows hg, h.steps.grows hg, h.unrolled.trans hg.knownPart.sublist⟩

theorem filter_nextVirtual (rest : List ChainTx) :
    (rest.filter fun tx ↦ !isCommitment tx.type) = match nextVirtual rest with
      | some (tx, rest) => tx :: rest.filter fun tx ↦ !isCommitment tx.type
      | none => [] := by
  induction rest with
  | nil => rfl
  | cons tx rest ih =>
    cases htx : isCommitment tx.type with
    | true => simpa [nextVirtual, htx] using ih
    | false => simp [nextVirtual, htx]

theorem unrolled_record (s : State) (step : Step) :
    (s.record step).unrolled = s.unrolled ++ step.unrolled?.toList := by
  cases step <;> simp [State.unrolled, State.record, Step.unrolled?]

theorem inv_goOn {s : State} (before : List ChainTx) {rest : List ChainTx}
    (hsteps : StepsInv chain s.network s.steps)
    (hunrolled : s.unrolled.Sublist (knownPart chain s.network)) (hdone : .done ∉ s.steps)
    (hsplit : virtuals chain = before ++ rest.filter fun tx ↦ !isCommitment tx.type)
    (hbefore : ∀ tx ∈ before, s.network tx.txid = .confirmed) : Inv chain (s.goOn rest) := by
  rw [filter_nextVirtual] at hsplit
  unfold State.goOn
  cases hnext : nextVirtual rest with
  | some next =>
    rw [hnext] at hsplit
    exact ⟨⟨hdone, before, hsplit, hbefore⟩, hsteps, hunrolled⟩
  | none =>
    rw [hnext, List.append_nil] at hsplit
    refine ⟨fun tx htx ↦ hbefore tx (hsplit ▸ htx), ⟨?_, ?_, ?_⟩, ?_⟩
    · exact List.nodup_cons.mpr ⟨hdone, hsteps.nodup⟩
    · intro txid h
      exact hsteps.unroll txid (by simpa using h)
    · intro txid h
      exact hsteps.wait txid (by simpa using h)
    · have hsame : (s.record .done).unrolled = s.unrolled := by
        rw [unrolled_record]
        exact List.append_nil _
      exact hsame ▸ hunrolled

theorem inv_next {s : State} (hsteps : StepsInv chain s.network s.steps)
    (hunrolled : s.unrolled.Sublist (knownPart chain s.network)) (hdone : .done ∉ s.steps) :
    Inv chain (next chain s) :=
  inv_goOn [] hsteps hunrolled hdone rfl (by simp)

theorem inv_start (network : String → TxState) : Inv chain (start chain network) := by
  refine inv_next ⟨List.nodup_nil, ?_, ?_⟩ (List.nil_sublist _) List.not_mem_nil
  · intro txid h
    cases h
  · intro txid h
    cases h

theorem mem_unrolled {s : State} {txid : String} : txid ∈ s.unrolled ↔ .unroll txid ∈ s.steps := by
  simp only [State.unrolled, List.mem_filterMap, List.mem_reverse]
  constructor
  · rintro ⟨step, hstep, h⟩
    cases step with
    | unroll other =>
      cases h
      exact hstep
    | wait _ => cases h
    | done => cases h
  · intro h
    exact ⟨_, h, rfl⟩

theorem due_of_unknown {s : State} {before after : List ChainTx} {tx : ChainTx}
    (hunrolled : s.unrolled.Sublist (knownPart chain s.network))
    (hreached : Reached chain s.network before tx after) (htx : s.network tx.txid = .unknown) :
    Due chain s.network s.unrolled tx := by
  have hpart : knownPart chain s.network = before.map (·.txid) := by
    unfold knownPart
    rw [hreached.1, List.takeWhile_append_of_pos, List.takeWhile_cons_of_neg (by simp [htx]),
      List.append_nil]
    intro parent hparent
    simp [hreached.2 parent hparent]
  rw [hpart] at hunrolled
  refine ⟨before, after, hreached, hunrolled, fun hmem ↦ ?_⟩
  obtain ⟨parent, hparent, he⟩ := List.mem_map.mp (hunrolled.subset hmem)
  have hconfirmed := hreached.2 parent hparent
  rw [he, htx] at hconfirmed
  cases hconfirmed

theorem inv_status {s t : State} {answer : Option Bool} (hs : Inv chain s)
    (htruthful : Truthful s (.status answer)) (h : step chain s (.status answer) = some t) :
    Inv chain t := by
  simp only [step] at h
  cases hphase : s.phase with
  | looking tx rest =>
    obtain ⟨hdone, before, hreached⟩ : PhaseInv chain s.network s.steps s.unrolled _ :=
      hphase ▸ hs.phase
    have hanswer := htruthful tx rest hphase
    rw [hphase] at h
    cases hstate : s.network tx.txid with
    | unknown =>
      rw [hanswer, hstate] at h
      cases h
      exact ⟨⟨hdone, due_of_unknown hs.unrolled hreached hstate⟩, hs.steps, hs.unrolled⟩
    | mempool =>
      rw [hanswer, hstate] at h
      cases h
      refine ⟨⟨hdone, fun hwait ↦ ?_, ?_, by simp [hstate]⟩, hs.steps, hs.unrolled⟩
      · have hconfirmed := (hs.steps.wait _ hwait).2
        rw [hstate] at hconfirmed
        cases hconfirmed
      · exact List.mem_map_of_mem (hreached.1 ▸ List.mem_append_right _ List.mem_cons_self)
    | confirmed =>
      rw [hanswer, hstate] at h
      cases h
      refine inv_goOn (before ++ [tx]) hs.steps hs.unrolled hdone ?_ ?_
      · rw [hreached.1, List.append_assoc]
        rfl
      · intro parent hparent
        obtain hparent | rfl := by simpa using hparent
        · exact hreached.2 parent hparent
        · exact hstate
  | _ => simp [hphase] at h

theorem inv_broadcast {s t : State} {accepted : Bool} (hs : Inv chain s)
    (h : step chain s (.broadcast accepted) = some t) : Inv chain t := by
  simp only [step] at h
  cases hphase : s.phase with
  | unrolling tx =>
    obtain ⟨hdone, before, after, hreached, hsublist, hnew⟩ :
      PhaseInv chain s.network s.steps s.unrolled _ := hphase ▸ hs.phase
    simp only [hphase] at h
    split at h
    · cases h
      have hgrows := grows_entered s.network tx.txid
      have hreached' := hreached.grows hgrows
      have hmem : tx ∈ virtuals chain := hreached.1 ▸ List.mem_append_right _ List.mem_cons_self
      refine inv_next ⟨?_, ?_, ?_⟩ ?_ ?_
      · exact List.nodup_cons.mpr ⟨fun hu ↦ hnew (mem_unrolled.mpr hu), hs.steps.nodup⟩
      · intro txid hu
        obtain hu | hu := List.mem_cons.mp hu
        · cases hu
          exact List.mem_map_of_mem hmem
        · exact hs.steps.unroll txid hu
      · intro txid hu
        obtain hu | hu := List.mem_cons.mp hu
        · cases hu
        · exact (hs.steps.grows hgrows).wait txid hu
      · have hpart : (before ++ [tx]).map (·.txid) <+:
            knownPart chain (entered s.network tx.txid) := by
          unfold knownPart
          have hknown := entered_self s.network tx.txid
          rw [hreached.1, List.takeWhile_append_of_pos, List.takeWhile_cons_of_pos (by simpa)]
          · exact List.IsPrefix.map _ ⟨_, (List.append_cons _ _ _).symm⟩
          · intro parent hparent
            simp [hreached'.2 parent hparent]
        rw [List.map_append] at hpart
        refine List.Sublist.trans ?_ hpart.sublist
        rw [unrolled_record]
        exact hsublist.append (.refl _)
      · intro hd
        obtain hd | hd := List.mem_cons.mp hd
        · cases hd
        · exact hdone hd
    · cases h
      exact ⟨trivial, hs.steps, hs.unrolled⟩
  | _ => simp [hphase] at h

theorem inv_polled {s t : State} {answer : Option Bool} (hs : Inv chain s)
    (htruthful : Truthful s (.polled answer)) (h : step chain s (.polled answer) = some t) :
    Inv chain t := by
  simp only [step] at h
  cases hphase : s.phase with
  | waiting txid =>
    obtain ⟨hdone, hnew, hmem, -⟩ : PhaseInv chain s.network s.steps s.unrolled _ :=
      hphase ▸ hs.phase
    have hanswer := htruthful txid hphase
    rw [hphase] at h
    cases hstate : s.network txid with
    | unknown =>
      rw [hanswer, hstate] at h
      cases h
      exact ⟨trivial, hs.steps, hs.unrolled⟩
    | mempool =>
      rw [hanswer, hstate] at h
      cases h
      exact hs
    | confirmed =>
      rw [hanswer, hstate] at h
      cases h
      refine inv_next ⟨?_, ?_, ?_⟩ ?_ ?_
      · exact List.nodup_cons.mpr ⟨hnew, hs.steps.nodup⟩
      · intro other hu
        exact hs.steps.unroll other (by simpa [State.record] using hu)
      · intro other hu
        obtain hu | hu := List.mem_cons.mp hu
        · cases hu
          exact ⟨hmem, hstate⟩
        · exact hs.steps.wait other hu
      · rw [unrolled_record]
        exact (List.append_nil _).symm ▸ hs.unrolled
      · intro hd
        obtain hd | hd := List.mem_cons.mp hd
        · cases hd
        · exact hdone hd
  | _ => simp [hphase] at h

theorem inv_step {s t : State} {input : Input} (hs : Inv chain s) (htruthful : Truthful s input)
    (h : step chain s input = some t) : Inv chain t := by
  cases input with
  | status answer => exact inv_status hs htruthful h
  | prepared ok =>
    simp only [step] at h
    cases hphase : s.phase with
    | preparing tx =>
      have hdue : PhaseInv chain s.network s.steps s.unrolled _ := hphase ▸ hs.phase
      rw [hphase] at h
      cases h
      cases ok with
      | true => exact ⟨hdue, hs.steps, hs.unrolled⟩
      | false => exact ⟨trivial, hs.steps, hs.unrolled⟩
    | _ => simp [hphase] at h
  | broadcast accepted => exact inv_broadcast hs h
  | polled answer => exact inv_polled hs htruthful h
  | enters txid =>
    cases h
    exact hs.grows (grows_entered s.network txid)
  | confirms txid =>
    simp only [step] at h
    split at h
    · next hmempool =>
      cases h
      exact hs.grows (grows_update (by simp [hmempool]) (by decide))
    · cases h

theorem StepsInv.length_le {w : String → TxState} {steps : List Step}
    (h : StepsInv chain w steps) : steps.length ≤ 2 * (virtuals chain).length + 1 := by
  have hsub : steps ⊆ .done :: ((virtuals chain).map (Step.unroll ·.txid) ++
      (virtuals chain).map (Step.wait ·.txid)) := by
    intro step hstep
    cases step with
    | unroll txid =>
      obtain ⟨tx, htx, rfl⟩ := List.mem_map.mp (h.unroll txid hstep)
      exact List.mem_cons_of_mem _ (List.mem_append_left _ (List.mem_map.mpr ⟨tx, htx, rfl⟩))
    | wait txid =>
      obtain ⟨tx, htx, rfl⟩ := List.mem_map.mp (h.wait txid hstep).1
      exact List.mem_cons_of_mem _ (List.mem_append_right _ (List.mem_map.mpr ⟨tx, htx, rfl⟩))
    | done => exact List.mem_cons_self
  have hle := (h.nodup.subperm hsub).length_le
  simp only [List.length_cons, List.length_append, List.length_map] at hle
  omega

/-- Whatever enters the network or confirms and whatever the session is refused, a truthful explorer
has it broadcast each transaction of the chain at most once and after those before it are confirmed,
and end with all of them confirmed. -/
theorem session_orderly {network : String → TxState} {s : State}
    (h : Run (step chain) Truthful (start chain network) s) : Orderly chain s := by
  have hinv : Inv chain s :=
    h.invariant (fun _ _ _ hs htruthful hstep ↦ inv_step hs htruthful hstep) (inv_start network)
  refine ⟨?_, ?_, hinv.steps.nodup, hinv.steps.length_le, ?_⟩
  · intro tx hphase
    obtain ⟨-, before, after, hreached, -⟩ : PhaseInv chain s.network s.steps s.unrolled _ :=
      hphase ▸ hinv.phase
    exact ⟨before, after, hreached⟩
  · exact hinv.unrolled.trans ((List.takeWhile_sublist _).map _)
  · intro hphase
    have hfinished : PhaseInv chain s.network s.steps s.unrolled .finished := hphase ▸ hinv.phase
    exact hfinished

def mempoolChain : List ChainTx :=
  [⟨"child", "0", .ark, ["parent"]⟩, ⟨"parent", "0", .tree, ["root"]⟩,
    ⟨"root", "0", .commitment, []⟩]

def mempoolNetwork (txid : String) : TxState := if txid = "parent" then .mempool else .unknown

def mempoolInputs : List Input :=
  [.status (some false), .confirms "parent", .polled (some true), .status (some true),
    .status none, .prepared true]

theorem mempool_run : ∃ s, Run (step mempoolChain) Truthful (start mempoolChain mempoolNetwork) s ∧
    s.phase = .unrolling ⟨"child", "0", .ark, ["parent"]⟩ ∧ s.steps = [.wait "parent"] := by
  refine ⟨_, @run_of_exec _ _ _ _ _ _ mempoolInputs rfl ?_, rfl, rfl⟩
  refine ⟨?_, fun s₁ h₁ ↦ ⟨trivial, fun s₂ h₂ ↦ ⟨?_, fun s₃ h₃ ↦ ⟨?_, fun s₄ h₄ ↦ ⟨?_,
    fun s₅ h₅ ↦ ⟨trivial, fun s₆ h₆ ↦ trivial⟩⟩⟩⟩⟩⟩
  · rintro _ _ ⟨⟩
    rfl
  · obtain rfl := Option.some.inj h₁
    obtain rfl := Option.some.inj h₂
    rintro _ ⟨⟩
    rfl
  · obtain rfl := Option.some.inj h₁
    obtain rfl := Option.some.inj h₂
    obtain rfl := Option.some.inj h₃
    rintro _ _ ⟨⟩
    rfl
  · obtain rfl := Option.some.inj h₁
    obtain rfl := Option.some.inj h₂
    obtain rfl := Option.some.inj h₃
    obtain rfl := Option.some.inj h₄
    rintro _ _ ⟨⟩
    rfl

theorem mempool_orderly : ∃ s, s.phase = .unrolling ⟨"child", "0", .ark, ["parent"]⟩ ∧
    Orderly mempoolChain s := by
  obtain ⟨s, hrun, hphase, -⟩ := mempool_run
  exact ⟨s, hphase, session_orderly hrun⟩

/-- Nothing that the session asks for is refused, and the explorer is truthful. -/
def Cooperative (s : State) (input : Input) : Prop :=
  Truthful s input ∧ input ≠ .prepared false ∧ input ≠ .broadcast false

theorem cooperative_prepared (s : State) : Cooperative s (.prepared true) :=
  ⟨trivial, by simp, by simp⟩

theorem cooperative_broadcast (s : State) : Cooperative s (.broadcast true) :=
  ⟨trivial, by simp, by simp⟩

theorem cooperative_confirms (s : State) (txid : String) : Cooperative s (.confirms txid) :=
  ⟨trivial, by simp, by simp⟩

theorem cooperative_enters (s : State) (txid : String) : Cooperative s (.enters txid) :=
  ⟨trivial, by simp, by simp⟩

def Finishes (chain : List ChainTx) (s : State) : Prop :=
  ∃ t, Run (step chain) Cooperative s t ∧ t.phase = .finished

theorem Finishes.step {s t : State} {input : Input} (hok : Cooperative s input)
    (hstep : step chain s input = some t) (h : Finishes chain t) : Finishes chain s := by
  obtain ⟨u, hrun, hu⟩ := h
  exact ⟨u, (Run.tail (.refl s) hok hstep).trans hrun, hu⟩

/-- How far a transaction is from its confirmation. -/
def TxState.weight : TxState → ℕ
  | .unknown => 2
  | .mempool => 1
  | .confirmed => 0

def left (chain : List ChainTx) (w : String → TxState) : ℕ :=
  ((virtuals chain).map fun tx ↦ (w tx.txid).weight).sum

theorem left_update {w : String → TxState} {txid : String} {state : TxState}
    (hmem : txid ∈ (virtuals chain).map (·.txid)) (h : state.weight < (w txid).weight) :
    left chain (Function.update w txid state) < left chain w := by
  obtain ⟨tx, htx, rfl⟩ := List.mem_map.mp hmem
  refine List.sum_lt_sum _ _ (fun other _ ↦ ?_) ⟨tx, htx, ?_⟩
  · by_cases he : other.txid = tx.txid
    · rw [he, Function.update_self]
      exact h.le
    · rw [Function.update_of_ne he]
  · rwa [Function.update_self]

theorem goOn_cases (s : State) (rest : List ChainTx) :
    (s.goOn rest).phase = .finished ∨ ∃ tx rest', (s.goOn rest).phase = .looking tx rest' ∧
      rest'.length < rest.length ∧ (s.goOn rest).network = s.network := by
  have hshorter : ∀ {rest : List ChainTx} {tx rest'}, nextVirtual rest = some (tx, rest') →
      rest'.length < rest.length := by
    intro rest
    induction rest with
    | nil =>
      intro tx rest' h
      cases h
    | cons head rest ih =>
      intro tx rest' h
      unfold nextVirtual at h
      split at h
      · have := ih h
        rw [List.length_cons]
        omega
      · cases h
        exact Nat.lt_succ_self _
  unfold State.goOn
  cases h : nextVirtual rest with
  | none => exact .inl rfl
  | some found => exact .inr ⟨found.1, found.2, rfl, hshorter h, rfl⟩

theorem goOn_network (s : State) (rest : List ChainTx) : (s.goOn rest).network = s.network := by
  unfold State.goOn
  cases nextVirtual rest <;> rfl

theorem finished_finishes {s : State} (h : s.phase = .finished) : Finishes chain s :=
  ⟨s, .refl s, h⟩

/-- The session is at a transaction that has to go onchain. -/
def Phase.Within (chain : List ChainTx) : Phase → Prop
  | .looking tx rest => tx ∈ virtuals chain ∧ rest ⊆ chain
  | .preparing tx => tx ∈ virtuals chain
  | .unrolling tx => tx ∈ virtuals chain
  | _ => True

def State.Within (chain : List ChainTx) (s : State) : Prop := s.phase.Within chain

theorem nextVirtual_within {rest : List ChainTx} (h : rest ⊆ chain) {found : ChainTx × List ChainTx}
    (hnext : nextVirtual rest = some found) : (Phase.looking found.1 found.2).Within chain := by
  induction rest with
  | nil => cases hnext
  | cons tx rest ih =>
    obtain ⟨htx, hrest⟩ := List.cons_subset.mp h
    unfold nextVirtual at hnext
    split at hnext
    · exact ih hrest hnext
    · next hvirtual =>
      cases hnext
      refine ⟨List.mem_filter.mpr ⟨List.mem_reverse.mpr htx, ?_⟩, hrest⟩
      rwa [Bool.not_eq_true, ← Bool.not_eq_true'] at hvirtual

theorem within_goOn (s : State) {rest : List ChainTx} (h : rest ⊆ chain) :
    (s.goOn rest).Within chain := by
  unfold State.goOn
  cases hnext : nextVirtual rest with
  | none => trivial
  | some found => exact nextVirtual_within h hnext

theorem within_next (s : State) : (next chain s).Within chain :=
  within_goOn s (List.reverse_subset.mpr (List.Subset.refl _))

theorem within_step {s t : State} {input : Input} (hs : s.Within chain)
    (h : step chain s input = some t) : t.Within chain := by
  unfold State.Within at hs
  cases input with
  | status answer =>
    simp only [step] at h
    cases hphase : s.phase with
    | looking tx rest =>
      rw [hphase] at h hs
      obtain _ | _ | _ := answer <;> cases h
      · exact hs.1
      · trivial
      · exact within_goOn s hs.2
    | _ => simp [hphase] at h
  | prepared ok =>
    simp only [step] at h
    cases hphase : s.phase with
    | preparing tx =>
      rw [hphase] at h hs
      cases h
      cases ok with
      | true => exact hs
      | false => trivial
    | _ => simp [hphase] at h
  | broadcast accepted =>
    simp only [step] at h
    cases hphase : s.phase with
    | unrolling tx =>
      simp only [hphase] at h
      split at h <;> cases h
      · exact within_next _
      · trivial
    | _ => simp [hphase] at h
  | polled answer =>
    simp only [step] at h
    cases hphase : s.phase with
    | waiting txid =>
      rw [hphase] at h
      obtain _ | _ | _ := answer <;> cases h
      · trivial
      · exact hs
      · exact within_next _
    | _ => simp [hphase] at h
  | enters txid =>
    cases h
    exact hs
  | confirms txid =>
    simp only [step] at h
    split at h <;> cases h
    exact hs

/-- A lookup leads on, to a state that has less left or a shorter rest to look up. -/
theorem looking_finishes {s : State} {tx : ChainTx} {rest : List ChainTx}
    (hphase : s.phase = .looking tx rest) (hs : s.Within chain)
    (hless : ∀ t : State, left chain (next chain t).network < left chain s.network →
      Finishes chain (next chain t))
    (hshorter : rest ⊆ chain → Finishes chain (s.goOn rest)) : Finishes chain s := by
  unfold State.Within at hs
  rw [hphase] at hs
  have hmem : tx.txid ∈ (virtuals chain).map (·.txid) := List.mem_map_of_mem hs.1
  have htruthful : Truthful s (.status (s.network tx.txid).answer) := by
    intro tx' rest' h
    rw [hphase] at h
    cases h
    rfl
  have hcooperative : Cooperative s (.status (s.network tx.txid).answer) :=
    ⟨htruthful, by simp, by simp⟩
  cases hstate : s.network tx.txid with
  | unknown =>
    rw [hstate] at hcooperative
    have h₁ : step chain s (.status none) = some { s with phase := .preparing tx } := by
      simp only [step, hphase]
    have h₂ : step chain { s with phase := .preparing tx } (.prepared true) =
      some { s with phase := .unrolling tx } := rfl
    let sent := (State.enter { s with phase := .unrolling tx } tx.txid).record (.unroll tx.txid)
    have h₃ : step chain { s with phase := .unrolling tx } (.broadcast true) =
      some (next chain sent) := rfl
    refine .step hcooperative h₁ (.step (cooperative_prepared _) h₂
      (.step (cooperative_broadcast _) h₃ (hless sent ?_)))
    have hnetwork : (next chain sent).network = Function.update s.network tx.txid .mempool := by
      rw [next, goOn_network]
      simp only [sent, State.record, State.enter, entered, hstate, if_true]
    rw [hnetwork]
    exact left_update hmem (by simp [hstate, TxState.weight])
  | mempool =>
    rw [hstate] at hcooperative
    have h₁ : step chain s (.status (some false)) = some { s with phase := .waiting tx.txid } := by
      simp only [step, hphase]
    let confirmed : State :=
      ⟨Function.update s.network tx.txid .confirmed, .waiting tx.txid, s.steps⟩
    have h₂ : step chain { s with phase := .waiting tx.txid } (.confirms tx.txid) =
        some confirmed := by
      simp only [step, hstate, if_true, confirmed]
    have h₃ : step chain confirmed (.polled (some true)) =
      some (next chain (confirmed.record (.wait tx.txid))) := rfl
    have htruthful₃ : Truthful confirmed (.polled (some true)) := by
      intro txid h
      cases h
      simp [confirmed, TxState.answer]
    refine .step hcooperative h₁ (.step (cooperative_confirms _ _) h₂
      (.step ⟨htruthful₃, by simp, by simp⟩ h₃ (hless _ ?_)))
    rw [next, goOn_network]
    exact left_update hmem (by simp [hstate, TxState.weight])
  | confirmed =>
    rw [hstate] at hcooperative
    have h₁ : step chain s (.status (some true)) = some (s.goOn rest) := by
      simp only [step, hphase]
    exact .step hcooperative h₁ (hshorter hs.2)

/-- What is left decreases with each step of the session, the rest with each confirmed lookup. -/
theorem goOn_finishes (n : ℕ) : ∀ k (s : State) rest, left chain s.network = n → rest.length = k →
    rest ⊆ chain → Finishes chain (s.goOn rest) := by
  induction n using Nat.strong_induction_on with
  | h n ihn =>
    intro k
    induction k using Nat.strong_induction_on with
    | h k ihk =>
      intro s rest hleft hlength hrest
      obtain hfinished | ⟨tx, rest', hlooking, hlt, hnetwork⟩ := goOn_cases s rest
      · exact finished_finishes hfinished
      refine looking_finishes hlooking (within_goOn s hrest) (fun t hlt ↦ ?_) fun hrest' ↦ ?_
      · have hsame : (next chain t).network = t.network := goOn_network t chain.reverse
        rw [hsame, hnetwork, hleft] at hlt
        exact ihn _ hlt _ t chain.reverse rfl rfl (List.reverse_subset.mpr (List.Subset.refl _))
      · exact ihk _ (hlength ▸ hlt) _ rest' (hnetwork ▸ hleft) rfl hrest'

theorem next_finishes (s : State) : Finishes chain (next chain s) :=
  goOn_finishes _ _ s chain.reverse rfl rfl (List.reverse_subset.mpr (List.Subset.refl _))

theorem unrolling_finishes {s : State} {tx : ChainTx} (hphase : s.phase = .unrolling tx) :
    Finishes chain s := by
  have hstep : step chain s (.broadcast true) = some (next chain ((s.enter tx.txid).record
      (.unroll tx.txid))) := by
    simp only [step, hphase, if_true]
  exact .step (cooperative_broadcast s) hstep (next_finishes _)

theorem confirmed_finishes {s : State} {txid : String} (hphase : s.phase = .waiting txid)
    (hconfirmed : s.network txid = .confirmed) : Finishes chain s := by
  have hstep : step chain s (.polled (some true)) =
      some (next chain (s.record (.wait txid))) := by
    simp only [step, hphase]
  have htruthful : Truthful s (.polled (some true)) := by
    intro other h
    rw [hphase] at h
    cases h
    rw [hconfirmed]
    rfl
  exact .step ⟨htruthful, by simp, by simp⟩ hstep (next_finishes _)

theorem mempool_wait_finishes {s : State} {txid : String} (hphase : s.phase = .waiting txid)
    (hmempool : s.network txid = .mempool) : Finishes chain s := by
  have hstep : step chain s (.confirms txid) =
      some { s with network := Function.update s.network txid .confirmed } := by
    simp only [step, hmempool, if_true]
  exact .step (cooperative_confirms s txid) hstep
    (confirmed_finishes hphase (Function.update_self _ _ _))

/-- From wherever a session has come to without an error, whatever its explorer answered on the way,
it finishes once nothing is refused any more and the answers are true. -/
theorem session_finishes {network : String → TxState} {s : State}
    (h : Run (step chain) (fun _ _ ↦ True) (start chain network) s) (hphase : s.phase ≠ .failed) :
    Finishes chain s := by
  have hs : s.Within chain :=
    h.invariant (fun _ _ _ hs _ hstep ↦ within_step hs hstep) (within_next _)
  cases hp : s.phase with
  | looking tx rest =>
    refine looking_finishes hp hs (fun t _ ↦ next_finishes t) fun hrest ↦ ?_
    exact goOn_finishes _ _ s rest rfl rfl hrest
  | preparing tx =>
    have hstep : step chain s (.prepared true) = some { s with phase := .unrolling tx } := by
      simp only [step, hp, if_true]
    exact .step (cooperative_prepared s) hstep (unrolling_finishes rfl)
  | unrolling tx => exact unrolling_finishes hp
  | waiting txid =>
    cases hstate : s.network txid with
    | unknown =>
      have hstep : step chain s (.enters txid) = some (s.enter txid) := rfl
      refine .step (cooperative_enters s txid) hstep (mempool_wait_finishes hp ?_)
      simp [State.enter, entered, hstate]
    | mempool => exact mempool_wait_finishes hp hstate
    | confirmed => exact confirmed_finishes hp hstate
  | finished => exact finished_finishes hp
  | failed => exact absurd hp hphase

theorem mempool_finishes : ∃ s, s.phase = .unrolling ⟨"child", "0", .ark, ["parent"]⟩ ∧
    Finishes mempoolChain s := by
  obtain ⟨s, hrun, hphase, -⟩ := mempool_run
  have hany : Run (step mempoolChain) (fun _ _ ↦ True) (start mempoolChain mempoolNetwork) s :=
    hrun.mono fun _ _ _ ↦ trivial
  exact ⟨s, hphase, session_finishes hany (by simp [hphase])⟩

end ArkadeSdk.Exit.Unroll
