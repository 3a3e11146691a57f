import ArkadeSdk.Wallet.Renewal

/-! When no two passes hold virtual inputs at once, and the flag covers the one that does. -/

namespace ArkadeSdk.Renewal

open JsNumber LabelledRun

def Phase.virtualInputs : Phase → List VirtualCoin
  | .renewRefresh _ vtxos | .renewReselect _ vtxos | .renewInfo _ vtxos | .renewRotate _ vtxos
  | .renewAddress _ vtxos | .renewSettle vtxos _ _ => vtxos
  | .pollRefresh _ _ vtxos | .pollReselect _ _ vtxos | .pollInfo _ _ vtxos
  | .pollRotate _ _ vtxos _ | .pollAddress _ _ vtxos _ | .pollSettle _ vtxos _ _ => vtxos
  | _ => []

def Phase.settling : Phase → List VirtualCoin
  | .renewSettle vtxos _ _ | .pollSettle _ vtxos _ _ => vtxos
  | _ => []

/-- At most one pass is between selecting its virtual inputs and the end of its settle call. -/
def Exclusive (s : State) : Prop :=
  ∀ (i j : ℕ) (p q : Phase), s.tasks[i]? = some p → s.tasks[j]? = some q →
    p.virtualInputs ≠ [] → q.virtualInputs ≠ [] → i = j

/-- No virtual output is an input of two settle calls that are open at once. -/
def SpentOnce (s : State) : Prop :=
  ∀ (i j : ℕ) (p q : Phase), s.tasks[i]? = some p → s.tasks[j]? = some q →
    ∀ v ∈ p.settling, ∀ w ∈ q.settling, v.outpoint = w.outpoint → i = j

/-- The flag is down only when no pass holds virtual inputs. -/
def Covered (s : State) : Prop :=
  s.renewalInProgress = false → ∀ p ∈ s.tasks, p.virtualInputs = []

theorem Phase.virtualInputs_of_settling {p : Phase} {v : VirtualCoin} (h : v ∈ p.settling) :
    p.virtualInputs ≠ [] := by
  cases p with
  | renewSettle vtxos address amount => exact List.ne_nil_of_mem h
  | pollSettle boarding vtxos address amount => exact List.ne_nil_of_mem h
  | _ => cases h

theorem Exclusive.spentOnce {s : State} (h : Exclusive s) : SpentOnce s :=
  fun i j p q hp hq _ hv _ hw _ ↦ h i j p q hp hq (Phase.virtualInputs_of_settling hv)
    (Phase.virtualInputs_of_settling hw)

/-- How a pass stands to the flag: a renewal, a poll without virtual inputs, one that may hold some
before it raises the flag, and one that has raised it. -/
inductive Kind
  | renewing
  | guarded
  | unguarded
  | settling
  | ended
  deriving DecidableEq

def Phase.kind : Phase → Kind
  | .renewTip | .renewSelect _ | .renewRefresh _ _ | .renewReselect _ _ | .renewInfo _ _
  | .renewRotate _ _ | .renewAddress _ _ | .renewSettle _ _ _ => .renewing
  | .pollBoarding | .pollChainTip _ | .pollRest => .guarded
  | .pollTip _ | .pollSelect _ _ => .unguarded
  | .pollRefresh _ _ vtxos | .pollReselect _ _ vtxos | .pollInfo _ _ vtxos
  | .pollRotate _ _ vtxos _ | .pollAddress _ _ vtxos _ =>
    if vtxos = [] then .guarded else .unguarded
  | .pollSettle _ vtxos _ _ => if vtxos = [] then .guarded else .settling
  | .ended => .ended

theorem Phase.virtualInputs_of_kind {p : Phase} (h : p.kind = .settling) :
    p.virtualInputs ≠ [] := by
  intro hnil
  cases p with
  | pollRefresh _ _ vtxos | pollReselect _ _ vtxos | pollInfo _ _ vtxos | pollRotate _ _ vtxos _
  | pollAddress _ _ vtxos _ | pollSettle _ vtxos _ _ =>
    obtain rfl : vtxos = [] := hnil
    cases h
  | _ => cases h

theorem Phase.eq_ended {p : Phase} (h : p.kind = .ended) : p = .ended := by
  cases p with
  | ended => rfl
  | pollRefresh _ _ vtxos | pollReselect _ _ vtxos | pollInfo _ _ vtxos | pollRotate _ _ vtxos _
  | pollAddress _ _ vtxos _ | pollSettle _ vtxos _ _ =>
    have h : (if vtxos = [] then Kind.guarded else _) = Kind.ended := h
    split at h <;> cases h
  | _ => cases h

/-- What holds virtual inputs is a renewal, or a poll before or behind the flag. -/
theorem Phase.kind_of_virtualInputs {p : Phase} (h : p.virtualInputs ≠ []) :
    p.kind = .renewing ∨ p.kind = .unguarded ∨ p.kind = .settling := by
  cases p with
  | pollRefresh _ _ vtxos | pollReselect _ _ vtxos | pollInfo _ _ vtxos | pollRotate _ _ vtxos _
  | pollAddress _ _ vtxos _ => exact .inr (.inl (if_neg h))
  | pollSettle _ vtxos _ _ => exact .inr (.inr (if_neg h))
  | renewRefresh | renewReselect | renewInfo | renewRotate | renewAddress | renewSettle =>
    exact .inl rfl
  | _ => exact absurd rfl h

/-- Which kind a pass can become, with the flag before and after. -/
inductive Move : Kind → Kind → Bool → Bool → Prop
  | renews (flag : Bool) : Move .renewing .renewing flag flag
  | renewed (flag : Bool) : Move .renewing .ended flag false
  | tests : Move .guarded .unguarded false false
  | waits (flag : Bool) : Move .guarded .guarded flag flag
  | holds (flag : Bool) : Move .unguarded .unguarded flag flag
  | drops (flag : Bool) : Move .unguarded .guarded flag flag
  | raises (flag : Bool) : Move .unguarded .settling flag true
  | settles (flag : Bool) : Move .settling .guarded flag false
  | ends (flag : Bool) : Move .guarded .ended flag flag

section Move

variable {a b : Kind} {flag flag' : Bool}

theorem Move.ofRenewing (h : Move a b flag flag') (ha : a = .renewing) :
    b = .renewing ∨ b = .ended := by
  cases h with
  | renews => exact .inl rfl
  | renewed => exact .inr rfl
  | _ => cases ha

theorem Move.renewing (h : Move a b flag flag') (hb : b = .renewing) : a = .renewing := by
  cases h with
  | renews => rfl
  | _ => cases hb

theorem Move.changes (h : Move a b flag flag') : flag' = flag ∨
    (a = .renewing ∧ b = .ended ∧ flag' = false) ∨
    (a = .unguarded ∧ b = .settling ∧ flag' = true) ∨
    (a = .settling ∧ b = .guarded ∧ flag' = false) := by
  cases h with
  | renewed => exact .inr (.inl ⟨rfl, rfl, rfl⟩)
  | raises => exact .inr (.inr (.inl ⟨rfl, rfl, rfl⟩))
  | settles => exact .inr (.inr (.inr ⟨rfl, rfl, rfl⟩))
  | _ => exact .inl rfl

/-- A poll raises the flag, or found it down, before it can hold virtual inputs. -/
theorem Move.unguarded (h : Move a b flag flag') (hb : b = .unguarded) :
    flag' = flag ∧ (a = .unguarded ∨ a = .guarded ∧ flag = false) := by
  cases h with
  | tests => exact ⟨rfl, .inr ⟨rfl, rfl⟩⟩
  | holds => exact ⟨rfl, .inl rfl⟩
  | _ => cases hb

theorem Move.settling (h : Move a b flag flag') (hb : b = .settling) :
    a = .unguarded ∧ flag' = true := by
  cases h with
  | raises => exact ⟨rfl, rfl⟩
  | _ => cases hb

def Kind.poll : Kind → Bool
  | .guarded | .unguarded | .settling => true
  | .renewing | .ended => false

theorem Move.poll (h : Move a b flag flag') (hb : b.poll = true) : a.poll = true := by
  cases h with
  | renews | renewed | ends => cases hb
  | _ => rfl

end Move

/-- The virtual outputs that a poll is told to be expiring. -/
def found : Phase → Answer → List VirtualCoin
  | .pollSelect _ _, .vtxos vtxos => vtxos
  | _, _ => []

/-- Pass `k` goes from one phase to another. A poll has no virtual inputs but the ones it found. -/
structure Moves (s s' : State) (k : ℕ) (found : List VirtualCoin) (p p' : Phase) : Prop where
  tasks : s'.tasks = s.tasks.set k p'
  kind : Move p.kind p'.kind s.renewalInProgress s'.renewalInProgress
  poll : s'.pollInProgress = s.pollInProgress ∨
    s'.pollInProgress = false ∧ p.kind = .guarded ∧ p'.kind = .ended
  inputs : p.kind ≠ .renewing → p.virtualInputs = [] → found = [] → p'.virtualInputs = []

section Moves

variable {manager : Manager} {s : State} {k : ℕ} {now : ℤ} {found : List VirtualCoin} {p : Phase}

theorem moves_enter {p' : Phase}
    (hkind : Move p.kind p'.kind s.renewalInProgress s.renewalInProgress)
    (hinputs : p.kind ≠ .renewing → p.virtualInputs = [] → found = [] → p'.virtualInputs = []) :
    Moves s (s.enter k p') k found p p' :=
  ⟨rfl, hkind, .inl rfl, hinputs⟩

theorem moves_endRenewal (h : p.kind = .renewing) :
    Moves s (s.endRenewal k now) k found p .ended :=
  ⟨rfl, h ▸ .renewed _, .inl rfl, fun hne ↦ absurd h hne⟩

theorem moves_renewing {p' : Phase} (h : p.kind = .renewing) (h' : p'.kind = .renewing) :
    Moves s (s.enter k p') k found p p' :=
  moves_enter (by rw [h, h']; exact .renews _) fun hne ↦ absurd h hne

theorem move_drop {flag : Bool} (h : p.kind = .guarded ∨ p.kind = .unguarded) :
    Move p.kind .guarded flag flag := by
  rcases h with h | h
  · exact h ▸ .waits flag
  · exact h ▸ .drops flag

theorem moves_endPeriodicSettle (h : p.kind = .guarded ∨ p.kind = .unguarded) :
    Moves s (s.endPeriodicSettle k) k found p .pollRest :=
  moves_enter (move_drop h) fun _ _ _ ↦ rfl

theorem move_keep {flag : Bool} {vtxos : List VirtualCoin}
    (h : p.kind = .unguarded ∨ p.kind = .guarded ∧ vtxos = []) :
    Move p.kind (if vtxos = [] then .guarded else .unguarded) flag flag := by
  split
  · rename_i hnil
    exact move_drop (h.symm.imp And.left id)
  · rename_i hne
    rcases h with h | ⟨-, hnil⟩
    · exact h ▸ .holds flag
    · exact absurd hnil hne

theorem moves_periodicCandidates {unsettled : List BoardingCoin} {tip : TimeHeight}
    {expiring : List VirtualCoin} (h : p.kind = .unguarded ∨ p.kind = .guarded ∧ expiring = [])
    (hinputs : p.virtualInputs = [] → found = [] → expiring = []) :
    ∃ p', Moves s (s.periodicCandidates k now unsettled tip expiring) k found p p' := by
  have hdrop : p.kind = .guarded ∨ p.kind = .unguarded := h.symm.imp And.left id
  unfold State.periodicCandidates
  split
  · exact ⟨_, moves_endPeriodicSettle hdrop⟩
  · split
    · exact ⟨_, moves_endPeriodicSettle hdrop⟩
    · exact ⟨_, moves_enter (move_keep h) fun _ hnil hfound ↦ hinputs hnil hfound⟩

theorem unguarded_or {vtxos : List VirtualCoin}
    (h : p.kind = if vtxos = [] then .guarded else .unguarded) :
    p.kind = .unguarded ∨ p.kind = .guarded ∧ vtxos = [] := by
  split at h
  · rename_i hnil
    exact .inr ⟨h, hnil⟩
  · exact .inl h

theorem guarded_or {vtxos : List VirtualCoin}
    (h : p.kind = if vtxos = [] then .guarded else .unguarded) :
    p.kind = .guarded ∨ p.kind = .unguarded :=
  (unguarded_or h).symm.imp And.left id

theorem byExpiryAscending_nil (now : TimeHeight) : byExpiryAscending [] now = [] := rfl

theorem moves_periodicInputs {info : ArkInfo} {unsettled : List BoardingCoin} {tip : TimeHeight}
    {expiring : List VirtualCoin} :
    ∃ p', Moves s (s.periodicInputs manager k info unsettled tip expiring) k found
      (.pollInfo unsettled tip expiring) p' := by
  unfold State.periodicInputs
  dsimp only
  generalize htaken : takeVtxos _ _ _ _ _ = taken
  obtain ⟨vtxos, totalAmount⟩ := taken
  have hnil : expiring = [] → vtxos = [] := by
    intro h
    rw [h, byExpiryAscending_nil] at htaken
    exact (Prod.mk.inj htaken).1.symm
  have hkeep := (unguarded_or (p := Phase.pollInfo unsettled tip expiring) rfl).imp_right
    (And.imp_right hnil)
  split
  · exact ⟨_, moves_endPeriodicSettle (guarded_or rfl)⟩
  · split
    · exact ⟨_, moves_enter (move_keep hkeep) fun _ h _ ↦ hnil h⟩
    · exact ⟨_, moves_enter (move_keep hkeep) fun _ h _ ↦ hnil h⟩

theorem moves_periodicSettle {estimator : Estimator} {boarding : List BoardingCoin}
    {vtxos : List VirtualCoin} {totalAmount : ℤ} {address : String} :
    ∃ p', Moves s (s.periodicSettle manager k estimator boarding vtxos totalAmount address) k found
      (.pollAddress estimator boarding vtxos totalAmount) p' := by
  unfold State.periodicSettle
  dsimp only
  by_cases hnil : vtxos = []
  · subst hnil
    split
    · exact ⟨_, moves_endPeriodicSettle (.inl rfl)⟩
    · exact ⟨_, rfl, .waits _, .inl rfl, fun _ _ _ ↦ rfl⟩
  · have hkind : (Phase.pollAddress estimator boarding vtxos totalAmount).kind = .unguarded :=
      if_neg hnil
    split
    · exact ⟨_, moves_endPeriodicSettle (.inr hkind)⟩
    · refine ⟨.pollSettle boarding vtxos address
        (deductOffchainOutputFee totalAmount estimator address), rfl, ?_, .inl rfl,
        fun _ h ↦ absurd h hnil⟩
      have hkind' : (Phase.pollSettle boarding vtxos address
          (deductOffchainOutputFee totalAmount estimator address)).kind = .settling := if_neg hnil
      rw [hkind, hkind']
      exact .raises _

theorem periodicSettled_spec (s : State) (k : ℕ) (now : ℤ) (boarding : List BoardingCoin)
    (vtxos : List VirtualCoin) (answer : Answer) :
    (s.periodicSettled k now boarding vtxos answer).tasks = s.tasks.set k .pollRest ∧
    (s.periodicSettled k now boarding vtxos answer).renewalInProgress =
      (if vtxos = [] then s.renewalInProgress else false) ∧
    (s.periodicSettled k now boarding vtxos answer).pollInProgress = s.pollInProgress := by
  unfold State.periodicSettled State.endPeriodicSettle State.enter
  by_cases hnil : vtxos = []
  · cases answer <;> simp [hnil]
  · cases answer <;> simp [hnil]

theorem moves_periodicSettled {boarding : List BoardingCoin} {vtxos : List VirtualCoin}
    {address : String} {amount : ℤ} {answer : Answer} :
    ∃ p', Moves s (s.periodicSettled k now boarding vtxos answer) k found
      (.pollSettle boarding vtxos address amount) p' := by
  obtain ⟨htasks, hflag, hpoll⟩ := periodicSettled_spec s k now boarding vtxos answer
  refine ⟨.pollRest, htasks, ?_, .inl hpoll, fun _ _ _ ↦ rfl⟩
  have hkind : (Phase.pollSettle boarding vtxos address amount).kind =
    if vtxos = [] then .guarded else .settling := rfl
  rw [hflag, hkind]
  split
  · exact .waits _
  · exact .settles _

theorem moves_periodicStart {boardingUtxos : List BoardingCoin} {chainTipHeight : Option ℤ}
    (h : p.kind = .guarded) :
    ∃ p', Moves s (s.periodicStart manager k now boardingUtxos chainTipHeight) k found p p' := by
  unfold State.periodicStart
  dsimp only
  split
  · exact moves_periodicCandidates (.inr ⟨h, rfl⟩) fun _ _ ↦ rfl
  · rename_i hflag
    have hdown : s.renewalInProgress = false := by simpa using hflag
    exact ⟨_, moves_enter (by rw [h, hdown]; exact .tests) fun _ _ _ ↦ rfl⟩

theorem among_nil {candidates refreshed : List VirtualCoin} (h : candidates = []) :
    among candidates refreshed = [] := by
  simp [among, h]

theorem moves_resume {s' : State} {answer : Answer}
    (h : s.resume manager k now p answer = some s') :
    ∃ p', Moves s s' k (Renewal.found p answer) p p' := by
  unfold State.resume at h
  cases p with
  | renewTip =>
    cases answer with
    | time tip =>
      obtain rfl := Option.some.inj h
      exact ⟨_, moves_renewing rfl rfl⟩
    | throws =>
      obtain rfl := Option.some.inj h
      exact ⟨_, moves_endRenewal rfl⟩
    | _ => cases h
  | renewSelect tip =>
    cases answer with
    | vtxos vtxos =>
      dsimp only at h
      split at h
      · obtain rfl := Option.some.inj h
        exact ⟨_, moves_endRenewal rfl⟩
      · obtain rfl := Option.some.inj h
        exact ⟨_, moves_renewing rfl rfl⟩
    | throws =>
      obtain rfl := Option.some.inj h
      exact ⟨_, moves_endRenewal rfl⟩
    | _ => cases h
  | renewRefresh tip candidates =>
    cases answer with
    | refreshed =>
      obtain rfl := Option.some.inj h
      exact ⟨_, moves_renewing rfl rfl⟩
    | throws =>
      obtain rfl := Option.some.inj h
      exact ⟨_, moves_renewing rfl rfl⟩
    | _ => cases h
  | renewReselect tip candidates =>
    cases answer with
    | vtxos refreshed =>
      dsimp only at h
      split at h
      · obtain rfl := Option.some.inj h
        exact ⟨_, moves_endRenewal rfl⟩
      · obtain rfl := Option.some.inj h
        exact ⟨_, moves_renewing rfl rfl⟩
    | throws =>
      obtain rfl := Option.some.inj h
      exact ⟨_, moves_renewing rfl rfl⟩
    | _ => cases h
  | renewInfo tip vtxos =>
    cases answer with
    | info info =>
      dsimp only at h
      split at h
      · obtain rfl := Option.some.inj h
        exact ⟨_, moves_endRenewal rfl⟩
      · split at h
        · obtain rfl := Option.some.inj h
          exact ⟨_, moves_renewing rfl rfl⟩
        · obtain rfl := Option.some.inj h
          exact ⟨_, moves_renewing rfl rfl⟩
    | throws =>
      obtain rfl := Option.some.inj h
      exact ⟨_, moves_endRenewal rfl⟩
    | _ => cases h
  | renewRotate estimator vtxos =>
    cases answer with
    | done =>
      obtain rfl := Option.some.inj h
      exact ⟨_, moves_renewing rfl rfl⟩
    | throws =>
      obtain rfl := Option.some.inj h
      exact ⟨_, moves_endRenewal rfl⟩
    | _ => cases h
  | renewAddress estimator vtxos =>
    cases answer with
    | address address =>
      dsimp only at h
      split at h
      · obtain rfl := Option.some.inj h
        exact ⟨_, moves_endRenewal rfl⟩
      · obtain rfl := Option.some.inj h
        exact ⟨_, moves_renewing rfl rfl⟩
    | throws =>
      obtain rfl := Option.some.inj h
      exact ⟨_, moves_endRenewal rfl⟩
    | _ => cases h
  | renewSettle vtxos address amount =>
    cases answer with
    | settled =>
      obtain rfl := Option.some.inj h
      exact ⟨_, moves_endRenewal rfl⟩
    | alreadySpent =>
      obtain rfl := Option.some.inj h
      exact ⟨_, moves_endRenewal rfl⟩
    | throws =>
      obtain rfl := Option.some.inj h
      exact ⟨_, moves_endRenewal rfl⟩
    | _ => cases h
  | pollBoarding =>
    cases answer with
    | boarding boardingUtxos =>
      dsimp only at h
      split at h
      · obtain rfl := Option.some.inj h
        exact ⟨_, moves_enter (.waits _) fun _ _ _ ↦ rfl⟩
      · obtain rfl := Option.some.inj h
        exact moves_periodicStart rfl
    | throws =>
      obtain rfl := Option.some.inj h
      exact ⟨_, rfl, .ends _, .inr ⟨rfl, rfl, rfl⟩, fun _ _ _ ↦ rfl⟩
    | _ => cases h
  | pollChainTip boardingUtxos =>
    cases answer with
    | chainTip height =>
      obtain rfl := Option.some.inj h
      exact moves_periodicStart rfl
    | throws =>
      obtain rfl := Option.some.inj h
      exact ⟨_, moves_endPeriodicSettle (.inl rfl)⟩
    | _ => cases h
  | pollTip unsettled =>
    cases answer with
    | time tip =>
      obtain rfl := Option.some.inj h
      exact ⟨_, moves_enter (.holds _) fun _ _ _ ↦ rfl⟩
    | throws =>
      obtain rfl := Option.some.inj h
      exact moves_periodicCandidates (.inl rfl) fun _ _ ↦ rfl
    | _ => cases h
  | pollSelect unsettled tip =>
    cases answer with
    | vtxos vtxos =>
      dsimp only at h
      split at h
      · obtain rfl := Option.some.inj h
        exact moves_periodicCandidates (.inl rfl) fun _ _ ↦ rfl
      · obtain rfl := Option.some.inj h
        exact ⟨_, moves_enter (move_keep (.inl rfl)) fun _ _ hfound ↦ hfound⟩
    | throws =>
      obtain rfl := Option.some.inj h
      exact moves_periodicCandidates (.inl rfl) fun _ _ ↦ rfl
    | _ => cases h
  | pollRefresh unsettled tip candidates =>
    cases answer with
    | refreshed =>
      obtain rfl := Option.some.inj h
      exact ⟨_, moves_enter (move_keep (unguarded_or rfl)) fun _ hnil _ ↦ hnil⟩
    | throws =>
      obtain rfl := Option.some.inj h
      exact moves_periodicCandidates (unguarded_or rfl) fun hnil _ ↦ hnil
    | _ => cases h
  | pollReselect unsettled tip candidates =>
    cases answer with
    | vtxos refreshed =>
      obtain rfl := Option.some.inj h
      exact moves_periodicCandidates ((unguarded_or rfl).imp_right (And.imp_right among_nil))
        fun hnil _ ↦ among_nil hnil
    | throws =>
      obtain rfl := Option.some.inj h
      exact moves_periodicCandidates (unguarded_or rfl) fun hnil _ ↦ hnil
    | _ => cases h
  | pollInfo unsettled tip expiring =>
    cases answer with
    | info info =>
      obtain rfl := Option.some.inj h
      exact moves_periodicInputs
    | throws =>
      obtain rfl := Option.some.inj h
      exact ⟨_, moves_endPeriodicSettle (guarded_or rfl)⟩
    | _ => cases h
  | pollRotate estimator boarding vtxos totalAmount =>
    cases answer with
    | done =>
      obtain rfl := Option.some.inj h
      exact ⟨_, moves_enter (move_keep (unguarded_or rfl)) fun _ hnil _ ↦ hnil⟩
    | throws =>
      obtain rfl := Option.some.inj h
      exact ⟨_, moves_endPeriodicSettle (guarded_or rfl)⟩
    | _ => cases h
  | pollAddress estimator boarding vtxos totalAmount =>
    cases answer with
    | address address =>
      obtain rfl := Option.some.inj h
      exact moves_periodicSettle
    | throws =>
      obtain rfl := Option.some.inj h
      exact ⟨_, moves_endPeriodicSettle (guarded_or rfl)⟩
    | _ => cases h
  | pollSettle boarding vtxos address amount =>
    cases answer with
    | settled =>
      obtain rfl := Option.some.inj h
      exact moves_periodicSettled
    | alreadySpent =>
      obtain rfl := Option.some.inj h
      exact moves_periodicSettled
    | throws =>
      obtain rfl := Option.some.inj h
      exact moves_periodicSettled
    | _ => cases h
  | pollRest =>
    cases answer with
    | done =>
      obtain rfl := Option.some.inj h
      exact ⟨_, rfl, .ends _, .inr ⟨rfl, rfl, rfl⟩, fun _ _ _ ↦ rfl⟩
    | throws =>
      obtain rfl := Option.some.inj h
      exact ⟨_, rfl, .ends _, .inr ⟨rfl, rfl, rfl⟩, fun _ _ _ ↦ rfl⟩
    | _ => cases h
  | ended => cases answer <;> cases h

end Moves

theorem step_cases {manager : Manager} {s s' : State} {input : Input × ℤ}
    (h : step manager s input = some s') :
    (∃ k answer p p', input.1 = .answer k answer ∧ s.tasks[k]? = some p ∧
      Moves s s' k (found p answer) p p') ∨
    (s.renewalInProgress = false ∧ input.1.renews = true ∧
      s' = { s with renewalInProgress := true }.spawn .renewTip) ∨
    (s.pollInProgress = false ∧ s' = { s with pollInProgress := true }.spawn .pollBoarding) ∨
    s' = s := by
  have hrenew (threshold : ThresholdSeconds) : s.renewVtxos threshold = s ∨
      s.renewalInProgress = false ∧
        s.renewVtxos threshold = { s with renewalInProgress := true }.spawn .renewTip := by
    unfold State.renewVtxos
    split
    · exact .inl rfl
    · rename_i hgo
      exact .inr ⟨by simp_all, rfl⟩
  obtain ⟨input, now⟩ := input
  cases input with
  | renewVtxos threshold =>
    obtain rfl := Option.some.inj h
    rcases hrenew threshold with heq | ⟨hflag, heq⟩
    · exact .inr (.inr (.inr heq))
    · exact .inr (.inl ⟨hflag, rfl, heq⟩)
  | vtxoReceived =>
    unfold step at h
    dsimp only at h
    split at h
    · obtain rfl := Option.some.inj h
      rcases hrenew .missing with heq | ⟨hflag, heq⟩
      · exact .inr (.inr (.inr heq))
      · exact .inr (.inl ⟨hflag, rfl, heq⟩)
    · exact .inr (.inr (.inr (Option.some.inj h).symm))
  | pollBoardingUtxos =>
    unfold step at h
    dsimp only at h
    split at h
    · exact .inr (.inr (.inr (Option.some.inj h).symm))
    · rename_i hidle
      exact .inr (.inr (.inl ⟨by simpa using hidle, (Option.some.inj h).symm⟩))
  | answer k answer =>
    unfold step at h
    dsimp only at h
    split at h
    · cases h
    · rename_i p hp
      obtain ⟨p', hmoves⟩ := moves_resume h
      exact .inl ⟨k, answer, p, p', rfl, hp, hmoves⟩

theorem Moves.getElem? {s s' : State} {k i : ℕ} {vtxos : List VirtualCoin} {p p' q : Phase}
    (h : Moves s s' k vtxos p p') (hq : s'.tasks[i]? = some q) :
    i = k ∧ q = p' ∨ i ≠ k ∧ s.tasks[i]? = some q := by
  rw [h.tasks, List.getElem?_set] at hq
  split at hq
  · rename_i hk
    split at hq
    · exact .inl ⟨hk.symm, (Option.some.inj hq).symm⟩
    · cases hq
  · rename_i hk
    exact .inr ⟨fun h ↦ hk h.symm, hq⟩

theorem getElem?_spawn {s : State} {i : ℕ} {p q : Phase} (h : (s.spawn p).tasks[i]? = some q) :
    s.tasks[i]? = some q ∨ i = s.tasks.length ∧ q = p := by
  rcases List.getElem?_append.symm.trans h |> fun h ↦ ite_eq_iff.mp h with ⟨-, h⟩ | ⟨hlen, h⟩
  · exact .inl h
  · rw [List.getElem?_singleton] at h
    split at h
    · exact .inr ⟨by omega, (Option.some.inj h).symm⟩
    · cases h

structure RenewsAlone (s : State) : Prop where
  one : ∀ (i j : ℕ) (p q : Phase), s.tasks[i]? = some p → s.tasks[j]? = some q →
    p.kind = .renewing → q.kind = .renewing → i = j
  up : ∀ (i : ℕ) (p : Phase), s.tasks[i]? = some p → p.kind = .renewing →
    s.renewalInProgress = true

theorem RenewsAlone.spawn {s : State} (h : RenewsAlone s) (hflag : s.renewalInProgress = false) :
    RenewsAlone ({ s with renewalInProgress := true }.spawn .renewTip) := by
  have hidle (i : ℕ) (p : Phase) (hp : s.tasks[i]? = some p) : p.kind ≠ .renewing := by
    intro hkind
    rw [h.up i p hp hkind] at hflag
    cases hflag
  refine ⟨?_, fun _ _ _ _ ↦ rfl⟩
  intro i j p q hp hq hpk hqk
  rcases getElem?_spawn hp with hp | ⟨rfl, -⟩
  · exact absurd hpk (hidle i p hp)
  · rcases getElem?_spawn hq with hq | ⟨rfl, -⟩
    · exact absurd hqk (hidle j q hq)
    · rfl

theorem RenewsAlone.spawnPoll {s : State} (h : RenewsAlone s) :
    RenewsAlone ({ s with pollInProgress := true }.spawn .pollBoarding) := by
  constructor
  · intro i j p q hp hq hpk hqk
    rcases getElem?_spawn hp with hp | ⟨-, rfl⟩
    · rcases getElem?_spawn hq with hq | ⟨-, rfl⟩
      · exact h.one i j p q hp hq hpk hqk
      · cases hqk
    · cases hpk
  · intro i p hp hpk
    rcases getElem?_spawn hp with hp | ⟨-, rfl⟩
    · exact h.up i p hp hpk
    · cases hpk

theorem RenewsAlone.moves {s s' : State} {k : ℕ} {vtxos : List VirtualCoin} {p p' : Phase}
    (h : RenewsAlone s) (hp : s.tasks[k]? = some p) (hmoves : Moves s s' k vtxos p p')
    (hsettles : p.kind = .settling → ∀ (i : ℕ) (q : Phase), s.tasks[i]? = some q →
      q.kind ≠ .renewing) : RenewsAlone s' := by
  have hback (i : ℕ) (q : Phase) (hq : s'.tasks[i]? = some q) (hqk : q.kind = .renewing) :
      ∃ r, s.tasks[i]? = some r ∧ r.kind = .renewing := by
    rcases hmoves.getElem? hq with ⟨rfl, rfl⟩ | ⟨-, hq⟩
    · exact ⟨p, hp, hmoves.kind.renewing hqk⟩
    · exact ⟨q, hq, hqk⟩
  constructor
  · intro i j q r hq hr hqk hrk
    obtain ⟨q', hq', hqk'⟩ := hback i q hq hqk
    obtain ⟨r', hr', hrk'⟩ := hback j r hr hrk
    exact h.one i j q' r' hq' hr' hqk' hrk'
  · intro i q hq hqk
    obtain ⟨q', hq', hqk'⟩ := hback i q hq hqk
    rcases hmoves.kind.changes with hsame | ⟨hpk, hpk', -⟩ | ⟨-, -, hup⟩ | ⟨hpk, -, -⟩
    · exact hsame.trans (h.up i q' hq' hqk')
    · obtain rfl := h.one i k q' p hq' hp hqk' hpk
      rcases hmoves.getElem? hq with ⟨-, rfl⟩ | ⟨hne, -⟩
      · rw [hpk'] at hqk
        cases hqk
      · exact absurd rfl hne
    · exact hup
    · exact absurd hqk' (hsettles hpk i q' hq')

/-- No poll finds a virtual output that is expiring. -/
def FindsNone (s : State) (input : Input × ℤ) : Prop :=
  ∀ (k : ℕ) (answer : Answer) (p : Phase), input.1 = .answer k answer → s.tasks[k]? = some p →
    found p answer = []

structure NoneFound (s : State) : Prop extends RenewsAlone s where
  polls : ∀ (i : ℕ) (p : Phase), s.tasks[i]? = some p → p.kind ≠ .renewing → p.virtualInputs = []

theorem noneFound_step {manager : Manager} {s s' : State} {input : Input × ℤ}
    (hinv : NoneFound s) (hfinds : FindsNone s input) (h : step manager s input = some s') :
    NoneFound s' := by
  rcases step_cases h with ⟨k, answer, p, p', hinput, hp, hmoves⟩ | ⟨hflag, -, rfl⟩ |
    ⟨-, rfl⟩ | rfl
  · refine ⟨hinv.toRenewsAlone.moves hp hmoves ?_, ?_⟩
    · intro hkind
      have hne : p.kind ≠ .renewing := fun h ↦ by rw [hkind] at h; cases h
      exact absurd (hinv.polls k p hp hne) (Phase.virtualInputs_of_kind hkind)
    · intro i q hq hqk
      rcases hmoves.getElem? hq with ⟨rfl, rfl⟩ | ⟨-, hq⟩
      · by_cases hpk : p.kind = .renewing
        · obtain hk | hk := hmoves.kind.ofRenewing hpk
          · exact absurd hk hqk
          · rw [Phase.eq_ended hk]
            rfl
        · exact hmoves.inputs hpk (hinv.polls i p hp hpk) (hfinds i answer p hinput hp)
      · exact hinv.polls i q hq hqk
  · refine ⟨hinv.toRenewsAlone.spawn hflag, ?_⟩
    intro i p hp hpk
    rcases getElem?_spawn hp with hp | ⟨-, rfl⟩
    · exact hinv.polls i p hp hpk
    · rfl
  · refine ⟨hinv.toRenewsAlone.spawnPoll, ?_⟩
    intro i p hp hpk
    rcases getElem?_spawn hp with hp | ⟨-, rfl⟩
    · exact hinv.polls i p hp hpk
    · rfl
  · exact hinv

theorem NoneFound.kind {s : State} (hinv : NoneFound s) {i : ℕ} {p : Phase}
    (hp : s.tasks[i]? = some p) (h : p.virtualInputs ≠ []) : p.kind = .renewing := by
  by_contra hkind
  exact h (hinv.polls i p hp hkind)

theorem NoneFound.exclusive {s : State} (hinv : NoneFound s) : Exclusive s :=
  fun i j p q hp hq hpi hqi ↦ hinv.one i j p q hp hq (hinv.kind hp hpi) (hinv.kind hq hqi)

theorem NoneFound.covered {s : State} (hinv : NoneFound s) : Covered s := by
  intro hflag p hp
  obtain ⟨i, hi⟩ := List.mem_iff_getElem?.mp hp
  by_contra hne
  rw [hinv.up i p hi (hinv.kind hi hne)] at hflag
  cases hflag

theorem noneFound_initial : NoneFound initial where
  one := fun _ _ _ _ hp ↦ by cases hp
  up := fun _ _ hp ↦ by cases hp
  polls := fun _ _ hp ↦ by cases hp

/-- No renewal is asked for while a poll is between its look at the flag and raising it. -/
def NotBetween (s : State) (input : Input × ℤ) : Prop :=
  input.1.renews = true → ∀ p ∈ s.tasks, p.kind ≠ .unguarded

structure Apart (s : State) : Prop extends RenewsAlone s where
  poll : ∀ (i j : ℕ) (p q : Phase), s.tasks[i]? = some p → s.tasks[j]? = some q →
    p.kind.poll = true → q.kind.poll = true → i = j
  polling : ∀ (i : ℕ) (p : Phase), s.tasks[i]? = some p → p.kind.poll = true →
    s.pollInProgress = true
  down : ∀ (i : ℕ) (p : Phase), s.tasks[i]? = some p → p.kind = .unguarded →
    s.renewalInProgress = false
  raised : ∀ (i : ℕ) (p : Phase), s.tasks[i]? = some p → p.kind = .settling →
    s.renewalInProgress = true ∧
      ∀ (j : ℕ) (q : Phase), s.tasks[j]? = some q → q.kind ≠ .renewing

theorem Apart.moves {s s' : State} {k : ℕ} {vtxos : List VirtualCoin} {p p' : Phase}
    (hinv : Apart s) (hp : s.tasks[k]? = some p) (hmoves : Moves s s' k vtxos p p') :
    Apart s' := by
  have hback (i : ℕ) (q : Phase) (hq : s'.tasks[i]? = some q) (hqk : q.kind.poll = true) :
      ∃ r, s.tasks[i]? = some r ∧ r.kind.poll = true := by
    rcases hmoves.getElem? hq with ⟨rfl, rfl⟩ | ⟨-, hq⟩
    · exact ⟨p, hp, hmoves.kind.poll hqk⟩
    · exact ⟨q, hq, hqk⟩
  -- the poll that is there is the one that moves, where that is a poll
  have honly (i : ℕ) (q : Phase) (hi : i ≠ k) (hq : s.tasks[i]? = some q)
      (hpk : p.kind.poll = true) : q.kind.poll = false := by
    by_contra hqk
    exact hi (hinv.poll i k q p hq hp (by simpa using hqk) hpk)
  refine ⟨hinv.toRenewsAlone.moves hp hmoves fun hpk ↦ (hinv.raised k p hp hpk).2, ?_, ?_, ?_, ?_⟩
  · intro i j q r hq hr hqk hrk
    obtain ⟨q', hq', hqk'⟩ := hback i q hq hqk
    obtain ⟨r', hr', hrk'⟩ := hback j r hr hrk
    exact hinv.poll i j q' r' hq' hr' hqk' hrk'
  · intro i q hq hqk
    obtain ⟨q', hq', hqk'⟩ := hback i q hq hqk
    rcases hmoves.poll with hsame | ⟨-, hpk, hpk'⟩
    · exact hsame.trans (hinv.polling i q' hq' hqk')
    · rcases hmoves.getElem? hq with ⟨rfl, rfl⟩ | ⟨hi, hq⟩
      · rw [hpk'] at hqk
        cases hqk
      · rw [honly i q hi hq (by rw [hpk]; rfl)] at hqk
        cases hqk
  · intro i q hq hqk
    rcases hmoves.getElem? hq with ⟨rfl, rfl⟩ | ⟨hi, hq⟩
    · obtain ⟨hflag, hpk | ⟨-, hdown⟩⟩ := hmoves.kind.unguarded hqk
      · exact hflag.trans (hinv.down i p hp hpk)
      · exact hflag.trans hdown
    · have hdown := hinv.down i q hq hqk
      rcases hmoves.kind.changes with hsame | ⟨-, -, hfalse⟩ | ⟨hpk, -, -⟩ | ⟨-, -, hfalse⟩
      · exact hsame.trans hdown
      · exact hfalse
      · have hnone := honly i q hi hq (by rw [hpk]; rfl)
        rw [hqk] at hnone
        cases hnone
      · exact hfalse
  · intro i q hq hqk
    have hrenewing (hno : ∀ (j : ℕ) (r : Phase), s.tasks[j]? = some r → r.kind ≠ .renewing) :
        ∀ (j : ℕ) (r : Phase), s'.tasks[j]? = some r → r.kind ≠ .renewing := by
      intro j r hr hrk
      rcases hmoves.getElem? hr with ⟨rfl, rfl⟩ | ⟨-, hr⟩
      · exact hno j p hp (hmoves.kind.renewing hrk)
      · exact hno j r hr hrk
    rcases hmoves.getElem? hq with ⟨rfl, rfl⟩ | ⟨hi, hq⟩
    · obtain ⟨hpk, hup⟩ := hmoves.kind.settling hqk
      refine ⟨hup, hrenewing ?_⟩
      intro j r hr hrk
      have hdown := hinv.down i p hp hpk
      rw [hinv.up j r hr hrk] at hdown
      cases hdown
    · obtain ⟨hup, hno⟩ := hinv.raised i q hq hqk
      refine ⟨?_, hrenewing hno⟩
      rcases hmoves.kind.changes with hsame | ⟨hpk, -, -⟩ | ⟨-, -, htrue⟩ | ⟨hpk, -, -⟩
      · exact hsame.trans hup
      · exact absurd hpk (hno k p hp)
      · exact htrue
      · have hnone := honly i q hi hq (by rw [hpk]; rfl)
        rw [hqk] at hnone
        cases hnone

theorem Apart.spawn {s : State} (hinv : Apart s) (hflag : s.renewalInProgress = false)
    (hnot : ∀ p ∈ s.tasks, p.kind ≠ .unguarded) :
    Apart ({ s with renewalInProgress := true }.spawn .renewTip) := by
  have hold (i : ℕ) (q : Phase) (hqk : q.kind.poll = true)
      (hq : (State.spawn { s with renewalInProgress := true } .renewTip).tasks[i]? = some q) :
      s.tasks[i]? = some q := by
    rcases getElem?_spawn hq with hq | ⟨-, rfl⟩
    · exact hq
    · cases hqk
  refine ⟨hinv.toRenewsAlone.spawn hflag, ?_, ?_, ?_, ?_⟩
  · intro i j p q hp hq hpk hqk
    exact hinv.poll i j p q (hold i p hpk hp) (hold j q hqk hq) hpk hqk
  · intro i p hp hpk
    exact hinv.polling i p (hold i p hpk hp) hpk
  · intro i p hp hpk
    exact absurd hpk (hnot p (List.mem_of_getElem? (hold i p (by rw [hpk]; rfl) hp)))
  · intro i p hp hpk
    have hup := (hinv.raised i p (hold i p (by rw [hpk]; rfl) hp) hpk).1
    rw [hflag] at hup
    cases hup

theorem Apart.spawnPoll {s : State} (hinv : Apart s) (hidle : s.pollInProgress = false) :
    Apart ({ s with pollInProgress := true }.spawn .pollBoarding) := by
  have hnone (i : ℕ) (q : Phase) (hq : s.tasks[i]? = some q) : q.kind.poll = false := by
    by_contra hqk
    rw [hinv.polling i q hq (by simpa using hqk)] at hidle
    cases hidle
  have hnew (i : ℕ) (q : Phase) (hqk : q.kind.poll = true)
      (hq : (State.spawn { s with pollInProgress := true } .pollBoarding).tasks[i]? = some q) :
      i = s.tasks.length ∧ q = .pollBoarding := by
    rcases getElem?_spawn hq with hq | hq
    · rw [hnone i q hq] at hqk
      cases hqk
    · exact hq
  refine ⟨hinv.toRenewsAlone.spawnPoll, ?_, fun _ _ _ _ ↦ rfl, ?_, ?_⟩
  · intro i j p q hp hq hpk hqk
    exact (hnew i p hpk hp).1.trans (hnew j q hqk hq).1.symm
  · intro i p hp hpk
    obtain ⟨-, rfl⟩ := hnew i p (by rw [hpk]; rfl) hp
    cases hpk
  · intro i p hp hpk
    obtain ⟨-, rfl⟩ := hnew i p (by rw [hpk]; rfl) hp
    cases hpk

theorem apart_step {manager : Manager} {s s' : State} {input : Input × ℤ} (hinv : Apart s)
    (hnot : NotBetween s input) (h : step manager s input = some s') : Apart s' := by
  rcases step_cases h with ⟨k, answer, p, p', -, hp, hmoves⟩ | ⟨hflag, hrenews, rfl⟩ |
    ⟨hidle, rfl⟩ | rfl
  · exact hinv.moves hp hmoves
  · exact hinv.spawn hflag (hnot hrenews)
  · exact hinv.spawnPoll hidle
  · exact hinv

theorem apart_initial : Apart initial where
  one := fun _ _ _ _ hp ↦ by cases hp
  up := fun _ _ hp ↦ by cases hp
  poll := fun _ _ _ _ hp ↦ by cases hp
  polling := fun _ _ hp ↦ by cases hp
  down := fun _ _ hp ↦ by cases hp
  raised := fun _ _ hp ↦ by cases hp

theorem Apart.exclusive {s : State} (hinv : Apart s) : Exclusive s := by
  have hpoll {i j : ℕ} {p q : Phase} (hp : s.tasks[i]? = some p) (hq : s.tasks[j]? = some q)
      (hpk : p.kind = .renewing) (hqk : q.kind = .unguarded ∨ q.kind = .settling) : False := by
    rcases hqk with hqk | hqk
    · have hdown := hinv.down j q hq hqk
      rw [hinv.up i p hp hpk] at hdown
      cases hdown
    · exact (hinv.raised j q hq hqk).2 i p hp hpk
  have hisPoll {p : Phase} (h : p.kind = .unguarded ∨ p.kind = .settling) :
      p.kind.poll = true := by
    rcases h with h | h
    · rw [h]
      rfl
    · rw [h]
      rfl
  intro i j p q hp hq hpi hqi
  rcases Phase.kind_of_virtualInputs hpi with hpk | hpk
  · rcases Phase.kind_of_virtualInputs hqi with hqk | hqk
    · exact hinv.one i j p q hp hq hpk hqk
    · exact (hpoll hp hq hpk hqk).elim
  · rcases Phase.kind_of_virtualInputs hqi with hqk | hqk
    · exact (hpoll hq hp hqk hpk).elim
    · exact hinv.poll i j p q hp hq (hisPoll hpk) (hisPoll hqk)

/-- The flag is down only when no renewal runs and no settle call with virtual inputs is open. -/
def CoversSettles (s : State) : Prop :=
  s.renewalInProgress = false → ∀ p ∈ s.tasks, p.kind ≠ .renewing ∧ p.settling = []

theorem Phase.kind_of_settling {p : Phase} (h : p.settling ≠ []) :
    p.kind = .renewing ∨ p.kind = .settling := by
  cases p with
  | renewSettle => exact .inl rfl
  | pollSettle _ vtxos _ _ => exact .inr (if_neg h)
  | _ => exact absurd rfl h

theorem Apart.coversSettles {s : State} (hinv : Apart s) : CoversSettles s := by
  intro hflag p hp
  obtain ⟨i, hi⟩ := List.mem_iff_getElem?.mp hp
  have hnot : p.kind ≠ .renewing := by
    intro hpk
    rw [hinv.up i p hi hpk] at hflag
    cases hflag
  refine ⟨hnot, ?_⟩
  by_contra hne
  rcases Phase.kind_of_settling hne with hpk | hpk
  · exact hnot hpk
  · rw [(hinv.raised i p hi hpk).1] at hflag
    cases hflag

/-- Passes are apart, and the flag covers the one that holds virtual inputs, in runs in which no
poll finds any. They still are apart, with the flag up in every settle call, when polls do find some
but no renewal begins between a poll's look at the flag and its raising it. -/
theorem renewals_exclusive {manager : Manager} {s : State} :
    (Run (step manager) FindsNone initial s → Exclusive s ∧ SpentOnce s ∧ Covered s) ∧
    (Run (step manager) NotBetween initial s → Exclusive s ∧ SpentOnce s ∧ CoversSettles s) := by
  constructor
  · intro h
    have hinv : NoneFound s :=
      h.invariant (fun _ _ _ hinv hok hstep ↦ noneFound_step hinv hok hstep) noneFound_initial
    exact ⟨hinv.exclusive, hinv.exclusive.spentOnce, hinv.covered⟩
  · intro h
    have hinv : Apart s :=
      h.invariant (fun _ _ _ hinv hok hstep ↦ apart_step hinv hok hstep) apart_initial
    exact ⟨hinv.exclusive, hinv.exclusive.spentOnce, hinv.coversSettles⟩

def findsNone (s : State) : Input × ℤ → Bool
  | (.answer k answer, _) => s.tasks[k]?.all fun p ↦ decide (found p answer = [])
  | _ => true

theorem findsNone_sound (s : State) (input : Input × ℤ) (h : findsNone s input = true) :
    FindsNone s input := by
  intro k answer p hinput hp
  obtain ⟨input, now⟩ := input
  obtain rfl : input = .answer k answer := hinput
  simpa [findsNone, hp] using h

def notBetween (s : State) (input : Input × ℤ) : Bool :=
  !input.1.renews || s.tasks.all fun p ↦ decide (p.kind ≠ .unguarded)

theorem notBetween_sound (s : State) (input : Input × ℤ) (h : notBetween s input = true) :
    NotBetween s input := by
  intro hrenews
  simpa [notBetween, hrenews] using h

/-! One virtual output that is expiring, without fees. -/

def sampleManager : Manager := ⟨⟨144, .seconds⟩, 330, true, false⟩

def sampleCoin : VirtualCoin := ⟨⟨"aa", 0⟩, 5000, false, some 7, none⟩

def sampleInfo : ArkInfo := ⟨noFees, -1⟩

/-- What pass `k` is told, from its selection to its settle call. -/
def selectAndSettle (k : ℕ) (vtxos : List VirtualCoin) : List (Input × ℤ) :=
  [.time ⟨5, none⟩, .vtxos vtxos, .refreshed, .vtxos vtxos, .info sampleInfo,
    .address "ours"].map fun answer ↦ (.answer k answer, 1000000)

/-- A poll has looked at the flag when a renewal begins. -/
def overlap : List (Input × ℤ) :=
  ([(.pollBoardingUtxos, 1000000), (.answer 0 (.boarding []), 1000000),
    (.renewVtxos .missing, 1000000)] : List (Input × ℤ)) ++
    selectAndSettle 0 [sampleCoin] ++ selectAndSettle 1 [sampleCoin]

/-- Both settle the same output, and the poll's end unlocks the renewal that is still open. -/
theorem overlap_spends_twice :
    (∃ s, exec (step sampleManager) initial overlap = some s ∧ ¬ Exclusive s ∧ ¬ SpentOnce s) ∧
    ∃ s, exec (step sampleManager) initial (overlap ++ [(.answer 0 .settled, 1000000)]) = some s ∧
      ¬ Covered s := by
  constructor
  · obtain ⟨s, hs, htasks⟩ : ∃ s, exec (step sampleManager) initial overlap = some s ∧
        s.tasks = [.pollSettle [] [sampleCoin] "ours" 5000,
          .renewSettle [sampleCoin] "ours" 5000] := ⟨_, rfl, rfl⟩
    refine ⟨s, hs, ?_, ?_⟩
    · intro h
      have hsame := h 0 1 _ _ (congrArg (·[0]?) htasks) (congrArg (·[1]?) htasks)
        (List.cons_ne_nil _ _) (List.cons_ne_nil _ _)
      cases hsame
    · intro h
      have hsame := h 0 1 _ _ (congrArg (·[0]?) htasks) (congrArg (·[1]?) htasks)
        sampleCoin List.mem_cons_self sampleCoin List.mem_cons_self rfl
      cases hsame
  · obtain ⟨s, hs, hflag, htasks⟩ : ∃ s, exec (step sampleManager) initial
        (overlap ++ [(.answer 0 .settled, 1000000)]) = some s ∧ s.renewalInProgress = false ∧
          s.tasks = [.pollRest, .renewSettle [sampleCoin] "ours" 5000] := ⟨_, rfl, rfl, rfl⟩
    refine ⟨s, hs, ?_⟩
    intro h
    have hnone := h hflag (.renewSettle [sampleCoin] "ours" 5000) (by rw [htasks]; simp)
    cases hnone

/-- A renewal that a poll comes upon, and a poll that a renewal comes upon. -/
theorem renewals_exclusive_sample :
    (∃ s, exec (step sampleManager) initial ((.renewVtxos .missing, 1000000) ::
        selectAndSettle 0 [sampleCoin] ++
        [(.pollBoardingUtxos, 1000000), (.answer 1 (.boarding []), 1000000)]) = some s ∧
      s.tasks = [.renewSettle [sampleCoin] "ours" 5000, .pollRest] ∧
      Exclusive s ∧ SpentOnce s ∧ Covered s) ∧
    ∃ s, exec (step sampleManager) initial ((.pollBoardingUtxos, 1000000) ::
        (.answer 0 (.boarding []), 1000000) :: selectAndSettle 0 [sampleCoin] ++
        [(.renewVtxos .missing, 1000000)]) = some s ∧
      s.tasks = [.pollSettle [] [sampleCoin] "ours" 5000] ∧
      Exclusive s ∧ SpentOnce s ∧ CoversSettles s := by
  constructor
  · obtain ⟨s, hs, htasks⟩ : ∃ s, exec (step sampleManager) initial
        ((.renewVtxos .missing, 1000000) :: selectAndSettle 0 [sampleCoin] ++
          [(.pollBoardingUtxos, 1000000), (.answer 1 (.boarding []), 1000000)]) = some s ∧
        s.tasks = [.renewSettle [sampleCoin] "ours" 5000, .pollRest] := ⟨_, rfl, rfl⟩
    exact ⟨s, hs, htasks, renewals_exclusive.1
      (run_of_exec hs (along_of_check findsNone_sound (by decide)))⟩
  · obtain ⟨s, hs, htasks⟩ : ∃ s, exec (step sampleManager) initial
        ((.pollBoardingUtxos, 1000000) :: (.answer 0 (.boarding []), 1000000) ::
          selectAndSettle 0 [sampleCoin] ++ [(.renewVtxos .missing, 1000000)]) = some s ∧
        s.tasks = [.pollSettle [] [sampleCoin] "ours" 5000] := ⟨_, rfl, rfl⟩
    exact ⟨s, hs, htasks, renewals_exclusive.2
      (run_of_exec hs (along_of_check notBetween_sound (by decide)))⟩

end ArkadeSdk.Renewal
