import ArkadeSdk.Lib.TaskChains

/-! Updates of one stored value that wait for each other: each reads the value, computes the next
one and writes it, and only then is it the next update's turn. Reads and writes may fail. -/

namespace SerializedStore

open TaskChains TaskChains.Chains

variable {σ υ ρ ε : Type}

/-- `pending` holds what the updates under way are about to write, and their results. -/
structure State (σ υ ρ : Type) where
  store : σ
  lock : Chains Unit υ
  pending : List (ℕ × σ × ρ)

def State.start (store : σ) : State σ υ ρ := ⟨store, ⟨[], fun _ ↦ none⟩, []⟩

/-- A failed write may have reached the store or not. A restart drops every update. -/
inductive Input (υ : Type)
  | submit (update : υ)
  | start (i : ℕ)
  | read (i : ℕ)
  | write (i : ℕ)
  | fail (i : ℕ) (stored : Bool)
  | restart

namespace State

variable (apply : υ → σ → Except ε (σ × ρ)) (s : State σ υ ρ)

def next (i : ℕ) : Option (σ × ρ) := (s.pending.find? (·.1 = i)).map (·.2)

/-- The update is over. -/
def close (i : ℕ) (lock : Chains Unit υ) (store : σ) : State σ υ ρ :=
  ⟨store, lock, s.pending.filter (·.1 ≠ i)⟩

/-- What the read value becomes. An update that throws ends there. -/
def computed (i : ℕ) (update : υ) : Option (State σ υ ρ) :=
  match apply update s.store with
  | .error _ => (s.lock.settle i).map fun lock ↦ s.close i lock s.store
  | .ok next => some { s with pending := (i, next) :: s.pending }

/-- The state after an input, and the update that has resolved with its result. -/
def step : Input υ → Option (State σ υ ρ × Option (υ × ρ))
  | .submit update => some ({ s with lock := s.lock.enqueue () update }, none)
  | .start i => (s.lock.start i).map fun lock ↦ ({ s with lock }, none)
  | .read i => (s.lock.tasks[i]?).bind fun task ↦
    if task.phase = .running ∧ s.next i = none then
      (s.computed apply i task.job).map fun s ↦ (s, none)
    else none
  | .write i => (s.lock.tasks[i]?).bind fun task ↦ (s.next i).bind fun (store, result) ↦
    (s.lock.settle i).map fun lock ↦ (s.close i lock store, some (task.job, result))
  | .fail i stored => (s.lock.settle i).map fun lock ↦
    (s.close i lock (if stored then ((s.next i).map (·.1)).getD s.store else s.store), none)
  | .restart => some (State.start s.store, none)

/-- What an update is about to write was computed from what is in store. -/
structure Inv : Prop where
  lock : s.lock.Inv
  pending : ∀ {i : ℕ} {next : σ × ρ}, (i, next) ∈ s.pending →
    ∃ task, s.lock.tasks[i]? = some task ∧ task.phase = .running ∧
      apply task.job s.store = .ok next

variable {apply s} {s' : State σ υ ρ} {i : ℕ} {out : Option (υ × ρ)}

theorem inv_start (store : σ) : Inv apply (State.start store : State σ υ ρ) :=
  ⟨inv_empty, nofun⟩

theorem mem_of_next {next : σ × ρ} (h : s.next i = some next) : (i, next) ∈ s.pending := by
  obtain ⟨⟨j, next'⟩, hfind, rfl⟩ := Option.map_eq_some_iff.mp h
  have hkey : j = i := by simpa using List.find?_some hfind
  exact hkey ▸ List.mem_of_find?_eq_some hfind

theorem Inv.filter_pending (h : Inv apply s) {task : Task Unit υ}
    (hi : s.lock.tasks[i]? = some task) (hrunning : task.phase = .running) :
    s.pending.filter (·.1 ≠ i) = [] := by
  refine List.filter_eq_nil_iff.mpr fun ⟨j, next⟩ hmem hne ↦ ?_
  obtain ⟨other, hj, hother, -⟩ := h.pending hmem
  exact of_decide_eq_true hne (h.lock.running_unique hj hi rfl hother hrunning)

theorem Inv.close (h : Inv apply s) {lock : Chains Unit υ} (hlock : s.lock.settle i = some lock)
    (store : σ) : Inv apply (s.close i lock store) := by
  obtain ⟨⟨task, htask, hrunning⟩, -⟩ := settle_eq_some hlock
  refine ⟨h.lock.settle hlock, fun {j next} hmem ↦ ?_⟩
  have hnil := h.filter_pending htask hrunning
  rw [State.close, hnil] at hmem
  cases hmem

theorem Inv.computed (h : Inv apply s) {task : Task Unit υ} (hi : s.lock.tasks[i]? = some task)
    (hrunning : task.phase = .running) (hs : s.computed apply i task.job = some s') :
    Inv apply s' ∧ s'.store = s.store := by
  unfold State.computed at hs
  split at hs
  · obtain ⟨lock, hlock, rfl⟩ := Option.map_eq_some_iff.mp hs
    exact ⟨h.close hlock s.store, rfl⟩
  · rename_i next happly
    obtain rfl := Option.some.inj hs
    refine ⟨⟨h.lock, fun hmem ↦ ?_⟩, rfl⟩
    rcases List.mem_cons.mp hmem with heq | hmem
    · obtain ⟨rfl, rfl⟩ := Prod.mk.inj heq
      exact ⟨task, hi, hrunning, happly⟩
    · exact h.pending hmem

/-- Whatever the inputs, the store changes by whole updates of what it holds, and an update that
resolves is the one that was written. -/
theorem Inv.step (h : Inv apply s) {input : Input υ} (hs : s.step apply input = some (s', out)) :
    Inv apply s' ∧ (s'.store = s.store ∧ out = none ∨
      ∃ update result, apply update s.store = .ok (s'.store, result) ∧
        (out = none ∨ out = some (update, result))) := by
  cases input with
  | submit update =>
    obtain ⟨rfl, rfl⟩ := Prod.mk.inj (Option.some.inj hs)
    refine ⟨⟨h.lock.enqueue () update, fun hmem ↦ ?_⟩, .inl ⟨rfl, rfl⟩⟩
    obtain ⟨task, htask, hrest⟩ := h.pending hmem
    exact ⟨task, getElem?_enqueue.mpr (.inl htask), hrest⟩
  | start i =>
    obtain ⟨lock, hlock, heq⟩ := Option.map_eq_some_iff.mp hs
    obtain ⟨rfl, rfl⟩ := Prod.mk.inj heq
    refine ⟨⟨h.lock.start hlock, fun {j next} hmem ↦ ?_⟩, .inl ⟨rfl, rfl⟩⟩
    obtain ⟨task, htask, hrunning, happly⟩ := h.pending hmem
    obtain ⟨⟨queued, hqueued, hphase, -⟩, rfl⟩ := start_eq_some hlock
    refine ⟨task, getElem?_enter.mpr ⟨task, htask, ?_⟩, hrunning, happly⟩
    rw [if_neg]
    rintro rfl
    rw [Option.some.inj (hqueued.symm.trans htask), hrunning] at hphase
    cases hphase
  | read i =>
    obtain ⟨task, htask, hs⟩ := Option.bind_eq_some_iff.mp hs
    split at hs
    · rename_i hcond
      obtain ⟨s'', hcomputed, heq⟩ := Option.map_eq_some_iff.mp hs
      obtain ⟨rfl, rfl⟩ := Prod.mk.inj heq
      obtain ⟨hinv, hstore⟩ := h.computed htask hcond.1 hcomputed
      exact ⟨hinv, .inl ⟨hstore, rfl⟩⟩
    · cases hs
  | write i =>
    obtain ⟨task, htask, hs⟩ := Option.bind_eq_some_iff.mp hs
    obtain ⟨⟨store, result⟩, hnext, hs⟩ := Option.bind_eq_some_iff.mp hs
    obtain ⟨lock, hlock, heq⟩ := Option.map_eq_some_iff.mp hs
    obtain ⟨rfl, rfl⟩ := Prod.mk.inj heq
    obtain ⟨task', htask', -, happly⟩ := h.pending (mem_of_next hnext)
    obtain rfl := Option.some.inj (htask'.symm.trans htask)
    exact ⟨h.close hlock store, .inr ⟨_, result, happly, .inr rfl⟩⟩
  | fail i stored =>
    obtain ⟨lock, hlock, heq⟩ := Option.map_eq_some_iff.mp hs
    obtain ⟨rfl, rfl⟩ := Prod.mk.inj heq
    refine ⟨h.close hlock _, ?_⟩
    cases stored with
    | false => exact .inl ⟨rfl, rfl⟩
    | true =>
      cases hnext : s.next i with
      | none => exact .inl ⟨rfl, rfl⟩
      | some next =>
        obtain ⟨task, -, -, happly⟩ := h.pending (mem_of_next hnext)
        exact .inr ⟨task.job, next.2, by simpa [State.close, hnext] using happly, .inl rfl⟩
  | restart =>
    obtain ⟨rfl, rfl⟩ := Prod.mk.inj (Option.some.inj hs)
    exact ⟨inv_start s.store, .inl ⟨rfl, rfl⟩⟩

end State

end SerializedStore
