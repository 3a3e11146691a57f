import Mathlib.Data.List.Basic

/-! Tasks that are serialized by key. Each waits for the task that its key's entry named when it was
added, whatever became of that one, and an entry is dropped once its own task has settled. -/

namespace TaskChains

inductive Phase
  | queued
  | running
  | settled
  deriving DecidableEq, Repr

structure Task (κ α : Type) where
  key : κ
  job : α
  after : Option ℕ
  phase : Phase

structure Chains (κ α : Type) where
  tasks : List (Task κ α)
  inFlight : κ → Option ℕ

variable {κ α : Type}

namespace Chains

variable (c : Chains κ α)

def settled (i : ℕ) : Bool := c.tasks[i]?.any (·.phase = .settled)

def enqueue [DecidableEq κ] (key : κ) (job : α) : Chains κ α where
  tasks := c.tasks ++ [⟨key, job, c.inFlight key, .queued⟩]
  inFlight := fun k ↦ if k = key then some c.tasks.length else c.inFlight k

/-- Task `i` enters a phase. -/
def enter (i : ℕ) (phase : Phase) : Chains κ α :=
  { c with tasks := c.tasks.modify i fun task ↦ { task with phase := phase } }

/-- What the task waits for has settled. -/
def ready (task : Task κ α) : Bool := task.phase = .queued && task.after.all c.settled

def start (i : ℕ) : Option (Chains κ α) :=
  if c.tasks[i]?.any c.ready then some (c.enter i .running) else none

def settle (i : ℕ) : Option (Chains κ α) :=
  if c.tasks[i]?.any (·.phase = .running) then some (c.enter i .settled) else none

/-- A settled task drops the entry that still names it. -/
def cleanup [DecidableEq κ] (i : ℕ) : Option (Chains κ α) :=
  match c.tasks[i]? with
  | none => none
  | some task =>
    if task.phase ≠ .settled then none
    else some { c with inFlight := fun k ↦
      if k = task.key ∧ c.inFlight k = some i then none else c.inFlight k }

variable {c} {c' : Chains κ α} {i j k : ℕ} {task earlier : Task κ α} {key : κ} {job : α}
  {phase : Phase}

theorem settled_iff : c.settled i = true ↔ ∃ task, c.tasks[i]? = some task ∧
    task.phase = .settled := by
  simp [settled, Option.any_eq_true]

theorem getElem?_enqueue [DecidableEq κ] : (c.enqueue key job).tasks[i]? = some task ↔
    c.tasks[i]? = some task ∨
      i = c.tasks.length ∧ task = ⟨key, job, c.inFlight key, .queued⟩ := by
  rw [enqueue, List.getElem?_append]
  split
  · rename_i hlt
    exact ⟨.inl, fun h ↦ h.resolve_right fun h ↦ by omega⟩
  · rename_i hlt
    have hnone : c.tasks[i]? = none := List.getElem?_eq_none (by omega)
    rw [List.getElem?_singleton, hnone]
    constructor
    · intro h
      split at h
      · rename_i hzero
        exact .inr ⟨by omega, (Option.some.inj h).symm⟩
      · cases h
    · rintro (h | ⟨rfl, rfl⟩)
      · cases h
      · simp

theorem getElem?_enter : (c.enter i phase).tasks[j]? = some task ↔
    ∃ before, c.tasks[j]? = some before ∧
      task = if i = j then { before with phase := phase } else before := by
  rw [enter, List.getElem?_modify, Option.map_eq_map, Option.map_eq_some_iff]
  constructor
  · rintro ⟨before, hbefore, rfl⟩
    refine ⟨before, hbefore, ?_⟩
    split <;> rfl
  · rintro ⟨before, hbefore, rfl⟩
    refine ⟨before, hbefore, ?_⟩
    split <;> rfl

theorem start_eq_some (h : c.start i = some c') :
    (∃ task, c.tasks[i]? = some task ∧ task.phase = .queued ∧
      task.after.all c.settled = true) ∧ c' = c.enter i .running := by
  unfold start at h
  split at h
  · rename_i hready
    obtain ⟨task, htask, hready⟩ := (Option.any_eq_true _ _).mp hready
    have hready := (Bool.and_eq_true _ _).mp hready
    exact ⟨⟨task, htask, by simpa using hready.1, hready.2⟩, (Option.some.inj h).symm⟩
  · cases h

theorem settle_eq_some (h : c.settle i = some c') :
    (∃ task, c.tasks[i]? = some task ∧ task.phase = .running) ∧ c' = c.enter i .settled := by
  unfold settle at h
  split at h
  · rename_i hrunning
    obtain ⟨task, htask, hrunning⟩ := (Option.any_eq_true _ _).mp hrunning
    exact ⟨⟨task, htask, by simpa using hrunning⟩, (Option.some.inj h).symm⟩
  · cases h

theorem cleanup_eq_some [DecidableEq κ] (h : c.cleanup i = some c') :
    (∃ task, c.tasks[i]? = some task ∧ task.phase = .settled ∧
      c' = { c with inFlight := fun k ↦
        if k = task.key ∧ c.inFlight k = some i then none else c.inFlight k }) := by
  unfold cleanup at h
  split at h
  · cases h
  · rename_i task htask
    split at h
    · cases h
    · rename_i hphase
      exact ⟨task, htask, not_not.mp hphase, (Option.some.inj h).symm⟩

/-- A key's entry names its last task, and every task is behind those of its key before it. -/
structure Inv (c : Chains κ α) : Prop where
  last : ∀ {key : κ} {i : ℕ}, c.inFlight key = some i →
    (∃ task, c.tasks[i]? = some task ∧ task.key = key) ∧
    ∀ {j : ℕ} {task : Task κ α}, c.tasks[j]? = some task → task.key = key → j ≤ i
  idle : ∀ {key : κ}, c.inFlight key = none → ∀ {j : ℕ} {task : Task κ α},
    c.tasks[j]? = some task → task.key = key → task.phase = .settled
  waits : ∀ {j k : ℕ} {task : Task κ α}, c.tasks[j]? = some task → task.after = some k →
    k < j ∧ ∃ waited, c.tasks[k]? = some waited ∧ waited.key = task.key
  behind : ∀ {i j : ℕ} {earlier task : Task κ α}, i < j → c.tasks[i]? = some earlier →
    c.tasks[j]? = some task → earlier.key = task.key →
    earlier.phase = .settled ∨ ∃ k, task.after = some k ∧ i ≤ k
  ordered : ∀ {i j : ℕ} {earlier task : Task κ α}, i < j → c.tasks[i]? = some earlier →
    c.tasks[j]? = some task → earlier.key = task.key → task.phase ≠ .queued →
    earlier.phase = .settled

theorem inv_empty : Inv (⟨[], fun _ ↦ none⟩ : Chains κ α) where
  last h := by cases h
  idle _ _ _ h := by cases h
  waits h := by cases h
  behind _ h := by cases h
  ordered _ h := by cases h

theorem lt_of_getElem? (h : c.tasks[i]? = some task) : i < c.tasks.length :=
  (List.getElem?_eq_some_iff.mp h).1

theorem Inv.enqueue [DecidableEq κ] (h : Inv c) (key : κ) (job : α) : Inv (c.enqueue key job) := by
  have hkept {i : ℕ} {task : Task κ α} (h : c.tasks[i]? = some task) :
      (c.enqueue key job).tasks[i]? = some task := getElem?_enqueue.mpr (.inl h)
  refine ⟨fun {k i} hi ↦ ?_, fun {k} hk {j task} hj hkey ↦ ?_, fun {j k task} hj hk ↦ ?_,
    fun {i j earlier task} hij hi hj hkey ↦ ?_, fun {i j earlier task} hij hi hj hkey hphase ↦ ?_⟩
  · simp only [Chains.enqueue] at hi
    split at hi
    · rename_i hk
      obtain rfl := Option.some.inj hi
      refine ⟨⟨_, getElem?_enqueue.mpr (.inr ⟨rfl, rfl⟩), hk.symm⟩, fun {j task} hj _ ↦ ?_⟩
      rcases getElem?_enqueue.mp hj with hj | ⟨rfl, -⟩
      · exact Nat.le_of_lt (lt_of_getElem? hj)
      · exact Nat.le_refl _
    · rename_i hk
      obtain ⟨⟨last, hlast, hkey⟩, hmax⟩ := h.last hi
      refine ⟨⟨last, hkept hlast, hkey⟩, fun {j task} hj hkey ↦ ?_⟩
      rcases getElem?_enqueue.mp hj with hj | ⟨rfl, rfl⟩
      · exact hmax hj hkey
      · exact absurd hkey.symm hk
  · simp only [Chains.enqueue] at hk
    split at hk
    · cases hk
    · rename_i hne
      rcases getElem?_enqueue.mp hj with hj | ⟨rfl, rfl⟩
      · exact h.idle hk hj hkey
      · exact absurd hkey.symm hne
  · rcases getElem?_enqueue.mp hj with hj | ⟨rfl, rfl⟩
    · obtain ⟨hlt, waited, hwaited, hkey⟩ := h.waits hj hk
      exact ⟨hlt, waited, hkept hwaited, hkey⟩
    · obtain ⟨⟨last, hlast, hkey⟩, -⟩ := h.last hk
      exact ⟨lt_of_getElem? hlast, last, hkept hlast, hkey⟩
  · rcases getElem?_enqueue.mp hi with hi | ⟨rfl, -⟩
    · rcases getElem?_enqueue.mp hj with hj | ⟨rfl, rfl⟩
      · exact h.behind hij hi hj hkey
      · cases hentry : c.inFlight key with
        | none => exact .inl (h.idle hentry hi hkey)
        | some k => exact .inr ⟨k, rfl, (h.last hentry).2 hi hkey⟩
    · rcases getElem?_enqueue.mp hj with hj | ⟨rfl, -⟩
      · exact absurd (lt_of_getElem? hj) (by omega)
      · exact absurd hij (by omega)
  · rcases getElem?_enqueue.mp hj with hj | ⟨rfl, rfl⟩
    · rcases getElem?_enqueue.mp hi with hi | ⟨rfl, -⟩
      · exact h.ordered hij hi hj hkey hphase
      · exact absurd (lt_of_getElem? hj) (by omega)
    · exact absurd rfl hphase

/-- A task may enter a later phase once those of its key before it have settled. -/
theorem Inv.enter (h : Inv c) {before : Task κ α} (hi : c.tasks[i]? = some before)
    (hphase : phase = .settled ∨ before.phase ≠ .settled)
    (hbefore : ∀ {j earlier}, j < i → c.tasks[j]? = some earlier → earlier.key = before.key →
      earlier.phase = .settled) : Inv (c.enter i phase) := by
  have hold {j : ℕ} {task : Task κ α} (hj : (c.enter i phase).tasks[j]? = some task) :
      ∃ old, c.tasks[j]? = some old ∧ task.key = old.key ∧ task.after = old.after ∧
        (i ≠ j → task = old) ∧ (i = j → old = before ∧ task.phase = phase) := by
    obtain ⟨old, hold, rfl⟩ := getElem?_enter.mp hj
    refine ⟨old, hold, ?_⟩
    split
    · rename_i hij
      subst hij
      exact ⟨rfl, rfl, fun h ↦ absurd rfl h, fun _ ↦ ⟨Option.some.inj (hold ▸ hi), rfl⟩⟩
    · rename_i hij
      exact ⟨rfl, rfl, fun _ ↦ rfl, fun h ↦ absurd h hij⟩
  have hsettled {j : ℕ} {task old : Task κ α} (hj : (c.enter i phase).tasks[j]? = some task)
      (hjold : c.tasks[j]? = some old) (hphase' : old.phase = .settled) :
      task.phase = .settled := by
    obtain ⟨old', hold', -, -, hne, heq⟩ := hold hj
    obtain rfl := Option.some.inj (hold' ▸ hjold)
    by_cases hij : i = j
    · obtain ⟨rfl, htask⟩ := heq hij
      rw [htask]
      exact hphase.resolve_right fun h ↦ h hphase'
    · rw [hne hij]
      exact hphase'
  have hnew {j : ℕ} {task : Task κ α} (hj : c.tasks[j]? = some task) :
      ∃ new, (c.enter i phase).tasks[j]? = some new ∧ new.key = task.key := by
    refine ⟨_, getElem?_enter.mpr ⟨task, hj, rfl⟩, ?_⟩
    split <;> rfl
  refine ⟨fun {key j} hj ↦ ?_, fun {key} hk {j task} hj hkey ↦ ?_, fun {j k task} hj hk ↦ ?_,
    fun {j k earlier task} hjk hj hk hkey ↦ ?_, fun {j k earlier task} hjk hj hk hkey hq ↦ ?_⟩
  · obtain ⟨⟨last, hlast, hkey⟩, hmax⟩ := h.last hj
    obtain ⟨new, hnew, hkey'⟩ := hnew hlast
    refine ⟨⟨new, hnew, hkey'.trans hkey⟩, fun {k task} hk hkey ↦ ?_⟩
    obtain ⟨old, hold, hkey', -⟩ := hold hk
    exact hmax hold (hkey' ▸ hkey)
  · obtain ⟨old, hjold, hkey', -⟩ := hold hj
    exact hsettled hj hjold (h.idle hk hjold (hkey' ▸ hkey))
  · obtain ⟨old, hjold, hkey, hafter, -⟩ := hold hj
    obtain ⟨hlt, waited, hwaited, hkey'⟩ := h.waits hjold (hafter ▸ hk)
    obtain ⟨new, hnew, hkey''⟩ := hnew hwaited
    exact ⟨hlt, new, hnew, by rw [hkey'', hkey', hkey]⟩
  · obtain ⟨oldEarlier, hjold, hkeyj, -⟩ := hold hj
    obtain ⟨oldTask, hkold, hkeyk, hafter, -⟩ := hold hk
    rw [hkeyj, hkeyk] at hkey
    exact (h.behind hjk hjold hkold hkey).imp (hsettled hj hjold) (hafter ▸ id)
  · obtain ⟨oldEarlier, hjold, hkeyj, -⟩ := hold hj
    obtain ⟨oldTask, hkold, hkeyk, -, hne, heq⟩ := hold hk
    rw [hkeyj, hkeyk] at hkey
    refine hsettled hj hjold ?_
    by_cases hik : i = k
    · obtain ⟨rfl, -⟩ := heq hik
      subst hik
      exact hbefore hjk hjold hkey
    · exact h.ordered hjk hjold hkold hkey (hne hik ▸ hq)

/-- What a task waits for has settled exactly when every task of its key before it has. -/
theorem Inv.after_settled_iff (h : Inv c) (hi : c.tasks[i]? = some task) :
    task.after.all c.settled = true ↔ ∀ {j : ℕ} {earlier : Task κ α}, j < i →
      c.tasks[j]? = some earlier → earlier.key = task.key → earlier.phase = .settled := by
  constructor
  · intro hafter j earlier hji hj hkey
    obtain hsettled | ⟨k, hk, hjk⟩ := h.behind hji hj hi hkey
    · exact hsettled
    · obtain ⟨-, waited, hwaited, hkey'⟩ := h.waits hi hk
      rw [hk] at hafter
      obtain ⟨waited', hwaited', hphase⟩ := settled_iff.mp hafter
      obtain rfl := Option.some.inj (hwaited'.symm.trans hwaited)
      obtain rfl | hlt := Nat.eq_or_lt_of_le hjk
      · exact Option.some.inj (hj.symm.trans hwaited) ▸ hphase
      · exact h.ordered hlt hj hwaited (hkey.trans hkey'.symm) (by simp [hphase])
  · intro hbefore
    cases hafter : task.after with
    | none => rfl
    | some k =>
      obtain ⟨hlt, waited, hwaited, hkey⟩ := h.waits hi hafter
      exact settled_iff.mpr ⟨waited, hwaited, hbefore hlt hwaited hkey⟩

theorem Inv.start (h : Inv c) (hstart : c.start i = some c') : Inv c' := by
  obtain ⟨⟨task, htask, hqueued, hafter⟩, rfl⟩ := start_eq_some hstart
  exact h.enter htask (.inr (by simp [hqueued])) ((h.after_settled_iff htask).mp hafter)

theorem Inv.settle (h : Inv c) (hsettle : c.settle i = some c') : Inv c' := by
  obtain ⟨⟨task, htask, hrunning⟩, rfl⟩ := settle_eq_some hsettle
  exact h.enter htask (.inl rfl) fun hji hj hkey ↦ h.ordered hji hj htask hkey (by simp [hrunning])

theorem Inv.cleanup [DecidableEq κ] (h : Inv c) (hcleanup : c.cleanup i = some c') : Inv c' := by
  obtain ⟨task, htask, hphase, rfl⟩ := cleanup_eq_some hcleanup
  refine ⟨fun {key j} hj ↦ ?_, fun {key} hk {j other} hj hkey ↦ ?_, h.waits, h.behind, h.ordered⟩
  · dsimp only at hj
    split at hj
    · cases hj
    · exact h.last hj
  · dsimp only at hk
    split at hk
    · -- the entry that is dropped named the key's last task
      rename_i hentry
      obtain rfl | hlt := Nat.eq_or_lt_of_le ((h.last hentry.2).2 hj hkey)
      · exact Option.some.inj (hj.symm.trans htask) ▸ hphase
      · exact h.ordered hlt hj htask (hkey.trans hentry.1) (by simp [hphase])
    · exact h.idle hk hj hkey

theorem running_enqueue [DecidableEq κ] (hi : (c.enqueue key job).tasks[i]? = some task)
    (hrunning : task.phase = .running) : c.tasks[i]? = some task := by
  rcases getElem?_enqueue.mp hi with hi | ⟨-, rfl⟩
  · exact hi
  · cases hrunning

theorem running_settle (hsettle : c.settle i = some c') (hj : c'.tasks[j]? = some task)
    (hrunning : task.phase = .running) : i ≠ j ∧ c.tasks[j]? = some task := by
  obtain ⟨-, rfl⟩ := settle_eq_some hsettle
  obtain ⟨before, hbefore, rfl⟩ := getElem?_enter.mp hj
  split at hrunning
  · cases hrunning
  · rename_i hij
    rw [if_neg hij]
    exact ⟨hij, hbefore⟩

theorem running_start (hstart : c.start i = some c') (hj : c'.tasks[j]? = some task)
    (hrunning : task.phase = .running) : i ≠ j ∧ c.tasks[j]? = some task ∨
      i = j ∧ ∃ before, c.tasks[j]? = some before ∧ before.phase = .queued ∧
        task = { before with phase := .running } := by
  obtain ⟨⟨queued, hqueued, hphase, -⟩, rfl⟩ := start_eq_some hstart
  obtain ⟨before, hbefore, rfl⟩ := getElem?_enter.mp hj
  by_cases hij : i = j
  · subst hij
    rw [if_pos rfl]
    obtain rfl := Option.some.inj (hqueued.symm.trans hbefore)
    exact .inr ⟨rfl, _, hbefore, hphase, rfl⟩
  · rw [if_neg hij]
    exact .inl ⟨hij, hbefore⟩

theorem Inv.running_unique (h : Inv c) (hi : c.tasks[i]? = some earlier)
    (hj : c.tasks[j]? = some task) (hkey : earlier.key = task.key)
    (hearlier : earlier.phase = .running) (htask : task.phase = .running) : i = j := by
  by_contra hne
  rcases Nat.lt_or_gt_of_ne hne with hlt | hlt
  · have := h.ordered hlt hi hj hkey (by simp [htask])
    simp [hearlier] at this
  · have := h.ordered hlt hj hi hkey.symm (by simp [hearlier])
    simp [htask] at this

/-- A task starts as soon as those of its key before it have settled. -/
theorem Inv.start_isSome (h : Inv c) (hi : c.tasks[i]? = some task)
    (hqueued : task.phase = .queued) (hbefore : ∀ {j : ℕ} {earlier : Task κ α}, j < i →
      c.tasks[j]? = some earlier → earlier.key = task.key → earlier.phase = .settled) :
    (c.start i).isSome = true := by
  have hready : c.ready task = true := by
    simp [ready, hqueued, (h.after_settled_iff hi).mpr hbefore]
  simp [Chains.start, hi, hready]

end Chains

end TaskChains
