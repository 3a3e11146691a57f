import ArkadeSdk.Swap.Coverage

/-! The changes of a script take effect in the order they were asked for, and a script that is held
stays watched. -/

namespace ArkadeSdk.Coverage

open TaskChains LabelledRun

variable {s s' : State} {i j : ℕ} {script : String} {swaps : List AssetSwap}

theorem start_eq_some (h : s.start i = some s') : ∃ task changes,
    s.changes.tasks[i]? = some task ∧ s.changes.start i = some changes ∧
    ((∃ settled, changes.settle i = some settled ∧ s' = { s with changes := settled }) ∨
      task.job = .promote ∧ s' = { s with changes := changes } ∨
      ∃ swaps, task.job = .retire swaps ∧ live swaps task.key = false ∧
        (s.issuedAt task.key = none ∧ s' = { s with changes := changes } ∨
          ∃ issued, s.issuedAt task.key = some issued ∧ shows swaps task.key issued = true ∧
            s' = { s with
              changes := changes
              issuedAt := fun k ↦ if k = task.key then none else s.issuedAt k })) := by
  obtain ⟨task, htask, h⟩ := Option.bind_eq_some_iff.mp h
  obtain ⟨changes, hchanges, h⟩ := Option.bind_eq_some_iff.mp h
  refine ⟨task, changes, htask, hchanges, ?_⟩
  split at h
  · rename_i hjob
    exact .inr (.inl ⟨hjob, (Option.some.inj h).symm⟩)
  · rename_i swaps hjob
    split at h
    · obtain ⟨settled, hsettled, rfl⟩ := Option.map_eq_some_iff.mp h
      exact .inl ⟨settled, hsettled, rfl⟩
    · rename_i hlive
      have hlive : live swaps task.key = false := by simpa using hlive
      unfold addressOutstanding at h
      split at h
      · rename_i outstanding
        split at outstanding
        · cases outstanding
        · split at outstanding
          · cases outstanding
          · obtain ⟨settled, hsettled, rfl⟩ := Option.map_eq_some_iff.mp h
            cases outstanding
            exact .inl ⟨settled, hsettled, rfl⟩
      · rename_i outstanding
        obtain rfl := Option.some.inj h
        split at outstanding
        · rename_i hissued
          cases outstanding
          exact .inr (.inr ⟨swaps, hjob, hlive, .inl ⟨hissued, rfl⟩⟩)
        · rename_i issued hissued
          split at outstanding
          · rename_i hshows
            cases outstanding
            exact .inr (.inr ⟨swaps, hjob, hlive, .inr ⟨issued, hissued, hshows, rfl⟩⟩)
          · cases outstanding

theorem land_eq_some (h : s.land i = some s') : ∃ task, s.changes.tasks[i]? = some task ∧
    task.phase = .running ∧ s.landed i = false ∧
    s' = { s with
      watch := fun k ↦ if k = task.key then task.job.watch else s.watch k
      effects := ⟨i, task.key, task.job.watch⟩ :: s.effects } := by
  obtain ⟨task, htask, h⟩ := Option.bind_eq_some_iff.mp h
  split at h
  · rename_i hland
    exact ⟨task, htask, hland.1, hland.2, (Option.some.inj h).symm⟩
  · cases h

theorem answer_eq_some {done : Bool} {now : ℤ} (h : s.answer i done now = some s') :
    ∃ task changes, s.changes.tasks[i]? = some task ∧ s.changes.settle i = some changes ∧
    (s' = { s with changes := changes } ∨ task.job = .promote ∧ s.landed i = true ∧
      s' = { s with
        changes := changes
        issuedAt := fun k ↦ if k = task.key then some now else s.issuedAt k
        unfunded := (i, task.key) :: s.unfunded }) := by
  obtain ⟨task, htask, h⟩ := Option.bind_eq_some_iff.mp h
  obtain ⟨changes, hchanges, h⟩ := Option.bind_eq_some_iff.mp h
  refine ⟨task, changes, htask, hchanges, ?_⟩
  split at h
  · cases h
  · rename_i hlanded
    cases hjob : task.job with
    | retire swaps =>
      simp only [hjob] at h
      exact .inl (Option.some.inj h).symm
    | promote =>
      simp only [hjob] at h
      cases done with
      | false => exact .inl (Option.some.inj h).symm
      | true => exact .inr ⟨rfl, by simpa using hlanded, (Option.some.inj h).symm⟩

theorem retireNext_eq (s : State) (batch : ℕ) (swaps : List AssetSwap) (scripts : List String) :
    s.retireNext batch swaps scripts = s ∨ ∃ script batches, s.retireNext batch swaps scripts =
      { s with changes := s.changes.enqueue script (.retire swaps), batches := batches } := by
  cases scripts with
  | nil => exact .inl rfl
  | cons script scripts => exact .inr ⟨script, _, rfl⟩

theorem next_eq_some {batch : ℕ} (h : s.next batch = some s') : ∃ swaps scripts,
    s' = s.retireNext batch swaps scripts := by
  obtain ⟨b, -, h⟩ := Option.bind_eq_some_iff.mp h
  split at h
  · exact ⟨b.swaps, b.scripts, (Option.some.inj h).symm⟩
  · cases h

theorem record_eq_some {swap : AssetSwap} {deposit : Option ℕ}
    (h : s.record swap deposit = some s') : ∃ unfunded,
    s' = { s with
      known := swap :: s.known.filter (·.id ≠ swap.id)
      unfunded := unfunded } ∧ (∀ a ∈ unfunded, a ∈ s.unfunded) ∧
    ∀ i ∈ deposit, (i, swap.swapPkScript) ∈ s.unfunded := by
  cases deposit with
  | none => exact ⟨s.unfunded, (Option.some.inj h).symm, fun _ ↦ id, fun i hi ↦ by cases hi⟩
  | some i =>
    simp only [State.record] at h
    split at h
    · rename_i hmem
      refine ⟨_, (Option.some.inj h).symm, fun a ↦ List.mem_of_mem_erase, fun j hj ↦ ?_⟩
      obtain rfl := Option.some.inj hj
      exact hmem
    · cases h

/-- Some task of the key has left the queue. -/
def Started (c : Chains String Change) (i : ℕ) (script : String) : Prop :=
  ∃ task, c.tasks[i]? = some task ∧ task.key = script ∧ task.phase ≠ .queued

theorem Started.enqueue {c : Chains String Change} (h : Started c i script) (key : String)
    (job : Change) : Started (c.enqueue key job) i script := by
  obtain ⟨task, htask, h⟩ := h
  exact ⟨task, Chains.getElem?_enqueue.mpr (.inl htask), h⟩

theorem Started.enter {c : Chains String Change} (h : Started c i script) {phase : Phase}
    (hphase : phase ≠ .queued) : Started (c.enter j phase) i script := by
  obtain ⟨task, htask, hkey, hstarted⟩ := h
  refine ⟨_, Chains.getElem?_enter.mpr ⟨task, htask, rfl⟩, ?_⟩
  split
  · exact ⟨hkey, hphase⟩
  · exact ⟨hkey, hstarted⟩

theorem Started.start {c c' : Chains String Change} (h : Started c i script)
    (hstart : c.start j = some c') : Started c' i script := by
  obtain ⟨-, rfl⟩ := Chains.start_eq_some hstart
  exact h.enter (by simp)

theorem Started.settle {c c' : Chains String Change} (h : Started c i script)
    (hsettle : c.settle j = some c') : Started c' i script := by
  obtain ⟨-, rfl⟩ := Chains.settle_eq_some hsettle
  exact h.enter (by simp)

structure Ordered (s : State) : Prop where
  chains : s.changes.Inv
  started : ∀ e ∈ s.effects, Started s.changes e.task e.script
  order : s.effects.Pairwise fun newer older ↦ newer.script = older.script →
    older.task < newer.task

theorem Ordered.of_changes (h : Ordered s) (hchains : s'.changes.Inv)
    (heffects : s'.effects = s.effects)
    (hstarted : ∀ {i script}, Started s.changes i script → Started s'.changes i script) :
    Ordered s' := by
  refine ⟨hchains, fun e he ↦ hstarted (h.started e (heffects ▸ he)), ?_⟩
  rw [heffects]
  exact h.order

theorem Ordered.retireNext (h : Ordered s) (batch : ℕ) (swaps : List AssetSwap)
    (scripts : List String) : Ordered (s.retireNext batch swaps scripts) := by
  obtain heq | ⟨script, batches, heq⟩ := retireNext_eq s batch swaps scripts
  · rw [heq]
    exact h
  · rw [heq]
    exact h.of_changes (h.chains.enqueue _ _) rfl fun hs ↦ hs.enqueue _ _

theorem Ordered.start (h : Ordered s) (hstart : s.start i = some s') : Ordered s' := by
  obtain ⟨task, changes, -, hchanges, hcases⟩ := start_eq_some hstart
  have hrunning := h.chains.start hchanges
  have hstarted {j : ℕ} {script : String} (hj : Started s.changes j script) := hj.start hchanges
  rcases hcases with ⟨settled, hsettled, rfl⟩ | ⟨-, rfl⟩ |
    ⟨swaps, -, -, ⟨-, rfl⟩ | ⟨issued, -, -, rfl⟩⟩
  · exact h.of_changes (hrunning.settle hsettled) rfl fun hj ↦ (hstarted hj).settle hsettled
  · exact h.of_changes hrunning rfl hstarted
  · exact h.of_changes hrunning rfl hstarted
  · exact h.of_changes hrunning rfl hstarted

theorem Ordered.land (h : Ordered s) (hland : s.land i = some s') : Ordered s' := by
  obtain ⟨task, htask, hrunning, hlanded, rfl⟩ := land_eq_some hland
  refine ⟨h.chains, fun e he ↦ ?_, List.pairwise_cons.mpr ⟨fun e he hscript ↦ ?_, h.order⟩⟩
  · rcases List.mem_cons.mp he with rfl | he
    · exact ⟨task, htask, rfl, by simp [hrunning]⟩
    · exact h.started e he
  · -- an effect of a later task would have this one settled
    obtain ⟨other, hother, hkey, hstarted⟩ := h.started e he
    by_contra hle
    rcases Nat.lt_or_eq_of_le (Nat.le_of_not_lt hle) with hlt | heq
    · have := h.chains.ordered hlt htask hother (hscript.trans hkey.symm) hstarted
      simp [hrunning] at this
    · have : s.landed i = true := List.any_eq_true.mpr ⟨e, he, by simpa using heq.symm⟩
      simp [hlanded] at this

theorem step_ordered {input : Input} (h : Ordered s) (hstep : step s input = some s') :
    Ordered s' := by
  cases input with
  | promoteOfferContract script =>
    obtain rfl := Option.some.inj hstep
    exact h.of_changes (h.chains.enqueue _ _) rfl fun hs ↦ hs.enqueue _ _
  | retireOfferContract swaps script =>
    obtain rfl := Option.some.inj hstep
    exact h.of_changes (h.chains.enqueue _ _) rfl fun hs ↦ hs.enqueue _ _
  | retireSettledOfferContracts swaps =>
    obtain rfl := Option.some.inj hstep
    exact h.retireNext _ _ _
  | next batch =>
    obtain ⟨swaps, scripts, rfl⟩ := next_eq_some hstep
    exact h.retireNext _ _ _
  | start i => exact h.start hstep
  | land i => exact h.land hstep
  | answer i done now =>
    obtain ⟨task, changes, -, hchanges, rfl | ⟨-, -, rfl⟩⟩ := answer_eq_some hstep
    · exact h.of_changes (h.chains.settle hchanges) rfl fun hs ↦ hs.settle hchanges
    · exact h.of_changes (h.chains.settle hchanges) rfl fun hs ↦ hs.settle hchanges
  | cleanup i =>
    obtain ⟨changes, hchanges, rfl⟩ := Option.map_eq_some_iff.mp hstep
    have hinv := h.chains.cleanup hchanges
    obtain ⟨task, -, -, rfl⟩ := Chains.cleanup_eq_some hchanges
    exact h.of_changes hinv rfl id
  | record swap deposit =>
    obtain ⟨unfunded, rfl, -⟩ := record_eq_some hstep
    exact h.of_changes h.chains rfl id

def Running (s : State) (i : ℕ) (script : String) (change : Change) : Prop :=
  ∃ task, s.changes.tasks[i]? = some task ∧ task.key = script ∧ task.job = change ∧
    task.phase = .running

structure Inv (s : State) : Prop where
  ordered : Ordered s
  marked : ∀ {j script}, (j, script) ∈ s.unfunded → s.issuedAt script ≠ none
  watched : ∀ {script}, Held s script → s.watch script = .watched
  promoting : ∀ {i script}, Running s i script .promote → s.landed i = true →
    s.watch script = .watched
  retiring : ∀ {i script swaps}, Running s i script (.retire swaps) → ¬Held s script

theorem Inv.of_changes (h : Inv s) (hordered : Ordered s') (hunfunded : s'.unfunded = s.unfunded)
    (hissued : s'.issuedAt = s.issuedAt) (hwatch : s'.watch = s.watch) (hknown : s'.known = s.known)
    (heffects : s'.effects = s.effects)
    (hrunning : ∀ {i script change}, Running s' i script change → Running s i script change) :
    Inv s' := by
  have hheld {script : String} : Held s' script → Held s script := by
    unfold Held
    rw [hunfunded, hknown]
    exact id
  refine ⟨hordered, ?_, ?_, ?_, ?_⟩
  · intro j script hj
    rw [hissued]
    exact h.marked (hunfunded ▸ hj)
  · intro script hs
    rw [hwatch]
    exact h.watched (hheld hs)
  · intro i script hi hlanded
    rw [hwatch]
    refine h.promoting (hrunning hi) ?_
    rw [State.landed, heffects] at hlanded
    exact hlanded
  · intro i script swaps hi hs
    exact h.retiring (hrunning hi) (hheld hs)

theorem running_enqueue {key : String} {job change : Change} {batches : List Batch}
    (h : Running { s with changes := s.changes.enqueue key job, batches := batches } i script
      change) : Running s i script change := by
  obtain ⟨task, htask, hkey, hjob, hrunning⟩ := h
  exact ⟨task, Chains.running_enqueue htask hrunning, hkey, hjob, hrunning⟩

theorem Inv.retireNext (h : Inv s) (batch : ℕ) (swaps : List AssetSwap) (scripts : List String) :
    Inv (s.retireNext batch swaps scripts) := by
  have hordered := h.ordered.retireNext batch swaps scripts
  obtain heq | ⟨script, batches, heq⟩ := retireNext_eq s batch swaps scripts
  · rw [heq]
    exact h
  · rw [heq] at hordered ⊢
    exact h.of_changes hordered rfl rfl rfl rfl rfl running_enqueue

theorem running_start {changes : Chains String Change} {task : Task String Change}
    {change : Change} (htask : s.changes.tasks[i]? = some task)
    (hstart : s.changes.start i = some changes) (hchanges : s'.changes = changes)
    (h : Running s' j script change) : Running s j script change ∨
      j = i ∧ task.key = script ∧ task.job = change := by
  obtain ⟨after, hafter, hkey, hjob, hrunning⟩ := h
  rw [hchanges] at hafter
  obtain ⟨-, hbefore⟩ | ⟨rfl, before, hbefore, -, rfl⟩ :=
    Chains.running_start hstart hafter hrunning
  · exact .inl ⟨after, hbefore, hkey, hjob, hrunning⟩
  · obtain rfl := Option.some.inj (htask.symm.trans hbefore)
    exact .inr ⟨rfl, hkey, hjob⟩

theorem Ordered.landed_of_queued (h : Ordered s) {task : Task String Change}
    (htask : s.changes.tasks[i]? = some task) (hqueued : task.phase = .queued) :
    s.landed i = false := by
  by_contra hlanded
  have hlanded : s.landed i = true := by simpa using hlanded
  obtain ⟨e, he, hei⟩ := List.any_eq_true.mp hlanded
  obtain ⟨started, hstarted, -, hphase⟩ := h.started e he
  rw [decide_eq_true_iff.mp hei] at hstarted
  exact hphase (Option.some.inj (htask.symm.trans hstarted) ▸ hqueued)

theorem Inv.start (h : Inv s) (hok : Meets s (.start i)) (hstart : s.start i = some s') :
    Inv s' := by
  have hordered := h.ordered.start hstart
  obtain ⟨task, changes, htask, hchanges, hcases⟩ := start_eq_some hstart
  obtain ⟨⟨queued, hqueued, hphase, -⟩, -⟩ := Chains.start_eq_some hchanges
  have hunlanded := h.ordered.landed_of_queued hqueued hphase
  have hrunning := @running_start s
  -- a retirement that is to be written has found its script free
  have hretire {swaps : List AssetSwap} (hjob : task.job = .retire swaps)
      (hlive : live swaps task.key = false) (hmark : ∀ issued, s.issuedAt task.key = some issued →
        shows swaps task.key issued = true) : ¬Held s task.key := by
    obtain ⟨hknown, hcleared⟩ := hok task swaps htask hjob hlive
    rintro (⟨j, hj⟩ | hheld)
    · obtain ⟨issued, hissued⟩ := Option.ne_none_iff_exists'.mp (h.marked hj)
      exact hcleared issued hissued (hmark issued hissued) j hj
    · simp [hknown] at hheld
  rcases hcases with ⟨settled, hsettled, rfl⟩ | ⟨hjob, rfl⟩ |
    ⟨swaps, hjob, hlive, ⟨hissued, rfl⟩ | ⟨issued, hissued, hshows, rfl⟩⟩
  · refine h.of_changes hordered rfl rfl rfl rfl rfl ?_
    rintro j script change ⟨after, hafter, hkey, hjob, hphase'⟩
    obtain ⟨hij, hafter⟩ := Chains.running_settle hsettled hafter hphase'
    obtain ⟨-, hbefore⟩ | ⟨rfl, -⟩ := Chains.running_start hchanges hafter hphase'
    · exact ⟨after, hbefore, hkey, hjob, hphase'⟩
    · exact absurd rfl hij
  · refine ⟨hordered, h.marked, h.watched, fun {j script} hj hlanded ↦ ?_,
      fun {j script swaps} hj hheld ↦ ?_⟩
    · obtain hj | ⟨rfl, -⟩ := hrunning htask hchanges rfl hj
      · exact h.promoting hj hlanded
      · exact absurd hlanded (by simpa [State.landed] using hunlanded)
    · obtain hj | ⟨-, -, hjob'⟩ := hrunning htask hchanges rfl hj
      · exact h.retiring hj hheld
      · rw [hjob] at hjob'
        cases hjob'
  · refine ⟨hordered, h.marked, h.watched, fun {j script} hj hlanded ↦ ?_,
      fun {j script swaps} hj hheld ↦ ?_⟩
    · obtain hj | ⟨-, -, hjob'⟩ := hrunning htask hchanges rfl hj
      · exact h.promoting hj hlanded
      · rw [hjob] at hjob'
        cases hjob'
    · obtain hj | ⟨-, rfl, -⟩ := hrunning htask hchanges rfl hj
      · exact h.retiring hj hheld
      · exact hretire hjob hlive (by simp [hissued]) hheld
  · have hfree := hretire hjob hlive fun issued' hissued' ↦ by
      obtain rfl := Option.some.inj (hissued.symm.trans hissued')
      exact hshows
    refine ⟨hordered, fun {j script} hj ↦ ?_, h.watched, fun {j script} hj hlanded ↦ ?_,
      fun {j script swaps} hj hheld ↦ ?_⟩
    · dsimp only
      split
      · rename_i hscript
        exact absurd (.inl ⟨j, hscript ▸ hj⟩) hfree
      · exact h.marked hj
    · obtain hj | ⟨-, -, hjob'⟩ := hrunning htask hchanges rfl hj
      · exact h.promoting hj hlanded
      · rw [hjob] at hjob'
        cases hjob'
    · obtain hj | ⟨-, rfl, -⟩ := hrunning htask hchanges rfl hj
      · exact h.retiring hj hheld
      · exact hfree hheld

theorem Inv.land (h : Inv s) (hland : s.land i = some s') : Inv s' := by
  have hordered := h.ordered.land hland
  obtain ⟨task, htask, hphase, hlanded, rfl⟩ := land_eq_some hland
  refine ⟨hordered, h.marked, fun {script} hheld ↦ ?_, fun {j script} hj hlanded' ↦ ?_,
    fun hj hheld ↦ h.retiring hj hheld⟩
  · dsimp only
    split
    · rename_i hscript
      cases hjob : task.job with
      | promote => rfl
      | retire swaps =>
        exact absurd hheld (h.retiring ⟨task, htask, hscript.symm, hjob, hphase⟩)
    · exact h.watched hheld
  · obtain ⟨running, hrunning, hkey, hjob, hphase'⟩ := hj
    dsimp only
    split
    · rename_i hscript
      obtain rfl := h.ordered.chains.running_unique htask hrunning (by rw [hkey, hscript]) hphase
        hphase'
      obtain rfl := Option.some.inj (htask.symm.trans hrunning)
      rw [hjob]
      rfl
    · rename_i hscript
      refine h.promoting ⟨running, hrunning, hkey, hjob, hphase'⟩ ?_
      have hij : i ≠ j := by
        rintro rfl
        exact hscript (by rw [← hkey, Option.some.inj (htask.symm.trans hrunning)])
      simpa [State.landed, hij] using hlanded'

theorem Inv.answer (h : Inv s) {done : Bool} {now : ℤ} (hanswer : s.answer i done now = some s')
    (hordered : Ordered s') : Inv s' := by
  obtain ⟨task, changes, htask, hchanges, hcases⟩ := answer_eq_some hanswer
  obtain ⟨⟨running, hrunning, hphase⟩, -⟩ := Chains.settle_eq_some hchanges
  obtain rfl := Option.some.inj (htask.symm.trans hrunning)
  have hbefore {t : State} (ht : t.changes = changes) {j : ℕ} {script : String} {change : Change}
      (hj : Running t j script change) : i ≠ j ∧ Running s j script change := by
    obtain ⟨after, hafter, hkey, hjob, hphase'⟩ := hj
    rw [ht] at hafter
    obtain ⟨hij, hbefore⟩ := Chains.running_settle hchanges hafter hphase'
    exact ⟨hij, after, hbefore, hkey, hjob, hphase'⟩
  rcases hcases with rfl | ⟨hjob, hlanded, rfl⟩
  · exact h.of_changes hordered rfl rfl rfl rfl rfl fun hj ↦ (hbefore rfl hj).2
  · have hwatched := h.promoting ⟨task, htask, rfl, hjob, hphase⟩ hlanded
    refine ⟨hordered, fun {j script} hj ↦ ?_, fun {script} hheld ↦ ?_,
      fun {j script} hj hlanded ↦ h.promoting (hbefore rfl hj).2 hlanded,
      fun {j script swaps} hj hheld ↦ ?_⟩
    · dsimp only
      split
      · simp
      · rename_i hscript
        rcases List.mem_cons.mp hj with hj | hj
        · exact absurd (congrArg Prod.snd hj) hscript
        · exact h.marked hj
    · by_cases hscript : script = task.key
      · rw [hscript]
        exact hwatched
      · refine h.watched (hheld.imp_left fun ⟨j, hj⟩ ↦ ⟨j, ?_⟩)
        exact (List.mem_cons.mp hj).resolve_left fun hj ↦ hscript (congrArg Prod.snd hj)
    · obtain ⟨hij, after, hafter, hkey, hjob', hphase'⟩ := hbefore rfl hj
      by_cases hscript : script = task.key
      · -- the retirement would run beside the promotion
        exact hij (h.ordered.chains.running_unique htask hafter (by rw [hkey, hscript]) hphase
          hphase')
      · refine h.retiring ⟨after, hafter, hkey, hjob', hphase'⟩
          (hheld.imp_left fun ⟨j, hj⟩ ↦ ⟨j, ?_⟩)
        exact (List.mem_cons.mp hj).resolve_left fun hj ↦ hscript (congrArg Prod.snd hj)

theorem Inv.record (h : Inv s) {swap : AssetSwap} {deposit : Option ℕ}
    (hok : Meets s (.record swap deposit)) (hrecord : s.record swap deposit = some s')
    (hordered : Ordered s') : Inv s' := by
  obtain ⟨unfunded, rfl, hsub, hdeposit⟩ := record_eq_some hrecord
  have hheld {script : String} (h : Held { s with
      known := swap :: s.known.filter (·.id ≠ swap.id), unfunded := unfunded } script) :
      Held s script := by
    rcases h with ⟨j, hj⟩ | hlive
    · exact .inl ⟨j, hsub _ hj⟩
    · obtain ⟨r, hr, hrlive⟩ := List.any_eq_true.mp hlive
      rcases List.mem_cons.mp hr with rfl | hr
      · have hrlive := (Bool.and_eq_true _ _).mp hrlive
        obtain rfl := decide_eq_true_iff.mp hrlive.1
        rcases hok (by simpa using hrlive.2) with hsome | hknown
        · obtain ⟨i, hi⟩ := Option.isSome_iff_exists.mp hsome
          exact .inl ⟨i, hdeposit i hi⟩
        · exact .inr hknown
      · exact .inr (List.any_eq_true.mpr ⟨r, (List.mem_filter.mp hr).1, hrlive⟩)
  exact ⟨hordered, fun hj ↦ h.marked (hsub _ hj), fun hs ↦ h.watched (hheld hs), h.promoting,
    fun hj hs ↦ h.retiring hj (hheld hs)⟩

theorem step_inv {input : Input} (h : Inv s) (hok : Meets s input)
    (hstep : step s input = some s') : Inv s' := by
  have hordered := step_ordered h.ordered hstep
  cases input with
  | promoteOfferContract script =>
    obtain rfl := Option.some.inj hstep
    exact h.of_changes hordered rfl rfl rfl rfl rfl running_enqueue
  | retireOfferContract swaps script =>
    obtain rfl := Option.some.inj hstep
    exact h.of_changes hordered rfl rfl rfl rfl rfl running_enqueue
  | retireSettledOfferContracts swaps =>
    obtain rfl := Option.some.inj hstep
    exact h.retireNext _ _ _
  | next batch =>
    obtain ⟨swaps, scripts, rfl⟩ := next_eq_some hstep
    exact h.retireNext _ _ _
  | start i => exact h.start hok hstep
  | land i => exact h.land hstep
  | answer i done now => exact h.answer hstep hordered
  | cleanup i =>
    obtain ⟨changes, hchanges, rfl⟩ := Option.map_eq_some_iff.mp hstep
    obtain ⟨task, -, -, rfl⟩ := Chains.cleanup_eq_some hchanges
    exact h.of_changes hordered rfl rfl rfl rfl rfl id
  | record swap deposit => exact h.record hok hstep hordered

/-- A process that has handed out no address, whose records' scripts are watched. -/
structure Fresh (s : State) : Prop where
  changes : s.changes = ⟨[], fun _ ↦ none⟩
  effects : s.effects = []
  unfunded : s.unfunded = []
  watched : ∀ {script}, live s.known script = true → s.watch script = .watched

theorem Fresh.ordered (h : Fresh s) : Ordered s := by
  refine ⟨?_, ?_, ?_⟩
  · rw [h.changes]
    exact Chains.inv_empty
  · simp [h.effects]
  · simp [h.effects]

theorem Fresh.inv (h : Fresh s) : Inv s := by
  have hidle {i : ℕ} {script : String} {change : Change} : ¬Running s i script change := by
    rintro ⟨task, htask, -⟩
    simp [h.changes] at htask
  refine ⟨h.ordered, by simp [h.unfunded], fun {script} hheld ↦ ?_, fun hi ↦ absurd hi hidle,
    fun hi ↦ absurd hi hidle⟩
  rcases hheld with ⟨j, hj⟩ | hlive
  · simp [h.unfunded] at hj
  · exact h.watched hlive

theorem start_isSome {task : Task String Change} (htask : s.changes.tasks[i]? = some task)
    (h : (s.changes.start i).isSome = true) : (s.start i).isSome = true := by
  obtain ⟨changes, hchanges⟩ := Option.isSome_iff_exists.mp h
  have hsettle : (changes.settle i).isSome = true := by
    obtain ⟨-, rfl⟩ := Chains.start_eq_some hchanges
    have hrunning : (s.changes.enter i .running).tasks[i]? = some { task with phase := .running } :=
      Chains.getElem?_enter.mpr ⟨task, htask, by simp⟩
    simp [Chains.settle, hrunning]
  unfold State.start
  simp only [htask, hchanges, Option.bind_some]
  split
  · rfl
  · split
    · simpa using hsettle
    · split
      · simpa using hsettle
      · rfl

theorem answer_isSome {task : Task String Change} (htask : s.changes.tasks[i]? = some task)
    (hrunning : task.phase = .running) (now : ℤ) : (s.answer i false now).isSome = true := by
  have hsettle : s.changes.settle i = some (s.changes.enter i .settled) := by
    simp [Chains.settle, htask, hrunning]
  unfold State.answer
  simp only [htask, hsettle, Option.bind_some]
  cases task.job <;> simp

/-- In every run, the changes of a script take effect in call order, each is free to run once those
before it have settled, in whatever way, and a call may fail at any time. Where retirements are
given lists that are right, and clear no mark of an address without its deposit, a script that is
held is watched. -/
theorem held_watched (hs : Fresh s) :
    (∀ t, Run step (fun _ _ ↦ True) s t →
      t.effects.Pairwise (fun newer older ↦ newer.script = older.script →
        older.task < newer.task) ∧
      (∀ i task, t.changes.tasks[i]? = some task → task.phase = .queued →
        (∀ j earlier, j < i → t.changes.tasks[j]? = some earlier → earlier.key = task.key →
          earlier.phase = .settled) → (t.start i).isSome = true) ∧
      ∀ i task, t.changes.tasks[i]? = some task → task.phase = .running →
        ∀ now, (t.answer i false now).isSome = true) ∧
    ∀ t, Run step Meets s t → ∀ script, Held t script → t.watch script = .watched := by
  refine ⟨fun t ht ↦ ?_, fun t ht script hheld ↦ ?_⟩
  · have hordered : Ordered t := ht.invariant (fun _ _ _ h _ ↦ step_ordered h) hs.ordered
    exact ⟨hordered.order, fun i task htask hqueued hbefore ↦ start_isSome htask
        (hordered.chains.start_isSome htask hqueued fun hj ↦ hbefore _ _ hj),
      fun i task htask hrunning ↦ answer_isSome htask hrunning⟩
  · have hinv : Inv t := ht.invariant (fun _ _ _ ↦ step_inv) hs.inv
    exact hinv.watched hheld

/-- A record of the script `51`. -/
def swapAt (id : String) (status : AssetSwapStatus) (createdAt : ℤ) : AssetSwap where
  id := id
  fromAsset := "btc"
  toAsset := "asset"
  fromAmount := "10000"
  toAmount := "50000"
  swapAddress := ""
  swapPkScript := "51"
  offerHex := "00"
  fundingTxid := id
  spentTxid := none
  status := status
  createdAt := createdAt
  completedAt := none

/-- A process with some records. -/
def loaded (known : List AssetSwap) : State :=
  ⟨⟨[], fun _ ↦ none⟩, [], fun _ ↦ none, fun _ ↦ .watched, [], known, []⟩

theorem loaded_fresh (known : List AssetSwap) : Fresh (loaded known) :=
  ⟨rfl, rfl, rfl, fun _ ↦ rfl⟩

/-- The script is promoted, and a settled swap of before says nothing about it. -/
def promotion : List Input :=
  [.promoteOfferContract "51", .retireOfferContract [swapAt "aa" .fulfilled 1] "51", .start 0,
    .land 0, .answer 0 true 2, .start 1]

theorem promotion_along : Along step Meets (loaded [swapAt "aa" .fulfilled 1]) promotion := by
  -- only the retirement's decision is under a condition
  iterate 2
    refine ⟨trivial, fun t ht ↦ ?_⟩
    obtain rfl := Option.some.inj ht
  refine ⟨fun task swaps htask hjob ↦ ?_, fun t ht ↦ ?_⟩
  · obtain rfl := Option.some.inj htask
    cases hjob
  obtain rfl := Option.some.inj ht
  iterate 2
    refine ⟨trivial, fun t ht ↦ ?_⟩
    obtain rfl := Option.some.inj ht
  refine ⟨fun task swaps htask hjob _ ↦ ?_, fun _ _ ↦ trivial⟩
  obtain rfl := Option.some.inj htask
  obtain rfl := Change.retire.inj hjob
  refine ⟨by decide, fun issued hissued hshows ↦ ?_⟩
  obtain rfl := Option.some.inj hissued
  exact absurd hshows (by decide)

theorem promotion_watched : ∃ t, Run step Meets (loaded [swapAt "aa" .fulfilled 1]) t ∧
    (0, "51") ∈ t.unfunded ∧ t.watch "51" = .watched := by
  obtain ⟨t, ht, hunfunded⟩ : ∃ t, exec step (loaded [swapAt "aa" .fulfilled 1]) promotion =
      some t ∧ (0, "51") ∈ t.unfunded := ⟨_, rfl, by decide⟩
  have hrun := run_of_exec ht promotion_along
  exact ⟨t, hrun, hunfunded, (held_watched (loaded_fresh _)).2 t hrun "51" (.inl ⟨0, hunfunded⟩)⟩

/-- A list from before a deposit was found lets its script be retired. So does the record of the
first of two addresses at one script, while the second waits for its deposit. -/
theorem retire_unwatches :
    (∃ t, exec step (loaded [swapAt "bb" .pending 2, swapAt "aa" .fulfilled 1])
        [.retireOfferContract [swapAt "aa" .fulfilled 1] "51", .start 0, .land 0] = some t ∧
      live t.known "51" = true ∧ t.watch "51" = .retained) ∧
    ∃ t, exec step (loaded [])
        [.promoteOfferContract "51", .start 0, .land 0, .answer 0 true 1,
          .promoteOfferContract "51", .start 1, .land 1, .answer 1 true 2,
          .record (swapAt "aa" .fulfilled 3) (some 0),
          .retireOfferContract [swapAt "aa" .fulfilled 3] "51", .start 2, .land 2] = some t ∧
      (1, "51") ∈ t.unfunded ∧ t.watch "51" = .retained := by
  refine ⟨⟨_, rfl, ?_⟩, _, rfl, ?_⟩
  · decide
  · decide

end ArkadeSdk.Coverage
