import ArkadeSdk.Providers.RateGate
import Mathlib.Tactic.Linarith

/-! What the gate keeps, however its callers are interleaved. -/

namespace ArkadeSdk.RateGate

open LabelledRun SlotQueue

variable {Origin : Type}

namespace Gate

variable {g : Gate Origin} {call call' : Call Origin} {origin origin' : Origin} {p : Phase}
variable {slots : Slots (Call Origin)} {book : Book (Call Origin)} {happening : Happening Origin}

@[simp] theorem log_phase : (g.log happening).phase = g.phase := rfl

@[simp] theorem log_slots : (g.log happening).slots = g.slots := rfl

@[simp] theorem log_books : (g.log happening).books = g.books := rfl

@[simp] theorem log_blockedUntil : (g.log happening).blockedUntil = g.blockedUntil := rfl

@[simp] theorem log_now : (g.log happening).now = g.now := rfl

@[simp] theorem log_history : (g.log happening).history = happening :: g.history := rfl

variable [DecidableEq Origin]

@[simp] theorem setPhase_phase_self : (g.setPhase call p).phase call = p := by
  simp [setPhase]

@[simp] theorem setPhase_phase_of_ne (h : call' ≠ call) :
    (g.setPhase call p).phase call' = g.phase call' := by
  simp [setPhase, h]

@[simp] theorem setPhase_slots : (g.setPhase call p).slots = g.slots := rfl

@[simp] theorem setPhase_books : (g.setPhase call p).books = g.books := rfl

@[simp] theorem setPhase_blockedUntil : (g.setPhase call p).blockedUntil = g.blockedUntil := rfl

@[simp] theorem setPhase_now : (g.setPhase call p).now = g.now := rfl

@[simp] theorem setPhase_history : (g.setPhase call p).history = g.history := rfl

@[simp] theorem setSlots_slots_self : (g.setSlots origin slots book).slots origin = slots := by
  simp [Gate.slots, setSlots]

@[simp] theorem setSlots_slots_of_ne (h : origin' ≠ origin) :
    (g.setSlots origin slots book).slots origin' = g.slots origin' := by
  simp [Gate.slots, setSlots, h]

@[simp] theorem setSlots_books_self : (g.setSlots origin slots book).books origin = book := by
  simp [setSlots]

@[simp] theorem setSlots_books_of_ne (h : origin' ≠ origin) :
    (g.setSlots origin slots book).books origin' = g.books origin' := by
  simp [setSlots, h]

@[simp] theorem setSlots_blockedUntil :
    (g.setSlots origin slots book).blockedUntil = g.blockedUntil := by
  funext o
  by_cases h : o = origin
  · subst h
    simp [blockedUntil, setSlots]
  · simp [blockedUntil, setSlots, h]

@[simp] theorem block_slots {blocked : ℚ} : (g.block origin blocked).slots = g.slots := by
  funext o
  by_cases h : o = origin
  · subst h
    simp [Gate.slots, block]
  · simp [Gate.slots, block, h]

theorem block_blockedUntil {blocked : ℚ} : (g.block origin blocked).blockedUntil origin' =
    if origin' = origin then blocked else g.blockedUntil origin' := by
  by_cases h : origin' = origin
  · subst h
    simp [blockedUntil, block]
  · simp [blockedUntil, block, h]

@[simp] theorem setSlots_phase : (g.setSlots origin slots book).phase = g.phase := rfl

@[simp] theorem setSlots_now : (g.setSlots origin slots book).now = g.now := rfl

@[simp] theorem setSlots_history : (g.setSlots origin slots book).history = g.history := rfl

end Gate

def Placed (slots : Slots (Call Origin)) (book : Book (Call Origin))
    (history : List (Happening Origin)) (call : Call Origin) : Phase → Prop
  | .idle => call ∉ book.arrived
  | .parked => call ∈ slots.queue
  | .waiting | .sent => call ∈ book.holders
  | .settled limited => call ∈ book.holders ∧ (limited = true →
      ∃ t cooldownEnd, .reported call.origin t cooldownEnd (some call) ∈ history)
  | .released => call ∈ book.granted ∧ call ∉ book.holders

section Placed

variable {slots : Slots (Call Origin)} {book : Book (Call Origin)}
variable {history : List (Happening Origin)} {call c : Call Origin} {p : Phase}

theorem Placed.log (h : Placed slots book history call p) (happening : Happening Origin) :
    Placed slots book (happening :: history) call p := by
  cases p with
  | settled limited =>
    refine ⟨h.1, fun hlimited ↦ ?_⟩
    obtain ⟨t, cooldownEnd, hmem⟩ := h.2 hlimited
    exact ⟨t, cooldownEnd, List.mem_cons_of_mem _ hmem⟩
  | _ => exact h

theorem Placed.acquire (h : Placed slots book history c p) (hne : c ≠ call) (max : ℕ) :
    Placed (slots.acquire max call) (book.acquire (slots.hasFree max) call) history c p := by
  unfold Slots.acquire Book.acquire
  split
  · cases p with
    | idle => exact fun hmem ↦ h ((List.mem_append.mp hmem).resolve_right (by simpa using hne))
    | parked => exact h
    | waiting => exact List.mem_cons_of_mem _ h
    | sent => exact List.mem_cons_of_mem _ h
    | settled limited => exact ⟨List.mem_cons_of_mem _ h.1, h.2⟩
    | released =>
      exact ⟨List.mem_append_left _ h.1, fun hmem ↦ h.2 ((List.mem_cons.mp hmem).resolve_left hne)⟩
  · cases p with
    | idle => exact fun hmem ↦ h ((List.mem_append.mp hmem).resolve_right (by simpa using hne))
    | parked => exact List.mem_append_left _ h
    | waiting => exact h
    | sent => exact h
    | settled limited => exact h
    | released => exact h

end Placed

variable [DecidableEq Origin]

/-- What is sent is sent after every cooldown reported by then, and a call that was refused has
reported it when it gives up its slot. -/
def Right : Happening Origin → List (Happening Origin) → Prop
  | .sent call time, before => ∀ t cooldownEnd source,
      .reported call.origin t cooldownEnd source ∈ before → cooldownEnd ≤ time
  | .released call limited, before => limited = true →
      ∃ t cooldownEnd, .reported call.origin t cooldownEnd (some call) ∈ before
  | .reported .., _ => True

def latestReport (origin : Origin) : List (Happening Origin) → Option ℚ
  | [] => none
  | .reported o time _ _ :: history => if o = origin then some time else latestReport origin history
  | _ :: history => latestReport origin history

variable (options : RateGateOptions)

/-- The origin is not blocked, or not for longer than a cooldown after the latest report. -/
def BlockedNear (blockedUntil : ℚ) (latest : Option ℚ) : Prop :=
  blockedUntil = 0 ∨ ∃ time, latest = some time ∧ blockedUntil ≤ time + options.maxCooldownMs

structure Inv (g : Gate Origin) : Prop where
  kept : ∀ o, Kept options.maxConcurrent (g.slots o) (g.books o)
  origin : ∀ o, ∀ call ∈ (g.books o).arrived, call.origin = o
  placed : ∀ call, Placed (g.slots call.origin) (g.books call.origin) g.history call (g.phase call)
  reported : ∀ o t cooldownEnd source, .reported o t cooldownEnd source ∈ g.history →
    cooldownEnd ≤ g.blockedUntil o ∧ t ≤ g.now
  latest : ∀ o t, latestReport o g.history = some t → t ≤ g.now
  near : ∀ o, BlockedNear options (g.blockedUntil o) (latestReport o g.history)
  chronicle : Chronicle Right g.history

variable {options} {g : Gate Origin} {call : Call Origin}

theorem inv_initial (now : ℚ) : Inv options (Gate.initial now : Gate Origin) where
  kept _ := kept_empty
  origin _ _ h := absurd h List.not_mem_nil
  placed _ := List.not_mem_nil
  reported _ _ _ _ h := absurd h List.not_mem_nil
  latest _ _ h := by cases h
  near _ := .inl rfl
  chronicle := trivial

/-- A call that holds a slot is among the holders, and the other way round. -/
theorem Inv.holds_iff (h : Inv options g) :
    (g.phase call).holdsSlot = true ↔ call ∈ (g.books call.origin).holders := by
  have hplaced := h.placed call
  have hkept := h.kept call.origin
  cases hphase : g.phase call with
  | idle =>
    rw [hphase] at hplaced
    exact iff_of_false Bool.false_ne_true
      fun hmem ↦ hplaced (hkept.granted_subset (hkept.holders_subset hmem))
  | parked =>
    rw [hphase] at hplaced
    exact iff_of_false Bool.false_ne_true
      fun hmem ↦ hkept.notMem_queue (hkept.holders_subset hmem) hplaced
  | waiting =>
    rw [hphase] at hplaced
    exact iff_of_true rfl hplaced
  | sent =>
    rw [hphase] at hplaced
    exact iff_of_true rfl hplaced
  | settled limited =>
    rw [hphase] at hplaced
    exact iff_of_true rfl hplaced.1
  | released =>
    rw [hphase] at hplaced
    exact iff_of_false Bool.false_ne_true hplaced.2

theorem Inv.parked_iff (h : Inv options g) :
    g.phase call = .parked ↔ call ∈ (g.slots call.origin).queue := by
  have hplaced := h.placed call
  have hkept := h.kept call.origin
  constructor
  · intro hphase
    rw [hphase] at hplaced
    exact hplaced
  · intro hmem
    have hgranted : call ∉ (g.books call.origin).granted :=
      fun hgranted ↦ hkept.notMem_queue hgranted hmem
    cases hphase : g.phase call with
    | parked => rfl
    | idle =>
      rw [hphase] at hplaced
      exact absurd (hkept.queue_subset hmem) hplaced
    | released =>
      rw [hphase] at hplaced
      exact absurd hplaced.1 hgranted
    | _ =>
      have hholds := h.holds_iff.mp (show (g.phase call).holdsSlot = true by rw [hphase]; rfl)
      exact absurd (hkept.holders_subset hholds) hgranted

theorem Inv.later (h : Inv options g) {now : ℚ} (hnow : g.now ≤ now) :
    Inv options { g with now := now } where
  kept := h.kept
  origin := h.origin
  placed := h.placed
  reported o t e s hmem := ⟨(h.reported o t e s hmem).1, (h.reported o t e s hmem).2.trans hnow⟩
  latest o t ht := (h.latest o t ht).trans hnow
  near := h.near
  chronicle := h.chronicle

theorem Inv.setPhase (h : Inv options g) {p : Phase}
    (hp : Placed (g.slots call.origin) (g.books call.origin) g.history call p) :
    Inv options (g.setPhase call p) where
  kept := h.kept
  origin := h.origin
  placed c := by
    by_cases hc : c = call
    · subst hc
      rw [Gate.setPhase_phase_self]
      exact hp
    · rw [Gate.setPhase_phase_of_ne hc]
      exact h.placed c
  reported := h.reported
  latest := h.latest
  near := h.near
  chronicle := h.chronicle

theorem Inv.log (h : Inv options g) {happening : Happening Origin}
    (hno : ∀ o t e s, happening ≠ .reported o t e s) (hright : Right happening g.history) :
    Inv options (g.log happening) where
  kept := h.kept
  origin := h.origin
  placed c := (h.placed c).log happening
  reported o t e s hmem := by
    rcases List.mem_cons.mp hmem with heq | hmem
    · exact absurd heq.symm (hno o t e s)
    · exact h.reported o t e s hmem
  latest o t ht := by
    cases happening with
    | reported o t e s => exact absurd rfl (hno o t e s)
    | sent c time => exact h.latest o t ht
    | released c limited => exact h.latest o t ht
  near o := by
    cases happening with
    | reported o t e s => exact absurd rfl (hno o t e s)
    | sent c time => exact h.near o
    | released c limited => exact h.near o
  chronicle := ⟨hright, h.chronicle⟩

section Placed

variable {slots : Slots (Call Origin)} {book : Book (Call Origin)}
variable {history : List (Happening Origin)} {c : Call Origin} {p : Phase}

theorem Placed.release (h : Placed slots book history c p) (hne : c ≠ call)
    (hnext : c ∉ slots.queue.head?) :
    Placed slots.release (book.release call slots.queue.head?) history c p := by
  unfold Slots.release Book.release
  split
  · next hqueue =>
    rw [hqueue]
    cases p with
    | idle => exact h
    | parked =>
      rw [Placed, hqueue] at h
      cases h
    | waiting => exact (List.mem_erase_of_ne hne).mpr h
    | sent => exact (List.mem_erase_of_ne hne).mpr h
    | settled limited => exact ⟨(List.mem_erase_of_ne hne).mpr h.1, h.2⟩
    | released => exact ⟨h.1, fun hmem ↦ h.2 (List.mem_of_mem_erase hmem)⟩
  · next next queue hqueue =>
    rw [hqueue] at hnext ⊢
    have hne' : c ≠ next := fun heq ↦ hnext (by rw [heq]; exact rfl)
    cases p with
    | idle => exact h
    | parked =>
      rw [Placed, hqueue] at h
      exact (List.mem_cons.mp h).resolve_left hne'
    | waiting => exact List.mem_cons_of_mem _ ((List.mem_erase_of_ne hne).mpr h)
    | sent => exact List.mem_cons_of_mem _ ((List.mem_erase_of_ne hne).mpr h)
    | settled limited => exact ⟨List.mem_cons_of_mem _ ((List.mem_erase_of_ne hne).mpr h.1), h.2⟩
    | released =>
      refine ⟨List.mem_append_left _ h.1, fun hmem ↦ ?_⟩
      exact h.2 (List.mem_of_mem_erase ((List.mem_cons.mp hmem).resolve_left hne'))

end Placed

theorem Inv.acquire (h : Inv options g) (hidle : g.phase call = .idle) :
    Inv options (acquire options g call) := by
  have hnew : call ∉ (g.books call.origin).arrived := by
    have hplaced := h.placed call
    rw [hidle] at hplaced
    exact hplaced
  have hkept := (h.kept call.origin).acquire hnew
  unfold RateGate.acquire
  exact {
    kept := fun o ↦ by
      by_cases ho : o = call.origin
      · subst ho
        simpa using hkept
      · simpa [ho] using h.kept o
    origin := fun o c hc ↦ by
      by_cases ho : o = call.origin
      · subst ho
        simp only [Gate.setPhase_books, Gate.setSlots_books_self] at hc
        have hc' : c ∈ (g.books call.origin).arrived ++ [call] := by
          unfold Book.acquire at hc
          split at hc <;> exact hc
        rcases List.mem_append.mp hc' with hc | hc
        · exact h.origin _ c hc
        · rw [List.mem_singleton.mp hc]
      · simp only [Gate.setPhase_books, Gate.setSlots_books_of_ne ho] at hc
        exact h.origin o c hc
    placed := fun c ↦ by
      by_cases hc : c = call
      · subst hc
        simp only [Gate.setPhase_phase_self, Gate.setPhase_slots, Gate.setPhase_books,
          Gate.setSlots_slots_self, Gate.setSlots_books_self]
        unfold Slots.acquire Book.acquire
        split
        · exact List.mem_cons_self
        · exact List.mem_append_right _ List.mem_cons_self
      · simp only [Gate.setPhase_phase_of_ne hc, Gate.setPhase_slots, Gate.setPhase_books,
          Gate.setSlots_phase, Gate.setPhase_history, Gate.setSlots_history]
        by_cases ho : c.origin = call.origin
        · simp only [ho, Gate.setSlots_slots_self, Gate.setSlots_books_self]
          exact (ho ▸ h.placed c).acquire hc _
        · simp only [Gate.setSlots_slots_of_ne ho, Gate.setSlots_books_of_ne ho]
          exact h.placed c
    reported := by simpa using h.reported
    latest := h.latest
    near := by simpa using h.near
    chronicle := h.chronicle }

/-- The slot is given up, and the one who gets it is not yet on its way. -/
theorem Inv.placed_giveBack (h : Inv options g) {limited : Bool}
    (hphase : g.phase call = .settled limited) {c : Call Origin}
    (hnext : c ∉ (g.slots call.origin).queue.head?) :
    Placed ((giveBack g call).slots c.origin) ((giveBack g call).books c.origin) g.history c
      ((g.setPhase call .released).phase c) := by
  have hplaced := h.placed call
  rw [hphase] at hplaced
  have hkept := h.kept call.origin
  unfold giveBack
  by_cases hc : c = call
  · subst hc
    simp only [Gate.setSlots_slots_self, Gate.setSlots_books_self, Gate.setPhase_phase_self]
    have hgone : c ∉ (g.books c.origin).holders.erase c :=
      fun hmem ↦ ((List.Nodup.mem_erase_iff hkept.holders_nodup).mp hmem).1 rfl
    have hgranted := hkept.holders_subset hplaced.1
    unfold Book.release
    cases hqueue : (g.slots c.origin).queue.head? with
    | none => exact ⟨hgranted, hgone⟩
    | some next =>
      have hne : c ≠ next := fun heq ↦ hnext (by rw [hqueue, heq]; exact rfl)
      refine ⟨List.mem_append_left _ hgranted, fun hmem ↦ ?_⟩
      exact hgone ((List.mem_cons.mp hmem).resolve_left hne)
  · rw [Gate.setPhase_phase_of_ne hc]
    by_cases ho : c.origin = call.origin
    · simp only [ho, Gate.setSlots_slots_self, Gate.setSlots_books_self]
      exact (ho ▸ h.placed c).release hc hnext
    · simp only [Gate.setSlots_slots_of_ne ho, Gate.setSlots_books_of_ne ho]
      exact h.placed c

theorem Inv.kept_giveBack (h : Inv options g) (hmem : call ∈ (g.books call.origin).holders)
    (o : Origin) :
    Kept options.maxConcurrent ((giveBack g call).slots o) ((giveBack g call).books o) := by
  unfold giveBack
  by_cases ho : o = call.origin
  · subst ho
    simpa using (h.kept call.origin).release hmem
  · simpa [ho] using h.kept o

theorem Inv.origin_giveBack (h : Inv options g) (o : Origin) :
    ∀ c ∈ ((giveBack g call).books o).arrived, c.origin = o := by
  intro c hc
  unfold giveBack at hc
  by_cases ho : o = call.origin
  · subst ho
    rw [Gate.setSlots_books_self] at hc
    unfold Book.release at hc
    split at hc <;> exact h.origin _ c hc
  · rw [Gate.setSlots_books_of_ne ho] at hc
    exact h.origin o c hc

theorem Inv.release (h : Inv options g) {limited : Bool}
    (hphase : g.phase call = .settled limited) : Inv options (release g call limited) := by
  have hplaced := h.placed call
  rw [hphase] at hplaced
  have hreported : ∀ o t e s, .reported o t e s ∈ .released call limited :: g.history →
      e ≤ (giveBack g call).blockedUntil o ∧ t ≤ g.now := by
    intro o t e s hmem
    rcases List.mem_cons.mp hmem with heq | hmem
    · cases heq
    · simpa [giveBack] using h.reported o t e s hmem
  have hnear : ∀ o, BlockedNear options ((giveBack g call).blockedUntil o)
      (latestReport o g.history) := by simpa [giveBack] using h.near
  unfold RateGate.release
  cases hqueue : (g.slots call.origin).queue.head? with
  | none =>
    exact {
      kept := h.kept_giveBack hplaced.1
      origin := h.origin_giveBack
      placed := fun c ↦ (h.placed_giveBack hphase (by simp [hqueue])).log _
      reported := hreported
      latest := h.latest
      near := hnear
      chronicle := ⟨hplaced.2, h.chronicle⟩ }
  | some next =>
    have hmem : next ∈ (g.slots call.origin).queue := List.mem_of_mem_head? hqueue
    have hnext : next.origin = call.origin :=
      h.origin _ next ((h.kept call.origin).queue_subset hmem)
    exact {
      kept := h.kept_giveBack hplaced.1
      origin := h.origin_giveBack
      placed := fun c ↦ by
        by_cases hc : c = next
        · subst hc
          rw [Gate.setPhase_phase_self]
          simp only [Gate.setPhase_books, Gate.log_books, hnext, giveBack,
            Gate.setSlots_books_self, Book.release, hqueue]
          exact List.mem_cons_self
        · rw [Gate.setPhase_phase_of_ne hc]
          refine (h.placed_giveBack hphase ?_).log _
          rw [hqueue]
          exact fun heq ↦ hc (Option.some.inj heq).symm
      reported := hreported
      latest := h.latest
      near := hnear
      chronicle := ⟨hplaced.2, h.chronicle⟩ }

/-- A cooldown is at most the largest one, and never shortens one that is in effect. -/
theorem Inv.reportRateLimited (h : Inv options g) (dateParse : String → Option ℚ) (origin : Origin)
    (retryAfter : Option String) (now : ℚ) (source : Option (Call Origin)) :
    Inv options (reportRateLimited options dateParse g origin retryAfter now g.now source) := by
  have hcooldown : min ((parseRetryAfterMs dateParse now retryAfter).getD
      options.defaultCooldownMs) options.maxCooldownMs ≤ options.maxCooldownMs := min_le_right _ _
  unfold RateGate.reportRateLimited
  generalize min ((parseRetryAfterMs dateParse now retryAfter).getD
    options.defaultCooldownMs) options.maxCooldownMs = cooldown at hcooldown
  dsimp only
  generalize hblocked : max (g.blockedUntil origin) (g.now + cooldown) = blocked
  exact {
    kept := fun o ↦ by
      rw [Gate.log_slots, Gate.block_slots]
      exact h.kept o
    origin := h.origin
    placed := fun c ↦ by
      rw [Gate.log_slots, Gate.block_slots]
      exact (h.placed c).log _
    reported := fun o t e s hmem ↦ by
      rw [Gate.log_blockedUntil, Gate.block_blockedUntil]
      rcases List.mem_cons.mp hmem with heq | hmem
      · cases heq
        rw [if_pos rfl, ← hblocked]
        exact ⟨le_max_right _ _, le_refl _⟩
      · obtain ⟨hle, ht⟩ := h.reported o t e s hmem
        refine ⟨hle.trans ?_, ht⟩
        split
        · next ho =>
          rw [ho, ← hblocked]
          exact le_max_left _ _
        · exact le_refl _
    latest := fun o t ht ↦ by
      rw [Gate.log_history, latestReport] at ht
      split at ht
      · cases ht
        exact le_refl _
      · exact h.latest o t ht
    near := fun o ↦ by
      rw [Gate.log_blockedUntil, Gate.block_blockedUntil, Gate.log_history, latestReport]
      by_cases ho : o = origin
      · subst ho
        rw [if_pos rfl, if_pos rfl]
        rcases max_choice (g.blockedUntil o) (g.now + cooldown) with hmax | hmax
        · rw [← hblocked, hmax]
          rcases h.near o with hzero | ⟨t, ht, hle⟩
          · exact .inl hzero
          · have hnow := h.latest o t ht
            exact .inr ⟨g.now, rfl, by linarith⟩
        · rw [← hblocked, hmax]
          exact .inr ⟨g.now, rfl, by linarith⟩
      · rw [if_neg ho, if_neg fun heq ↦ ho heq.symm]
        exact h.near o
    chronicle := ⟨trivial, h.chronicle⟩ }

theorem Inv.step (h : Inv options g) {dateParse : String → Option ℚ} {input : Input Origin}
    {g' : Gate Origin} (hstep : step options dateParse g input = some g') : Inv options g' := by
  cases input with
  | run call now =>
    simp only [RateGate.step] at hstep
    split at hstep
    · next hguard =>
      cases hstep
      exact (h.later hguard.1).acquire hguard.2
    · cases hstep
  | wake call now =>
    simp only [RateGate.step] at hstep
    split at hstep
    · next hguard =>
      have hlater := h.later hguard.1
      split at hstep
      · next hfree =>
        cases hstep
        have hplaced := hlater.placed call
        rw [show Gate.phase { g with now := now } call = .waiting from hguard.2] at hplaced
        have hno : ∀ o t e s, Happening.sent call now ≠ .reported o t e s :=
          fun o t e s heq ↦ by cases heq
        refine (hlater.setPhase (p := .sent) hplaced).log hno ?_
        intro t cooldownEnd source hmem
        have hle := (hlater.reported _ t cooldownEnd source hmem).1
        linarith
      · cases hstep
        exact hlater
    · cases hstep
  | settle call response now again =>
    simp only [RateGate.step] at hstep
    split at hstep
    · next hguard =>
      have hlater := h.later (hguard.1.trans hguard.2.1)
      have hplaced := hlater.placed call
      rw [show Gate.phase { g with now := again } call = .sent from hguard.2.2] at hplaced
      have hquiet : Inv options (Gate.setPhase { g with now := again } call (.settled false)) :=
        hlater.setPhase ⟨hplaced, fun hfalse ↦ absurd hfalse Bool.false_ne_true⟩
      cases response with
      | none =>
        cases hstep
        exact hquiet
      | some response =>
        dsimp only at hstep
        split at hstep
        · cases hstep
          refine (hlater.reportRateLimited dateParse call.origin response.retryAfter now
            (some call)).setPhase ⟨?_, fun _ ↦ ⟨_, _, List.mem_cons_self⟩⟩
          exact hplaced
        · cases hstep
          exact hquiet
    · cases hstep
  | finish call now =>
    simp only [RateGate.step] at hstep
    split at hstep
    · next hnow =>
      split at hstep
      · next limited hphase =>
        cases hstep
        exact (h.later hnow).release hphase
      · cases hstep
    · cases hstep
  | reportRateLimited origin retryAfter now again =>
    simp only [RateGate.step] at hstep
    split at hstep
    · next hguard =>
      cases hstep
      exact (h.later (hguard.1.trans hguard.2)).reportRateLimited dateParse origin retryAfter now
        none
    · cases hstep

/-- What a release does: the slot goes to the one who has waited longest. -/
def HandsOver (g g' : Gate Origin) (call : Call Origin) : Prop :=
  match (g.slots call.origin).queue with
  | [] => g'.slots call.origin = ⟨(g.slots call.origin).active - 1, []⟩
  | next :: queue => g'.slots call.origin = ⟨(g.slots call.origin).active, queue⟩ ∧
    g.phase next = .parked ∧ g'.phase next = .waiting

theorem Inv.handsOver (h : Inv options g) (limited : Bool) :
    HandsOver g (RateGate.release g call limited) call := by
  have hslots : (RateGate.release g call limited).slots call.origin =
      (g.slots call.origin).release := by
    unfold RateGate.release giveBack
    split <;> simp
  unfold HandsOver
  split
  · next hqueue => rw [hslots, Slots.release, hqueue]
  · next next queue hqueue =>
    have hmem : next ∈ (g.slots call.origin).queue := by
      rw [hqueue]
      exact List.mem_cons_self
    refine ⟨?_, ?_, ?_⟩
    · rw [hslots, Slots.release, hqueue]
      simp
    · have horigin := h.origin _ next ((h.kept call.origin).queue_subset hmem)
      exact h.parked_iff.mpr (horigin ▸ hmem)
    · unfold RateGate.release
      simp [hqueue]

theorem blockedUntil_mono {dateParse : String → Option ℚ} {input : Input Origin} {g' : Gate Origin}
    (hstep : step options dateParse g input = some g') (o : Origin) :
    g.blockedUntil o ≤ g'.blockedUntil o := by
  have hreport : ∀ (g : Gate Origin) (origin : Origin) (retryAfter : Option String) (now again : ℚ)
      (source : Option (Call Origin)), g.blockedUntil o ≤ (reportRateLimited options dateParse g
        origin retryAfter now again source).blockedUntil o := by
    intro g origin retryAfter now again source
    simp only [reportRateLimited, Gate.log_blockedUntil, Gate.block_blockedUntil]
    split
    · next ho =>
      rw [ho]
      exact le_max_left _ _
    · exact le_refl _
  cases input with
  | run call now =>
    simp only [RateGate.step] at hstep
    split at hstep
    · cases hstep
      simp only [acquire, Gate.setPhase_blockedUntil, Gate.setSlots_blockedUntil]
      exact le_refl _
    · cases hstep
  | wake call now =>
    simp only [RateGate.step] at hstep
    split at hstep
    · split at hstep <;> cases hstep <;> exact le_refl _
    · cases hstep
  | settle call response now again =>
    simp only [RateGate.step] at hstep
    split at hstep
    · cases response with
      | none =>
        cases hstep
        exact le_refl _
      | some response =>
        dsimp only at hstep
        split at hstep
        · cases hstep
          exact hreport { g with now := again } call.origin response.retryAfter now again
            (some call)
        · cases hstep
          exact le_refl _
    · cases hstep
  | finish call now =>
    simp only [RateGate.step] at hstep
    split at hstep
    · split at hstep
      · cases hstep
        unfold release giveBack
        split <;> simp <;> exact le_refl _
      · cases hstep
    · cases hstep
  | reportRateLimited origin retryAfter now again =>
    simp only [RateGate.step] at hstep
    split at hstep
    · cases hstep
      exact hreport { g with now := again } origin retryAfter now again none
    · cases hstep

/-- The requests that hold a slot are counted and bounded, those that wait do so in order and only
while all slots are taken, and nothing is sent into a cooldown. -/
structure GateRight (options : RateGateOptions) (g : Gate Origin) : Prop where
  holders : ∀ o call, call ∈ (g.books o).holders ↔
    call.origin = o ∧ (g.phase call).holdsSlot = true
  nodup : ∀ o, (g.books o).holders.Nodup
  counted : ∀ o, ((g.books o).holders.length : ℤ) = (g.slots o).active
  bounded : ∀ o, (g.slots o).active ≤ options.maxConcurrent
  full : ∀ o, (g.slots o).queue ≠ [] → (g.slots o).active = options.maxConcurrent
  parked : ∀ call, g.phase call = .parked ↔ call ∈ (g.slots call.origin).queue
  fifo : ∀ o, (g.books o).arrived = (g.books o).granted ++ (g.slots o).queue
  arrived : ∀ call, g.phase call = .idle ↔ call ∉ (g.books call.origin).arrived
  sent : Chronicle Right g.history
  near : ∀ o, BlockedNear options (g.blockedUntil o) (latestReport o g.history)

theorem Inv.right (h : Inv options g) : GateRight options g where
  holders o call := by
    constructor
    · intro hmem
      have hkept := h.kept o
      have horigin := h.origin o call (hkept.granted_subset (hkept.holders_subset hmem))
      exact ⟨horigin, h.holds_iff.mpr (horigin ▸ hmem)⟩
    · rintro ⟨rfl, hholds⟩
      exact h.holds_iff.mp hholds
  nodup o := (h.kept o).holders_nodup
  counted o := (h.kept o).count
  bounded o := (h.kept o).bound
  full o := (h.kept o).full
  parked _ := h.parked_iff
  fifo o := (h.kept o).order
  arrived call := by
    have hplaced := h.placed call
    have hkept := h.kept call.origin
    constructor
    · intro hphase
      rw [hphase] at hplaced
      exact hplaced
    · intro hnot
      cases hphase : g.phase call with
      | idle => rfl
      | parked => exact absurd (hkept.queue_subset (h.parked_iff.mp hphase)) hnot
      | released =>
        rw [hphase] at hplaced
        exact absurd (hkept.granted_subset hplaced.1) hnot
      | _ =>
        have hholds := h.holds_iff.mp (show (g.phase call).holdsSlot = true by rw [hphase]; rfl)
        exact absurd (hkept.granted_subset (hkept.holders_subset hholds)) hnot
  sent := h.chronicle
  near := h.near

theorem inv_of_run {dateParse : String → Option ℚ} {start : ℚ}
    (h : Run (step options dateParse) (fun _ _ ↦ True) (Gate.initial start) g) : Inv options g :=
  h.invariant (fun _ _ _ hinv _ hstep ↦ hinv.step hstep) (inv_initial start)

theorem rateGate_right (options : RateGateOptions) (dateParse : String → Option ℚ) (start : ℚ)
    (g : Gate Origin)
    (h : Run (step options dateParse) (fun _ _ ↦ True) (Gate.initial start) g) :
    GateRight options g ∧
      (∀ call now g', step options dateParse g (.finish call now) = some g' →
        HandsOver g g' call) ∧
      (∀ g', Run (step options dateParse) (fun _ _ ↦ True) g g' →
        ∀ o, g.blockedUntil o ≤ g'.blockedUntil o) := by
  have hinv := inv_of_run h
  refine ⟨hinv.right, fun call now g' hstep ↦ ?_, fun g' hrun o ↦ ?_⟩
  · simp only [RateGate.step] at hstep
    split at hstep
    · next hnow =>
      split at hstep
      · cases hstep
        exact (hinv.later hnow).handsOver _
      · cases hstep
    · cases hstep
  · induction hrun with
    | refl => exact le_refl _
    | tail _ _ hstep ih => exact ih.trans (blockedUntil_mono hstep o)

/-! A gate with one slot: the second request waits for the first, and then for its cooldown. -/

def oneAtATime : RateGateOptions := { maxConcurrent := 1 }

def first : Call String := ⟨"https://operator", true, 0⟩

def second : Call String := ⟨"https://operator", true, 1⟩

def refusedOnce : List (Input String) :=
  [.run first 0, .run second 0, .wake first 1, .settle first (some ⟨429, some "30"⟩) 2 2,
    .finish first 3, .wake second 4, .wake second 30002]

theorem refusedOnce_right : ∃ g : Gate String,
    g.history = [.sent second 30002, .released first true,
      .reported "https://operator" 2 30002 (some first), .sent first 1] ∧
    GateRight oneAtATime g := by
  have hhistory : (exec (step oneAtATime fun _ ↦ none) (Gate.initial 0) refusedOnce).map
      Gate.history = some [.sent second 30002, .released first true,
        .reported "https://operator" 2 30002 (some first), .sent first 1] := by
    decide +kernel
  obtain ⟨g, hg, hlist⟩ := Option.map_eq_some_iff.mp hhistory
  have hrun := run_of_exec hg (along_of_check (p := fun _ _ ↦ true) (fun _ _ _ ↦ trivial)
    (by decide +kernel))
  exact ⟨g, hlist, (rateGate_right oneAtATime (fun _ ↦ none) 0 g hrun).1⟩

end ArkadeSdk.RateGate
