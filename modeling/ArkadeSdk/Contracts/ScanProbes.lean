import ArkadeSdk.Contracts.ScanContracts

/-! What handlers that are functions of the index make of a window, and visits of indices they all
answered for. -/

namespace ArkadeSdk.Contracts

variable {env : Environment} {limits : ScanLimits} {descriptor : ℕ → String}
  {answers : String × Discoverable → ℕ → Option (List CreateContractParams)}
  {s : Scan} {i m : ℕ}

def entriesOf (descriptor : ℕ → String) (window : List ℕ) : List (ℕ × String) :=
  window.map fun i ↦ (i, descriptor i)

/-- The handler is a function of the index. Asked for a range, it answers if it can answer for
every index of it, and what it answers is the same. -/
structure Answers (descriptor : ℕ → String) (h : String × Discoverable)
    (answer : ℕ → Option (List CreateContractParams)) : Prop where
  discoverAt : h.2.discoverRange = none → ∀ i,
    (h.2.discoverAt i (descriptor i)).toOption = answer i
  covers : ∀ discoverRange, h.2.discoverRange = some discoverRange → ∀ window : List ℕ,
    (∀ i ∈ window, answer i ≠ none) → ∃ ranged,
      discoverRange (entriesOf descriptor window) = .ok ranged ∧ ∀ i ∈ window, ranged i = answer i
  sound : ∀ discoverRange, h.2.discoverRange = some discoverRange → ∀ (window : List ℕ) (ranged),
    discoverRange (entriesOf descriptor window) = .ok ranged →
    ∀ i ∈ window, ∀ found, ranged i = some found → answer i = some found

theorem find?_entriesOf {window : List ℕ} (hi : i ∈ window) :
    (entriesOf descriptor window).find? (·.1 = i) = some (i, descriptor i) := by
  induction window with
  | nil => cases hi
  | cons j window ih =>
    rw [entriesOf, List.map_cons, List.find?_cons]
    by_cases hji : j = i
    · simp [hji]
    · rw [show (decide ((j, descriptor j).1 = i)) = false by simpa using hji]
      exact ih ((List.mem_cons.mp hi).resolve_left fun h ↦ hji h.symm)

theorem any_entriesOf {window : List ℕ} :
    (entriesOf descriptor window).any (·.1 = i) = true ↔ i ∈ window := by
  simp [entriesOf, List.any_map]

theorem probe_answered {h : String × Discoverable} {answer : ℕ → Option (List CreateContractParams)}
    (hanswer : Answers descriptor h answer) {window : List ℕ} (hi : i ∈ window)
    (hdet : (probeHandler h (entriesOf descriptor window)).indeterminate i = false) :
    answer i = some ((probeHandler h (entriesOf descriptor window)).found i) ∧
      (probeHandler h (entriesOf descriptor window)).errors i = none := by
  have hmem : (entriesOf descriptor window).any (·.1 = i) = true := any_entriesOf.mpr hi
  unfold probeHandler at hdet ⊢
  cases hrange : h.2.discoverRange with
  | none =>
    simp only [hrange, find?_entriesOf hi, Option.map_some] at hdet ⊢
    have hat := hanswer.discoverAt hrange i
    cases hfound : h.2.discoverAt i (descriptor i) with
    | error e => simp [hfound] at hdet
    | ok found =>
      rw [hfound] at hat
      exact ⟨hat.symm, rfl⟩
  | some discoverRange =>
    simp only [hrange] at hdet ⊢
    cases hranged : discoverRange (entriesOf descriptor window) with
    | error e =>
      simp only [hranged, failRange] at hdet
      rw [hmem] at hdet
      cases hdet
    | ok ranged =>
      simp only [hranged] at hdet ⊢
      cases hmissing : (entriesOf descriptor window).find? (fun e ↦ (ranged e.1).isNone) with
      | some missing =>
        simp only [hmissing, failRange] at hdet
        rw [hmem] at hdet
        cases hdet
      | none =>
        have hall := List.find?_eq_none.mp hmissing (i, descriptor i)
          (List.mem_map.mpr ⟨i, hi, rfl⟩)
        obtain ⟨found, hfound⟩ := Option.ne_none_iff_exists'.mp (by simpa using hall)
        refine ⟨?_, rfl⟩
        simp only [hmem, if_true, hfound, Option.getD_some]
        exact hanswer.sound discoverRange hrange window ranged hranged i hi found hfound

theorem probe_determinate {h : String × Discoverable}
    {answer : ℕ → Option (List CreateContractParams)} (hanswer : Answers descriptor h answer)
    {window : List ℕ} (hall : ∀ j ∈ window, answer j ≠ none) (hi : i ∈ window) :
    (probeHandler h (entriesOf descriptor window)).indeterminate i = false := by
  unfold probeHandler
  cases hrange : h.2.discoverRange with
  | none =>
    simp only [find?_entriesOf hi, Option.map_some]
    have hat := hanswer.discoverAt hrange i
    cases hfound : h.2.discoverAt i (descriptor i) with
    | error e =>
      rw [hfound] at hat
      exact absurd hat.symm (hall i hi)
    | ok found => rfl
  | some discoverRange =>
    obtain ⟨ranged, hranged, heq⟩ := hanswer.covers discoverRange hrange window hall
    have hmissing : (entriesOf descriptor window).find? (fun e ↦ (ranged e.1).isNone) = none := by
      refine List.find?_eq_none.mpr fun e he ↦ ?_
      obtain ⟨j, hj, rfl⟩ := List.mem_map.mp he
      simpa [heq j hj] using hall j hj
    simp only [hranged, hmissing]

/-- What is there at an index, in the order it is persisted in. -/
def contractsAt (env : Environment)
    (answers : String × Discoverable → ℕ → Option (List CreateContractParams)) (i : ℕ) :
    List CreateContractParams :=
  (discoverables env.contractHandlers).flatMap fun h ↦ (answers h i).getD []

def probesOf (env : Environment) (descriptor : ℕ → String) (window : List ℕ) :
    List HandlerWindowProbe :=
  (discoverables env.contractHandlers).map (probeHandler · (entriesOf descriptor window))

/-- Every handler is as `answers` says. -/
def Handlers (env : Environment) (descriptor : ℕ → String)
    (answers : String × Discoverable → ℕ → Option (List CreateContractParams)) : Prop :=
  ∀ h ∈ discoverables env.contractHandlers, Answers descriptor h (answers h)

def Answered (env : Environment)
    (answers : String × Discoverable → ℕ → Option (List CreateContractParams)) (i : ℕ) : Prop :=
  ∀ h ∈ discoverables env.contractHandlers, answers h i ≠ none

/-- A visit of an index that every handler answered for. -/
def confirm (env : Environment) (found : ℕ → List CreateContractParams) (s : Scan) (i : ℕ) : Scan :=
  visit env (found i) false [] s i

theorem visitProbed_eq_confirm (hhandlers : Handlers env descriptor answers) {window : List ℕ}
    (hi : i ∈ window)
    (hdet : (probesOf env descriptor window).any (·.indeterminate i) = false) :
    Answered env answers i ∧ ∀ s, visitProbed env (probesOf env descriptor window) s i =
      confirm env (contractsAt env answers) s i := by
  have hprobe (h) (hh : h ∈ discoverables env.contractHandlers) :=
    probe_answered (hhandlers h hh) hi (by
      simpa using List.any_eq_false.mp hdet _ (List.mem_map.mpr ⟨h, hh, rfl⟩))
  refine ⟨fun h hh ↦ by simp [(hprobe h hh).1], fun s ↦ ?_⟩
  have hfound : (probesOf env descriptor window).flatMap (·.found i) =
      contractsAt env answers i := by
    rw [probesOf, List.flatMap_map, contractsAt]
    refine List.flatMap_congr fun h hh ↦ ?_
    rw [(hprobe h hh).1, Option.getD_some]
  have herrors : (probesOf env descriptor window).filterMap (·.errors i) = [] := by
    refine List.filterMap_eq_nil_iff.mpr fun probe hprobe' ↦ ?_
    obtain ⟨h, hh, rfl⟩ := List.mem_map.mp hprobe'
    exact (hprobe h hh).2
  rw [visitProbed, hfound, hdet, herrors, confirm]

theorem determinate_of_answered (hhandlers : Handlers env descriptor answers) {window : List ℕ}
    (hall : ∀ j ∈ window, Answered env answers j) (hi : i ∈ window) :
    (probesOf env descriptor window).any (·.indeterminate i) = false := by
  refine List.any_eq_false.mpr fun probe hprobe ↦ ?_
  obtain ⟨h, hh, rfl⟩ := List.mem_map.mp hprobe
  simpa using probe_determinate (hhandlers h hh) (fun j hj ↦ hall j hj h hh) hi

def Scan.asking (s : Scan) (materialized : List ℕ) : Scan := { s with materialized := materialized }

section Asking

variable (ms ms' : List ℕ)

@[simp] theorem asking_thrown : (s.asking ms).thrown = s.thrown := rfl

@[simp] theorem asking_truncatedAt : (s.asking ms).truncatedAt = s.truncatedAt := rfl

@[simp] theorem asking_unused : (s.asking ms).unused = s.unused := rfl

@[simp] theorem asking_store : (s.asking ms).store = s.store := rfl

@[simp] theorem asking_persisted : (s.asking ms).persisted = s.persisted := rfl

@[simp] theorem asking_materialized : (s.asking ms).materialized = ms := rfl

@[simp] theorem asking_result : (s.asking ms).result = s.result := rfl

@[simp] theorem asking_asking : (s.asking ms).asking ms' = s.asking ms' := rfl

@[simp] theorem asking_self : s.asking s.materialized = s := rfl

end Asking

section Visits

variable {found : List CreateContractParams} {b : Bool} {errors : List HandlerError}

theorem visit_thrown (h : s.thrown.isSome = true) : visit env found b errors s i = s := by
  rw [visit, if_pos h]

theorem visit_eq (h : s.thrown = none) : visit env found b errors s i =
    let result := persistAll env s.store found
    let truncatedAt := s.truncatedAt.or (if b then some i else none)
    { s with
      store := result.1
      handlerErrors := s.handlerErrors ++ errors
      persisted := s.persisted ++
        (result.1.contracts.drop s.store.contracts.length).map fun row ↦ (i, row)
      thrown := result.2.map .persist
      truncatedAt := if result.2.isSome then s.truncatedAt else truncatedAt
      highestConfirmedUsedIndex :=
        if result.2.isNone ∧ found ≠ [] then i else s.highestConfirmedUsedIndex
      unused := if result.2.isSome ∨ truncatedAt.isSome then s.unused
        else if found ≠ [] then 0 else s.unused + 1 } := by
  unfold visit
  rw [h]
  cases hresult : persistAll env s.store found with
  | mk store error => cases error <;> simp

theorem visit_materialized (ms : List ℕ) :
    visit env found b errors (s.asking ms) i =
      (visit env found b errors s i).asking ms := by
  by_cases hthrown : s.thrown.isSome = true
  · rw [visit_thrown hthrown, visit_thrown (by exact hthrown)]
  · have hthrown : s.thrown = none := by simpa using hthrown
    rw [visit_eq hthrown, visit_eq (by exact hthrown)]
    rfl

theorem visit_persisted : ∃ l, (visit env found b errors s i).persisted = s.persisted ++ l ∧
    ∀ p ∈ l, p.1 = i := by
  cases hthrown : s.thrown with
  | some e => exact ⟨[], by rw [visit_thrown (by simp [hthrown]), List.append_nil], by simp⟩
  | none =>
    refine ⟨_, by rw [visit_eq hthrown], fun p hp ↦ ?_⟩
    obtain ⟨row, -, rfl⟩ := List.mem_map.mp hp
    rfl

theorem visit_truncatedAt {t : ℕ} (h : s.truncatedAt = some t) :
    (visit env found b errors s i).truncatedAt = some t := by
  cases hthrown : s.thrown with
  | some e => rw [visit_thrown (by simp [hthrown]), h]
  | none =>
    rw [visit_eq hthrown]
    simp [h]

theorem visit_indeterminate (h : s.thrown = none) (htruncated : s.truncatedAt = none)
    (hthrown : (visit env found true errors s i).thrown = none) :
    (visit env found true errors s i).truncatedAt = some i := by
  rw [visit_eq h] at hthrown ⊢
  simp [htruncated, Option.map_eq_none_iff.mp hthrown]

theorem visit_rejected (h : s.thrown = none)
    (hthrown : (visit env found b errors s i).thrown ≠ none) :
    (visit env found b errors s i).truncatedAt = s.truncatedAt := by
  rw [visit_eq h] at hthrown ⊢
  have hsome : (persistAll env s.store found).2.isSome = true := by
    simpa [Option.isSome_iff_ne_none] using hthrown
  simp [hsome]

theorem visit_determinate (htruncated : s.truncatedAt = none) :
    (visit env found false errors s i).truncatedAt = none := by
  cases hthrown : s.thrown with
  | some e => rw [visit_thrown (by simp [hthrown]), htruncated]
  | none =>
    rw [visit_eq hthrown]
    simp [htruncated]

theorem visit_unused_le : (visit env found b errors s i).unused ≤ s.unused + 1 := by
  cases hthrown : s.thrown with
  | some e =>
    rw [visit_thrown (by simp [hthrown])]
    omega
  | none =>
    rw [visit_eq hthrown]
    dsimp only
    split_ifs <;> omega

end Visits

section Folds

variable {f : Scan → ℕ → Scan}

theorem foldl_thrown (hf : ∀ s i, s.thrown.isSome = true → f s i = s)
    (h : s.thrown.isSome = true) (l : List ℕ) : l.foldl f s = s := by
  induction l with
  | nil => rfl
  | cons i l ih => rw [List.foldl_cons, hf s i h, ih]

theorem foldl_materialized (hf : ∀ s i (ms : List ℕ), f (s.asking ms) i =
      (f s i).asking ms) (ms : List ℕ) (l : List ℕ) :
    l.foldl f (s.asking ms) = (l.foldl f s).asking ms := by
  induction l generalizing s with
  | nil => rfl
  | cons i l ih => rw [List.foldl_cons, hf, ih, List.foldl_cons]

theorem foldl_persisted (hf : ∀ s i, ∃ l, (f s i).persisted = s.persisted ++ l ∧ ∀ p ∈ l, p.1 = i)
    (is : List ℕ) : ∃ l, (is.foldl f s).persisted = s.persisted ++ l ∧ ∀ p ∈ l, p.1 ∈ is := by
  induction is generalizing s with
  | nil => exact ⟨[], by simp, by simp⟩
  | cons i is ih =>
    obtain ⟨l, hl, hindex⟩ := hf s i
    obtain ⟨l', hl', hindex'⟩ := @ih (f s i)
    refine ⟨l ++ l', by rw [List.foldl_cons, hl', hl, List.append_assoc], fun p hp ↦ ?_⟩
    rcases List.mem_append.mp hp with hp | hp
    · exact hindex p hp ▸ List.mem_cons_self
    · exact List.mem_cons_of_mem i (hindex' p hp)

theorem foldl_truncatedAt (hf : ∀ s i t, s.truncatedAt = some t → (f s i).truncatedAt = some t)
    {t : ℕ} (h : s.truncatedAt = some t) (l : List ℕ) : (l.foldl f s).truncatedAt = some t := by
  induction l generalizing s with
  | nil => exact h
  | cons i l ih => exact ih (hf s i t h)

end Folds

/-- Indices that every handler answered for, one after the other. -/
def confirmAll (env : Environment) (found : ℕ → List CreateContractParams) (s : Scan)
    (window : List ℕ) : Scan := window.foldl (confirm env found) s

section Confirm

variable {found : ℕ → List CreateContractParams} {window : List ℕ}

theorem confirmAll_thrown (h : s.thrown.isSome = true) : confirmAll env found s window = s :=
  foldl_thrown (f := confirm env found) (fun _ _ ↦ visit_thrown) h window

theorem confirmAll_materialized (ms : List ℕ) :
    confirmAll env found (s.asking ms) window =
      (confirmAll env found s window).asking ms :=
  foldl_materialized (f := confirm env found) (fun _ _ ms ↦ visit_materialized ms) ms window

theorem confirmAll_persisted : ∃ l,
    (confirmAll env found s window).persisted = s.persisted ++ l ∧ ∀ p ∈ l, p.1 ∈ window :=
  foldl_persisted (f := confirm env found) (fun _ _ ↦ visit_persisted) window

theorem confirmAll_append (a b : List ℕ) : confirmAll env found s (a ++ b) =
    confirmAll env found (confirmAll env found s a) b := List.foldl_append

theorem confirmAll_truncatedAt (h : s.truncatedAt = none) :
    (confirmAll env found s window).truncatedAt = none := by
  induction window generalizing s with
  | nil => exact h
  | cons i window ih => exact ih (visit_determinate h)

theorem visitProbed_window (hhandlers : Handlers env descriptor answers) {l : List ℕ}
    (hl : ∀ i ∈ l, i ∈ window ∧ (probesOf env descriptor window).any (·.indeterminate i) = false) :
    l.foldl (visitProbed env (probesOf env descriptor window)) s =
      confirmAll env (contractsAt env answers) s l := by
  induction l generalizing s with
  | nil => rfl
  | cons i l ih =>
    obtain ⟨⟨hi, hdet⟩, hl⟩ := List.forall_mem_cons.mp hl
    rw [List.foldl_cons, (visitProbed_eq_confirm hhandlers hi hdet).2, ih hl]
    rfl

end Confirm

end ArkadeSdk.Contracts
