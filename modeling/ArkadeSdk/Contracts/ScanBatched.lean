import ArkadeSdk.Contracts.ScanWindows
import Mathlib.Data.Nat.Find

/-! A scan by windows finds what a scan of one index at a time finds. -/

namespace ArkadeSdk.Contracts

variable {env : Environment} {limits : ScanLimits} {descriptor : ℕ → String}
  {answers : String × Discoverable → ℕ → Option (List CreateContractParams)}
  {s : Scan} {i m : ℕ}

/-- The same scan with windows of one index. -/
def ScanLimits.serial (limits : ScanLimits) : ScanLimits :=
  { limits with batchSize := 1, batchSize_pos := Nat.one_pos }

section Confirmed

variable {found : ℕ → List CreateContractParams}

theorem confirm_fields (h : s.thrown = none) (htruncated : s.truncatedAt = none) :
    (confirm env found s i).store = (persistAll env s.store (found i)).1 ∧
      (confirm env found s i).thrown = (persistAll env s.store (found i)).2.map .persist ∧
      ((confirm env found s i).thrown = none →
        (confirm env found s i).unused = if found i ≠ [] then 0 else s.unused + 1) := by
  unfold confirm
  rw [visit_eq h]
  refine ⟨rfl, rfl, fun hnone ↦ ?_⟩
  simp [htruncated, Option.map_eq_none_iff.mp hnone]

theorem confirmAll_rejected (h : s.thrown = none) (htruncated : s.truncatedAt = none)
    {window : List ℕ} (hthrown : (confirmAll env found s window).thrown ≠ none) :
    ∃ e, (confirmAll env found s window).thrown = some (.persist e) := by
  induction window generalizing s with
  | nil => exact absurd h hthrown
  | cons i window ih =>
    cases hs : (confirm env found s i).thrown with
    | none => exact ih hs (visit_determinate htruncated) hthrown
    | some e =>
      have hkept : confirmAll env found s (i :: window) = confirm env found s i :=
        confirmAll_thrown (s := confirm env found s i) (by simp [hs])
      rw [hkept, hs]
      rw [(confirm_fields h htruncated).2.1] at hs
      obtain ⟨e, -, rfl⟩ := Option.map_eq_some_iff.mp hs
      exact ⟨e, rfl⟩

theorem persistAll_append (store : Store) (a b : List CreateContractParams) :
    persistAll env store (a ++ b) =
      if (persistAll env store a).2.isSome then persistAll env store a
      else persistAll env (persistAll env store a).1 b := by
  induction a generalizing store with
  | nil => rfl
  | cons params a ih =>
    rw [List.cons_append, persistAll, persistAll]
    cases persistAndWatchContract env store params with
    | error e => rfl
    | ok store => exact ih store

theorem confirmAll_store (h : s.thrown = none) (htruncated : s.truncatedAt = none)
    (window : List ℕ) :
    (confirmAll env found s window).store = (persistAll env s.store (window.flatMap found)).1 := by
  induction window generalizing s with
  | nil => rfl
  | cons i window ih =>
    obtain ⟨hstore, hthrown, -⟩ := @confirm_fields env s i found h htruncated
    have hcons : confirmAll env found s (i :: window) =
      confirmAll env found (confirm env found s i) window := rfl
    rw [hcons, List.flatMap_cons, persistAll_append]
    cases herror : (persistAll env s.store (found i)).2 with
    | none =>
      rw [herror] at hthrown
      rw [ih hthrown (visit_determinate htruncated), hstore]
      rfl
    | some e =>
      rw [herror] at hthrown
      rw [confirmAll_thrown (by simp [hthrown]), hstore]
      rfl

end Confirmed

theorem serial_step (hhandlers : Handlers env descriptor answers)
    (hmaterialize : ∀ i, limits.materialize i = .ok (descriptor i)) (hi : i ≤ limits.maxIdx)
    (hunused : s.unused < limits.gapLimit) (htruncated : s.truncatedAt = none)
    (hanswered : Answered env answers i) :
    scanWindows env limits.serial s i =
      let s' := (confirm env (contractsAt env answers) s i).asking (s.materialized ++ [i])
      if s'.thrown.isSome then s' else scanWindows env limits.serial s' (i + 1) := by
  obtain ⟨hpos, hbatch, -⟩ := windowSize_spec limits.serial hi hunused
  have hsize : windowSize limits.serial s i = 1 := Nat.le_antisymm hbatch hpos
  have hdet := determinate_of_answered hhandlers (by simpa using hanswered) (List.mem_singleton_self i)
  have hprobed : probed env descriptor s [i] =
      (confirm env (contractsAt env answers) s i).asking (s.materialized ++ [i]) := by
    rw [probed, visitProbed_window hhandlers (by simpa using hdet), confirmAll_materialized]
    rfl
  rw [scanWindows_window limits.serial hmaterialize hi hunused, hsize]
  rw [show List.range' i 1 = [i] from rfl, hprobed]
  have htruncated' : (confirm env (contractsAt env answers) s i).truncatedAt = none :=
    visit_determinate htruncated
  simp only [asking_thrown, asking_truncatedAt, htruncated', Option.isSome_none,
    Bool.false_eq_true, or_false]
  rfl

theorem serial_window (hhandlers : Handlers env descriptor answers)
    (hmaterialize : ∀ i, limits.materialize i = .ok (descriptor i)) {n : ℕ}
    (hmax : i + n ≤ limits.maxIdx + 1) (hgap : n ≤ limits.gapLimit - s.unused)
    (hthrown : s.thrown = none) (htruncated : s.truncatedAt = none)
    (hanswered : ∀ k, i ≤ k → k < i + n → Answered env answers k) :
    let s' := confirmAll env (contractsAt env answers) s (List.range' i n)
    (s'.thrown = none → scanWindows env limits.serial s i = scanWindows env limits.serial
      (s'.asking (s.materialized ++ List.range' i n)) (i + n)) ∧
    (s'.thrown ≠ none → ∃ n' ≤ n, scanWindows env limits.serial s i =
      s'.asking (s.materialized ++ List.range' i n')) := by
  induction n generalizing s i with
  | zero =>
    refine ⟨fun _ ↦ ?_, fun h ↦ absurd hthrown h⟩
    simp [confirmAll]
  | succ n ih =>
    have hstep := serial_step hhandlers hmaterialize (s := s) (i := i) (by omega) (by omega)
      htruncated (hanswered i le_rfl (by omega))
    dsimp only at hstep ⊢
    rw [hstep, List.range'_succ]
    have hcons : confirmAll env (contractsAt env answers) s (i :: List.range' (i + 1) n) =
      confirmAll env (contractsAt env answers) (confirm env (contractsAt env answers) s i)
        (List.range' (i + 1) n) := rfl
    rw [hcons]
    by_cases hs : (confirm env (contractsAt env answers) s i).thrown = none
    · have hle : (confirm env (contractsAt env answers) s i).unused ≤ s.unused + 1 := visit_unused_le
      obtain ⟨hgoes, hstops⟩ := ih (i := i + 1)
        (s := (confirm env (contractsAt env answers) s i).asking (s.materialized ++ [i]))
        (by omega) (by rw [asking_unused]; omega) hs (visit_determinate htruncated)
        (fun k hk hk' ↦ hanswered k (by omega) (by omega))
      rw [confirmAll_materialized] at hgoes hstops
      rw [if_neg (by simp [hs])]
      refine ⟨fun h ↦ ?_, fun h ↦ ?_⟩
      · rw [hgoes h]
        simp [Nat.add_assoc, Nat.add_comm 1 n]
      · obtain ⟨n', hn', heq⟩ := hstops h
        refine ⟨n' + 1, by omega, ?_⟩
        rw [heq]
        simp [List.range'_succ]
    · have hs' : (confirm env (contractsAt env answers) s i).thrown.isSome = true :=
        Option.isSome_iff_ne_none.mpr hs
      rw [confirmAll_thrown hs']
      refine ⟨fun h ↦ absurd h hs, fun _ ↦ ⟨1, by omega, ?_⟩⟩
      rw [asking_thrown, if_pos hs']
      rfl

/-- Where every handler answers, windows change nothing. Only a scan that ends in the middle of a
window may have asked for more. -/
theorem scanWindows_serial (hhandlers : Handlers env descriptor answers)
    (hmaterialize : ∀ i, limits.materialize i = .ok (descriptor i)) (hthrown : s.thrown = none)
    (htruncated : s.truncatedAt = none) (hi : i ≤ limits.maxIdx + 1)
    (hanswered : ∀ k ∈ (scanWindows env limits s i).materialized, i ≤ k → Answered env answers k) :
    ∃ n, (scanWindows env limits s i) = (scanWindows env limits.serial s i).asking
        (scanWindows env limits s i).materialized ∧
      (scanWindows env limits.serial s i).materialized = s.materialized ++ List.range' i n ∧
      (∀ k, i ≤ k → k < i + n → k ∈ (scanWindows env limits s i).materialized) ∧
      ((∀ e, (scanWindows env limits s i).thrown ≠ some (.persist e)) →
        (scanWindows env limits s i).materialized =
          (scanWindows env limits.serial s i).materialized) := by
  induction hsize : limits.maxIdx + 1 - i using Nat.strong_induction_on generalizing s i with
  | _ size ih =>
    by_cases h : i ≤ limits.maxIdx ∧ s.unused < limits.gapLimit
    · obtain ⟨hpos, -, hgap, hmax⟩ := windowSize_spec limits h.1 h.2
      generalize hn : windowSize limits s i = n at hpos hgap hmax
      -- what is asked for includes the window
      obtain ⟨window, hwindow⟩ := scanWindows_asks limits hhandlers hmaterialize h.1 h.2
      rw [hn] at hwindow
      have hall : ∀ k ∈ List.range' i n, Answered env answers k := by
        intro k hk
        refine hanswered k ?_ (List.mem_range'_1.mp hk).1
        rw [hwindow]
        exact List.mem_append_left _ (List.mem_append_right _ hk)
      have hdet (k : ℕ) (hk : k ∈ List.range' i n) :=
        determinate_of_answered hhandlers hall hk
      have hprobed : probed env descriptor s (List.range' i n) =
          (confirmAll env (contractsAt env answers) s (List.range' i n)).asking
            (s.materialized ++ List.range' i n) := by
        rw [probed, visitProbed_window hhandlers fun k hk ↦ ⟨hk, hdet k hk⟩, confirmAll_materialized]
      obtain ⟨hgoes, hstops⟩ := serial_window hhandlers hmaterialize hmax hgap hthrown htruncated
        (fun k hk hk' ↦ hall k (List.mem_range'_1.mpr ⟨hk, hk'⟩))
      have htruncated' : (confirmAll env (contractsAt env answers) s
          (List.range' i n)).truncatedAt = none := confirmAll_truncatedAt htruncated
      rw [scanWindows_window limits hmaterialize h.1 h.2, hn, hprobed] at hanswered ⊢
      simp only [asking_thrown, asking_truncatedAt, htruncated', Option.isSome_none,
        Bool.false_eq_true, or_false] at hanswered ⊢
      by_cases hs : (confirmAll env (contractsAt env answers) s (List.range' i n)).thrown = none
      · rw [if_neg (by simp [hs])] at hanswered ⊢
        obtain ⟨n', heq, hserial, hmem, hsame⟩ := ih (limits.maxIdx + 1 - (i + n)) (by omega)
          (s := (confirmAll env (contractsAt env answers) s (List.range' i n)).asking
            (s.materialized ++ List.range' i n)) (i := i + n) hs htruncated' hmax
          (fun k hk hk' ↦ hanswered k hk (by omega)) rfl
        rw [hgoes hs]
        refine ⟨n + n', heq, ?_, fun k hk hk' ↦ ?_, hsame⟩
        · rw [hserial, asking_materialized, List.append_assoc, List.range'_append_1]
        · rcases Nat.lt_or_ge k (i + n) with hlt | hge
          · obtain ⟨-, -, m', -, -, hms, -⟩ := scanWindows_confirms limits hhandlers hmaterialize (i := i + n)
              (s := (confirmAll env (contractsAt env answers) s (List.range' i n)).asking
                (s.materialized ++ List.range' i n)) hs htruncated' hmax
            rw [hms, asking_materialized]
            exact List.mem_append_left _ (List.mem_append_right _ (List.mem_range'_1.mpr ⟨hk, hlt⟩))
          · exact hmem k hge (by omega)
      · have hs' : (confirmAll env (contractsAt env answers) s
            (List.range' i n)).thrown.isSome = true := Option.isSome_iff_ne_none.mpr hs
        obtain ⟨n', hn', heq⟩ := hstops hs
        obtain ⟨e, he⟩ := confirmAll_rejected hthrown htruncated hs
        rw [if_pos hs', heq]
        refine ⟨n', rfl, rfl, fun k hk hk' ↦ ?_, fun hpersist ↦ absurd he (hpersist e)⟩
        exact List.mem_append_right _ (List.mem_range'_1.mpr ⟨hk, by omega⟩)
    · rw [scanWindows_finish limits h, scanWindows_finish limits.serial h]
      obtain ⟨-, -, hms, -⟩ := @finish_fields limits.serial s i
      exact ⟨0, rfl, by simpa using hms, fun k hk hk' ↦ by omega, fun _ ↦ rfl⟩

/-- The indices before `n` end in a run of empty ones that closes the gap window. -/
def Closes (gapLimit : ℕ) (found : ℕ → List CreateContractParams) (n : ℕ) : Prop :=
  gapLimit ≤ n ∧ ∀ j, n - gapLimit ≤ j → j < n → found j = []

/-- The first such run ends before `n`, or there is none up to the last index. -/
structure FirstRun (limits : ScanLimits) (found : ℕ → List CreateContractParams) (n : ℕ) : Prop where
  le : n ≤ limits.maxIdx + 1
  closes : Closes limits.gapLimit found n ∨ n = limits.maxIdx + 1
  first : ∀ m < n, ¬Closes limits.gapLimit found m

/-- `unused` counts the empty indices since the last hit. -/
structure Gap (limits : ScanLimits) (found : ℕ → List CreateContractParams) (unused i : ℕ) :
    Prop where
  le : unused ≤ i
  gap : unused ≤ limits.gapLimit
  empty : ∀ j, i - unused ≤ j → j < i → found j = []
  hit : unused < i → found (i - unused - 1) ≠ []
  first : ∀ m < i, ¬Closes limits.gapLimit found m

section Gap

variable {found : ℕ → List CreateContractParams} {unused : ℕ}

theorem Gap.open (h : Gap limits found unused i) (hunused : unused < limits.gapLimit) :
    ¬Closes limits.gapLimit found i := by
  rintro ⟨hgap, hempty⟩
  have hpos := limits.gapLimit_pos
  exact h.hit (by omega) (hempty (i - unused - 1) (by omega) (by omega))

theorem Gap.next (h : Gap limits found unused i) (hunused : unused < limits.gapLimit) :
    Gap limits found (if found i ≠ [] then 0 else unused + 1) (i + 1) := by
  have hfirst : ∀ m < i + 1, ¬Closes limits.gapLimit found m := by
    intro m hm
    rcases Nat.lt_succ_iff_lt_or_eq.mp hm with hm | rfl
    · exact h.first m hm
    · exact h.open hunused
  split
  · rename_i hhit
    refine ⟨by omega, by omega, fun j hj hj' ↦ by omega, fun _ ↦ ?_, hfirst⟩
    simpa using hhit
  · rename_i hmiss
    have hle := h.le
    refine ⟨by omega, by omega, fun j hj hj' ↦ ?_, fun hlt ↦ ?_, hfirst⟩
    · rcases Nat.lt_succ_iff_lt_or_eq.mp hj' with hj' | rfl
      · exact h.empty j (by omega) hj'
      · simpa using hmiss
    · rw [show i + 1 - (unused + 1) - 1 = i - unused - 1 by omega]
      exact h.hit (by omega)

/-- A gap window that closed, or the last index, is where the first run ends. -/
theorem Gap.firstRun (h : Gap limits found unused i) (hi : i ≤ limits.maxIdx + 1)
    (hends : ¬(i ≤ limits.maxIdx ∧ unused < limits.gapLimit)) : FirstRun limits found i := by
  refine ⟨hi, ?_, h.first⟩
  by_cases hmax : i ≤ limits.maxIdx
  · have hgap := h.gap
    have hle := h.le
    obtain rfl : unused = limits.gapLimit := by
      have := fun hlt ↦ hends ⟨hmax, hlt⟩
      omega
    exact .inl ⟨hle, h.empty⟩
  · exact .inr (by omega)

/-- There is always a first run, and it is not behind an open gap window. -/
theorem Gap.exists_firstRun (h : Gap limits found unused i) (hi : i ≤ limits.maxIdx)
    (hunused : unused < limits.gapLimit) : ∃ n, i < n ∧ FirstRun limits found n := by
  classical
  have hexists : ∃ n, Closes limits.gapLimit found n ∨ n = limits.maxIdx + 1 := ⟨_, .inr rfl⟩
  refine ⟨Nat.find hexists, ?_, Nat.find_min' hexists (.inr rfl), Nat.find_spec hexists,
    fun m hm hcloses ↦ Nat.find_min hexists hm (.inl hcloses)⟩
  by_contra hle
  rcases Nat.find_spec hexists with hcloses | hmax
  · rcases Nat.lt_or_eq_of_le (Nat.le_of_not_lt hle) with hlt | heq
    · exact h.first _ hlt hcloses
    · exact h.open hunused (heq ▸ hcloses)
  · omega

theorem serial_store (hhandlers : Handlers env descriptor answers)
    (hmaterialize : ∀ i, limits.materialize i = .ok (descriptor i)) (hthrown : s.thrown = none)
    (htruncated : s.truncatedAt = none) (hi : i ≤ limits.maxIdx + 1)
    (hgap : Gap limits (contractsAt env answers) s.unused i)
    (hanswered : ∀ k ∈ (scanWindows env limits.serial s i).materialized, i ≤ k →
      Answered env answers k) :
    ∃ n, i ≤ n ∧ FirstRun limits (contractsAt env answers) n ∧
      (scanWindows env limits.serial s i).store =
        (confirmAll env (contractsAt env answers) s (List.range' i (n - i))).store := by
  induction hsize : limits.maxIdx + 1 - i using Nat.strong_induction_on generalizing s i with
  | _ size ih =>
    by_cases h : i ≤ limits.maxIdx ∧ s.unused < limits.gapLimit
    · have hanswered' : Answered env answers i := by
        refine hanswered i ?_ le_rfl
        obtain ⟨l, hl⟩ := scanWindows_asks limits.serial hhandlers hmaterialize h.1 h.2
        have hpos := (windowSize_spec limits.serial h.1 h.2).1
        rw [hl]
        exact List.mem_append_left _ (List.mem_append_right _
          (List.mem_range'_1.mpr ⟨le_rfl, by omega⟩))
      have hstep := serial_step hhandlers hmaterialize h.1 h.2 htruncated hanswered'
      rw [hstep] at hanswered ⊢
      dsimp only at hanswered ⊢
      by_cases hs : (confirm env (contractsAt env answers) s i).thrown = none
      · have hsome : ¬(((confirm env (contractsAt env answers) s i).asking
            (s.materialized ++ [i])).thrown.isSome = true) := by simp [hs]
        rw [if_neg hsome] at hanswered ⊢
        have hgap' := hgap.next h.2
        rw [← (confirm_fields hthrown htruncated).2.2 hs] at hgap'
        obtain ⟨n, hn, hrun, hstore⟩ := ih (limits.maxIdx + 1 - (i + 1)) (by omega)
          (s := (confirm env (contractsAt env answers) s i).asking (s.materialized ++ [i]))
          (i := i + 1) hs (visit_determinate htruncated) (by omega) hgap'
          (fun k hk hk' ↦ hanswered k hk (by omega)) rfl
        refine ⟨n, by omega, hrun, ?_⟩
        rw [hstore, confirmAll_materialized, asking_store,
          show n - i = (n - (i + 1)) + 1 by omega, List.range'_succ]
        rfl
      · have hs' : (confirm env (contractsAt env answers) s i).thrown.isSome = true :=
          Option.isSome_iff_ne_none.mpr hs
        obtain ⟨n, hn, hrun⟩ := hgap.exists_firstRun h.1 h.2
        refine ⟨n, by omega, hrun, ?_⟩
        rw [asking_thrown, if_pos hs', asking_store,
          show n - i = (n - (i + 1)) + 1 by omega, List.range'_succ]
        have hcons : confirmAll env (contractsAt env answers) s
            (i :: List.range' (i + 1) (n - (i + 1))) =
          confirmAll env (contractsAt env answers) (confirm env (contractsAt env answers) s i)
            (List.range' (i + 1) (n - (i + 1))) := rfl
        rw [hcons, confirmAll_thrown hs']
    · rw [scanWindows_finish limits.serial h]
      refine ⟨i, le_rfl, hgap.firstRun hi h, ?_⟩
      simpa [confirmAll] using (@finish_fields limits.serial s i).1

end Gap

/-- An index that the serial scan leaves unanswered is one that a handler fails at. -/
theorem unanswered_of_serial (hhandlers : Handlers env descriptor answers) {window : List ℕ}
    (hlength : window.length ≤ 1) (hm : m ∈ window)
    (hindeterminate : (probesOf env descriptor window).any (·.indeterminate m) = true) :
    ¬Answered env answers m := by
  intro hanswered
  have hall : ∀ k ∈ window, Answered env answers k := by
    intro k hk
    match window, hlength, hm, hk with
    | [j], _, hm, hk =>
      obtain rfl := List.mem_singleton.mp hm
      obtain rfl := List.mem_singleton.mp hk
      exact hanswered
  rw [determinate_of_answered hhandlers hall hm] at hindeterminate
  cases hindeterminate

/-- What is persisted at indices before `m` is persisted by confirming them. -/
theorem confirmAll_before {found : ℕ → List CreateContractParams} {n : ℕ} {p : ℕ × Contract}
    (hp : p ∈ (confirmAll env found s (List.range' 0 n)).persisted) (hlt : p.1 < m) :
    p ∈ (confirmAll env found s (List.range' 0 m)).persisted := by
  rcases Nat.le_total n m with hle | hle
  · obtain ⟨l, hl, -⟩ := @confirmAll_persisted env (confirmAll env found s (List.range' 0 n)) found
      (List.range' n (m - n))
    have hsplit := @List.range'_append_1 0 n (m - n)
    rw [Nat.zero_add, Nat.add_sub_cancel' hle] at hsplit
    rw [← hsplit, confirmAll_append, hl]
    exact List.mem_append_left l hp
  · obtain ⟨l, hl, hindex⟩ := @confirmAll_persisted env
      (confirmAll env found s (List.range' 0 m)) found (List.range' m (n - m))
    have hsplit := @List.range'_append_1 0 m (n - m)
    rw [Nat.zero_add, Nat.add_sub_cancel' hle] at hsplit
    rw [← hsplit, confirmAll_append, hl] at hp
    refine (List.mem_append.mp hp).resolve_right fun hp ↦ ?_
    have := (List.mem_range'_1.mp (hindex p hp)).1
    omega

theorem limits_serial {opts : ScanContractsOptions} (h : opts.limits = .ok limits) :
    ScanContractsOptions.limits { opts with batchSize := some 1 } = .ok limits.serial ∧
      limits.materialize = opts.materialize := by
  unfold ScanContractsOptions.limits at h ⊢
  dsimp only at h ⊢
  split at h
  · cases h
  · rename_i hgap
    split at h
    · cases h
    · cases h
      rw [dif_neg hgap]
      exact ⟨rfl, rfl⟩

theorem gap_start {found : ℕ → List CreateContractParams} : Gap limits found 0 0 :=
  ⟨le_rfl, Nat.zero_le _, fun j _ hj ↦ by omega, fun h ↦ by omega, fun m hm ↦ by omega⟩

/-- A batched scan asks for the indices up to some point, once each. Where every handler answers
for them, it is the serial scan, and both persist what is at the indices before the first run of
empty ones. Where some handler fails and persisting throws nowhere, it is truncated no later than
at the index that handler failed at. Before the index it is truncated at every handler answered,
and nothing is missing that the serial scan persists. -/
theorem batched_scan (hhandlers : Handlers env descriptor answers) {opts : ScanContractsOptions}
    (hlimits : opts.limits = .ok limits)
    (hmaterialize : ∀ i, opts.materialize i = .ok (descriptor i)) (store : Store) :
    ∃ batched serial, runScan env opts store = .ok batched ∧
      runScan env { opts with batchSize := some 1 } store = .ok serial ∧
      (∃ n ≤ limits.maxIdx + 1, batched.materialized = List.range n) ∧
      ((∀ i ∈ batched.materialized, Answered env answers i) →
        batched.result = serial.result ∧ batched.store = serial.store ∧
        batched.persisted = serial.persisted ∧
        ((∀ e, batched.thrown ≠ some (.persist e)) →
          batched.materialized = serial.materialized) ∧
        ∃ n, FirstRun limits (contractsAt env answers) n ∧ batched.store =
          (persistAll env store ((List.range n).flatMap (contractsAt env answers))).1) ∧
      (∀ i ∈ batched.materialized, ∀ h ∈ discoverables env.contractHandlers,
        answers h i = none → batched.thrown = none → ∃ t ≤ i, batched.truncatedAt = some t) ∧
      ∀ t, batched.truncatedAt = some t → (∀ i < t, Answered env answers i) ∧
        ∀ p ∈ serial.persisted, p.1 < t → p ∈ batched.persisted := by
  obtain ⟨hserial, hmat⟩ := limits_serial hlimits
  rw [← hmat] at hmaterialize
  obtain ⟨m, l, n, hshape, hmax, hms, hend⟩ := scanWindows_confirms limits (s := .start store) (i := 0)
    hhandlers hmaterialize rfl rfl (Nat.zero_le _)
  refine ⟨scanWindows env limits (.start store) 0, scanWindows env limits.serial (.start store) 0,
    by rw [runScan, hlimits]; rfl, by rw [runScan, hserial]; rfl, ⟨n, by omega, ?_⟩, fun hall ↦ ?_,
    fun i hi h hh hfails hnone ↦ ?_, fun t ht ↦ ?_⟩
  · rw [hms, List.range_eq_range']
    rfl
  · obtain ⟨n', heq, hserial, hmem, hsame⟩ := scanWindows_serial hhandlers hmaterialize rfl rfl
      (Nat.zero_le _) fun k hk _ ↦ hall k hk
    obtain ⟨stop, -, hrun, hstore⟩ := serial_store (s := .start store) hhandlers hmaterialize rfl rfl
      (Nat.zero_le _) gap_start fun k hk _ ↦ by
        rw [hserial] at hk
        exact hall k (hmem k (Nat.zero_le k) (List.mem_range'_1.mp hk).2)
    have hsameStore : (scanWindows env limits (.start store) 0).store =
        (scanWindows env limits.serial (.start store) 0).store := by
      rw [heq, asking_store]
    have hresult : (scanWindows env limits (.start store) 0).result =
        (scanWindows env limits.serial (.start store) 0).result := by
      rw [heq, asking_result]
    have hpersisted : (scanWindows env limits (.start store) 0).persisted =
        (scanWindows env limits.serial (.start store) 0).persisted := by
      rw [heq, asking_persisted]
    refine ⟨hresult, hsameStore, hpersisted, hsame, stop, hrun, ?_⟩
    rw [hsameStore, hstore, confirmAll_store rfl rfl, Nat.sub_zero, ← List.range_eq_range']
    rfl
  · have hanswered (hlt : i < m) : False := hshape.answered i (Nat.zero_le i) hlt h hh hfails
    cases htrunc : (scanWindows env limits (.start store) 0).truncatedAt with
    | none =>
      rw [hms] at hi
      have hlt := (List.mem_range'_1.mp hi).2
      exact (hanswered (hend hnone htrunc ▸ hlt)).elim
    | some t => exact ⟨t, Nat.le_of_not_lt (hshape.truncatedAt t htrunc ▸ hanswered), rfl⟩
  · obtain rfl := hshape.truncatedAt t ht
    refine ⟨fun i hi ↦ hshape.answered i (Nat.zero_le i) hi, fun p hp hlt ↦ ?_⟩
    obtain ⟨m', l', -, hshape', -⟩ := scanWindows_confirms limits.serial
      (s := .start store) (i := 0) hhandlers hmaterialize rfl rfl (Nat.zero_le _)
    rw [hshape.persisted]
    rw [hshape'.persisted] at hp
    rcases List.mem_append.mp hp with hp | hp
    · exact List.mem_append_left l (confirmAll_before hp hlt)
    · -- the serial scan stopped at an index that some handler failed at
      have hle := hshape'.beyond p hp
      obtain ⟨window, hlength, hm, hindeterminate⟩ :=
        hshape'.unanswered (List.ne_nil_of_mem hp)
      exact absurd (hshape.answered m' (Nat.zero_le m') (by omega))
        (unanswered_of_serial hhandlers hlength hm hindeterminate)

/-- The contract of the sample, whose script is named after its index. -/
def sampleContract (i : ℕ) : CreateContractParams :=
  ⟨none, "default", [("index", toString i)], toString i, "", none, none⟩

/-- A handler that answers for ranges, with a contract at index 1. -/
def sampleRanged : Discoverable where
  discoverAt i _ := .ok (if i = 1 then [sampleContract i] else [])
  discoverRange := some fun _ ↦ .ok fun i ↦ some (if i = 1 then [sampleContract i] else [])

/-- A handler that answers index by index, and fails at index 3. -/
def sampleLimited : Discoverable where
  discoverAt i _ := if i = 3 then .error "429" else .ok []
  discoverRange := none

def sampleEnvironment : Environment where
  contractHandlers := [
    ⟨"default", fun params ↦ .ok ((params.lookup "index").getD ""), some sampleRanged⟩,
    ⟨"boarding", fun _ ↦ .ok "", some sampleLimited⟩]
  now _ := 0

def sampleAnswers (h : String × Discoverable) (i : ℕ) : Option (List CreateContractParams) :=
  if h.1 = "boarding" then if i = 3 then none else some []
  else some (if i = 1 then [sampleContract i] else [])

theorem sampleHandlers : Handlers sampleEnvironment toString sampleAnswers := by
  intro h hh
  have hcases : h = ("boarding", sampleLimited) ∨ h = ("default", sampleRanged) := by
    simpa [discoverables, sampleEnvironment] using hh
  rcases hcases with rfl | rfl
  · refine ⟨fun _ i ↦ ?_, fun _ hrange ↦ (by cases hrange), fun _ hrange ↦ (by cases hrange)⟩
    by_cases hi : i = 3 <;> simp [sampleLimited, sampleAnswers, hi, Except.toOption]
  · refine ⟨fun hrange ↦ (by cases hrange), fun _ hrange window _ ↦ ?_,
      fun _ hrange window ranged hranged i _ found hfound ↦ ?_⟩
    · obtain rfl := Option.some.inj hrange
      exact ⟨_, rfl, fun i _ ↦ by simp [sampleAnswers]⟩
    · obtain rfl := Option.some.inj hrange
      obtain rfl := Except.ok.inj hranged
      simpa [sampleAnswers] using hfound

def sampleOptions : ScanContractsOptions := ⟨some 3, some 5, true, fun i ↦ .ok (toString i)⟩

theorem batched_scan_sample : ∃ batched,
    runScan sampleEnvironment sampleOptions ⟨[], [], []⟩ = .ok batched ∧
      ∀ t, batched.truncatedAt = some t → ∀ i < t, Answered sampleEnvironment sampleAnswers i := by
  obtain ⟨batched, _, hbatched, -, -, -, -, htruncated⟩ := batched_scan sampleHandlers
    (show sampleOptions.limits = .ok _ from rfl) (fun _ ↦ rfl) ⟨[], [], []⟩
  exact ⟨batched, hbatched, fun t ht ↦ (htruncated t ht).1⟩

end ArkadeSdk.Contracts
