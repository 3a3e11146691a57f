import ArkadeSdk.Contracts.ScanProbes

/-! A scan by windows confirms indices one after the other up to where it is truncated. -/

namespace ArkadeSdk.Contracts

variable {env : Environment} {limits : ScanLimits} {descriptor : ℕ → String}
  {answers : String × Discoverable → ℕ → Option (List CreateContractParams)}
  {s : Scan} {i m : ℕ}

theorem materializeAll_ok {materialize : ℕ → Except String String}
    (h : ∀ i, materialize i = .ok (descriptor i)) (window : List ℕ) :
    materializeAll materialize window = (entriesOf descriptor window, none) := by
  induction window with
  | nil => rfl
  | cons i window ih => simp [materializeAll, h i, ih, entriesOf]

def probed (env : Environment) (descriptor : ℕ → String) (s : Scan) (window : List ℕ) : Scan :=
  window.foldl (visitProbed env (probesOf env descriptor window))
    (s.asking (s.materialized ++ window))

theorem probed_materialized (window : List ℕ) :
    (probed env descriptor s window).materialized = s.materialized ++ window := by
  have h := foldl_materialized (f := visitProbed env (probesOf env descriptor window))
    (fun _ _ ms ↦ visit_materialized ms) (s.materialized ++ window) window (s := s)
  rw [probed, h, asking_materialized]

/-- The indices of the window that starts at an index. -/
def windowSize (limits : ScanLimits) (s : Scan) (i : ℕ) : ℕ := windowEnd limits s.unused i + 1 - i

variable (limits) in
theorem windowSize_spec (hi : i ≤ limits.maxIdx) (hunused : s.unused < limits.gapLimit) :
    0 < windowSize limits s i ∧ windowSize limits s i ≤ limits.batchSize ∧
      windowSize limits s i ≤ limits.gapLimit - s.unused ∧
      i + windowSize limits s i ≤ limits.maxIdx + 1 := by
  have hbatch := limits.batchSize_pos
  unfold windowSize windowEnd
  omega

variable (limits) in
theorem scanWindows_window (hmaterialize : ∀ i, limits.materialize i = .ok (descriptor i))
    (hi : i ≤ limits.maxIdx) (hunused : s.unused < limits.gapLimit) :
    scanWindows env limits s i =
      let s' := probed env descriptor s (List.range' i (windowSize limits s i))
      if s'.thrown.isSome ∨ s'.truncatedAt.isSome then s'
      else scanWindows env limits s' (i + windowSize limits s i) := by
  have hstop : i + windowSize limits s i = windowEnd limits s.unused i + 1 := by
    have := le_windowEnd hi hunused
    unfold windowSize
    omega
  rw [scanWindows, dif_pos ⟨hi, hunused⟩, hstop]
  simp only [materializeAll_ok hmaterialize]
  have hentries (window : List ℕ) : (entriesOf descriptor window).map (·.1) = window := by
    simp [entriesOf, Function.comp_def]
  rw [hentries]
  rfl

variable (limits) in
theorem scanWindows_finish (h : ¬(i ≤ limits.maxIdx ∧ s.unused < limits.gapLimit)) :
    scanWindows env limits s i = limits.finish s i := by
  rw [scanWindows, dif_neg h]

theorem finish_fields : (limits.finish s i).store = s.store ∧
    (limits.finish s i).persisted = s.persisted ∧
    (limits.finish s i).materialized = s.materialized ∧
    (limits.finish s i).truncatedAt = s.truncatedAt := by
  unfold ScanLimits.finish
  split <;> exact ⟨rfl, rfl, rfl, rfl⟩

/-- A scan confirms indices up to `m`. What else it persists is at indices from there on, and
then it was truncated there or it threw. -/
structure Confirms (env : Environment) (descriptor : ℕ → String)
    (answers : String × Discoverable → ℕ → Option (List CreateContractParams)) (batchSize : ℕ)
    (s s' : Scan) (i m : ℕ) (l : List (ℕ × Contract)) : Prop where
  le : i ≤ m
  persisted : s'.persisted =
    (confirmAll env (contractsAt env answers) s (List.range' i (m - i))).persisted ++ l
  beyond : ∀ p ∈ l, m ≤ p.1
  answered : ∀ k, i ≤ k → k < m → Answered env answers k
  unanswered : l ≠ [] → ∃ window : List ℕ, window.length ≤ batchSize ∧ m ∈ window ∧
    (probesOf env descriptor window).any (·.indeterminate m) = true
  truncatedAt : ∀ t, s'.truncatedAt = some t → t = m

theorem probed_confirms (hhandlers : Handlers env descriptor answers) {window : List ℕ} {n : ℕ}
    (hthrown : s.thrown = none) (htruncated : s.truncatedAt = none)
    (hwindow : ∀ k ∈ List.range' i n, k ∈ window) :
    let s' := (List.range' i n).foldl (visitProbed env (probesOf env descriptor window)) s
    ∃ m l, Confirms env descriptor answers window.length s s' i m l ∧ m ≤ i + n ∧
      (s'.thrown = none → s'.truncatedAt = none → m = i + n ∧ l = [] ∧
        s' = confirmAll env (contractsAt env answers) s (List.range' i n)) := by
  have hpersisted (s i) : ∃ l,
      (visitProbed env (probesOf env descriptor window) s i).persisted = s.persisted ++ l ∧
        ∀ p ∈ l, p.1 = i := visit_persisted
  have hkept (s : Scan) (i : ℕ) (h : s.thrown.isSome = true) :
      visitProbed env (probesOf env descriptor window) s i = s := visit_thrown h
  induction n generalizing s i with
  | zero =>
    refine ⟨i, [], ⟨le_rfl, by simp [confirmAll], by simp, fun k h h' ↦ by omega, by simp, ?_⟩,
      by omega, fun _ _ ↦ ⟨rfl, rfl, rfl⟩⟩
    simp [htruncated]
  | succ n ih =>
    rw [List.range'_succ] at hwindow ⊢
    obtain ⟨hi, hrest⟩ := List.forall_mem_cons.mp hwindow
    cases hdet : (probesOf env descriptor window).any (·.indeterminate i) with
    | true =>
      obtain ⟨l, hl, hindex⟩ := foldl_persisted (s := s) hpersisted (i :: List.range' (i + 1) n)
      have hvisit : visitProbed env (probesOf env descriptor window) s i = visit env
          ((probesOf env descriptor window).flatMap (·.found i)) true
          ((probesOf env descriptor window).filterMap (·.errors i)) s i := by
        rw [visitProbed, hdet]
      -- the scan is truncated here, unless persisting its hits throws
      have hends : ((i :: List.range' (i + 1) n).foldl
            (visitProbed env (probesOf env descriptor window)) s).truncatedAt = some i ∨
          ((i :: List.range' (i + 1) n).foldl
              (visitProbed env (probesOf env descriptor window)) s).truncatedAt = none ∧
            ((i :: List.range' (i + 1) n).foldl
              (visitProbed env (probesOf env descriptor window)) s).thrown ≠ none := by
        rw [List.foldl_cons, hvisit]
        by_cases hs' : (visit env ((probesOf env descriptor window).flatMap (·.found i)) true
            ((probesOf env descriptor window).filterMap (·.errors i)) s i).thrown = none
        · exact .inl (foldl_truncatedAt (fun _ _ _ ↦ visit_truncatedAt)
            (visit_indeterminate hthrown htruncated hs') _)
        · rw [foldl_thrown hkept (Option.isSome_iff_ne_none.mpr hs')]
          exact .inr ⟨(visit_rejected hthrown hs').trans htruncated, hs'⟩
      refine ⟨i, l, ⟨le_rfl, by simpa [confirmAll] using hl, fun p hp ↦ ?_,
        fun k h h' ↦ by omega, fun _ ↦ ⟨window, le_rfl, hi, hdet⟩, fun t ht ↦ ?_⟩, by omega,
        fun hnone htrunc ↦ ?_⟩
      · rcases List.mem_cons.mp (hindex p hp) with h | h
        · omega
        · have := (List.mem_range'_1.mp h).1
          omega
      · rcases hends with hends | ⟨hends, -⟩ <;> rw [ht] at hends
        · exact Option.some.inj hends
        · cases hends
      · rcases hends with hends | ⟨-, hends⟩
        · rw [htrunc] at hends
          cases hends
        · exact absurd hnone hends
    | false =>
      obtain ⟨hanswered, heq⟩ := visitProbed_eq_confirm hhandlers hi hdet
      have htruncated' : (confirm env (contractsAt env answers) s i).truncatedAt = none :=
        visit_determinate htruncated
      rw [List.foldl_cons, heq s]
      cases hs' : (confirm env (contractsAt env answers) s i).thrown with
      | none =>
        obtain ⟨m, l, hshape, hm, hend⟩ := ih hs' htruncated' hrest
        refine ⟨m, l, ⟨by have := hshape.le; omega, ?_, hshape.beyond, fun k h h' ↦ ?_,
          hshape.unanswered, hshape.truncatedAt⟩, by omega, fun hnone htrunc ↦ ?_⟩
        · rw [hshape.persisted]
          have hlt := hshape.le
          rw [show m - i = (m - (i + 1)) + 1 by omega, List.range'_succ]
          rfl
        · rcases Nat.eq_or_lt_of_le h with rfl | hlt
          · exact hanswered
          · exact hshape.answered k hlt h'
        · obtain ⟨rfl, hl, hfold⟩ := hend hnone htrunc
          exact ⟨by omega, hl, hfold⟩
      | some e =>
        have hfold := foldl_thrown hkept (s := confirm env (contractsAt env answers) s i)
          (by simp [hs']) (List.range' (i + 1) n)
        rw [hfold]
        refine ⟨i + 1, [], ⟨by omega, ?_, by simp, fun k h h' ↦ ?_, by simp, ?_⟩, by omega,
          fun hnone ↦ ?_⟩
        · simp [confirmAll]
        · obtain rfl : k = i := by omega
          exact hanswered
        · simp [htruncated']
        · rw [hs'] at hnone
          cases hnone

variable (limits) in
theorem scanWindows_confirms (hhandlers : Handlers env descriptor answers)
    (hmaterialize : ∀ i, limits.materialize i = .ok (descriptor i)) (hthrown : s.thrown = none)
    (htruncated : s.truncatedAt = none) (hi : i ≤ limits.maxIdx + 1) :
    ∃ m l n, Confirms env descriptor answers limits.batchSize s (scanWindows env limits s i) i m l ∧
      i + n ≤ limits.maxIdx + 1 ∧
      (scanWindows env limits s i).materialized = s.materialized ++ List.range' i n ∧
      ((scanWindows env limits s i).thrown = none →
        (scanWindows env limits s i).truncatedAt = none → m = i + n) := by
  induction hsize : limits.maxIdx + 1 - i using Nat.strong_induction_on generalizing s i with
  | _ size ih =>
    by_cases h : i ≤ limits.maxIdx ∧ s.unused < limits.gapLimit
    · obtain ⟨hpos, hbatch, -, hmax⟩ := windowSize_spec limits h.1 h.2
      generalize hn : windowSize limits s i = n at hpos hbatch hmax
      obtain ⟨m, l, hshape, hm, hend⟩ := probed_confirms hhandlers
        (s := s.asking (s.materialized ++ List.range' i n)) hthrown htruncated
        (fun k (hk : k ∈ List.range' i n) ↦ hk)
      have hprobed : probed env descriptor s (List.range' i n) = (List.range' i n).foldl
        (visitProbed env (probesOf env descriptor (List.range' i n)))
        (s.asking (s.materialized ++ List.range' i n)) := rfl
      have hms : (probed env descriptor s (List.range' i n)).materialized =
          s.materialized ++ List.range' i n := probed_materialized _
      rw [← hprobed] at hshape hend
      rw [List.length_range'] at hshape
      rw [scanWindows_window limits hmaterialize h.1 h.2, hn]
      dsimp only
      split
      · -- the window truncates the scan or throws
        rename_i hstops
        refine ⟨m, l, n, ⟨hshape.le, ?_, hshape.beyond, hshape.answered, fun hl ↦ ?_,
          hshape.truncatedAt⟩, hmax, hms, fun hnone htrunc ↦ ?_⟩
        · rw [hshape.persisted, confirmAll_materialized, asking_persisted]
        · obtain ⟨window, hlength, hwindow⟩ := hshape.unanswered hl
          exact ⟨window, by omega, hwindow⟩
        · simp [hnone, htrunc] at hstops
      · rename_i hgoes
        obtain ⟨hnone, htrunc⟩ : (probed env descriptor s (List.range' i n)).thrown = none ∧
            (probed env descriptor s (List.range' i n)).truncatedAt = none := by
          simpa using hgoes
        obtain ⟨rfl, rfl, hconfirm⟩ := hend hnone htrunc
        obtain ⟨m', l', n', hshape', hmax', hms', hend'⟩ := ih (limits.maxIdx + 1 - (i + n))
          (by omega) hnone htrunc hmax rfl
        have hle := hshape'.le
        refine ⟨m', l', n + n', ⟨by omega, ?_, hshape'.beyond, fun k hk hk' ↦ ?_,
          hshape'.unanswered, hshape'.truncatedAt⟩, by omega, ?_, fun h h' ↦ ?_⟩
        · rw [hshape'.persisted, hconfirm, ← confirmAll_append, List.range'_append_1,
            confirmAll_materialized, asking_persisted, show n + (m' - (i + n)) = m' - i by omega]
        · rcases Nat.lt_or_ge k (i + n) with hlt | hge
          · exact hshape.answered k hk hlt
          · exact hshape'.answered k hge hk'
        · rw [hms', hms, List.append_assoc, List.range'_append_1]
        · rw [hend' h h']
          omega
    · obtain ⟨-, hpersisted, hms, htrunc⟩ := @finish_fields limits s i
      rw [scanWindows_finish limits h]
      refine ⟨i, [], 0, ⟨le_rfl, by simp [confirmAll, hpersisted], by simp,
        fun k h h' ↦ by omega, by simp, fun t ht ↦ ?_⟩, by omega, by simp [hms], fun _ _ ↦ rfl⟩
      rw [htrunc, htruncated] at ht
      cases ht

variable (limits) in
theorem scanWindows_asks (hhandlers : Handlers env descriptor answers)
    (hmaterialize : ∀ i, limits.materialize i = .ok (descriptor i)) (hi : i ≤ limits.maxIdx)
    (hunused : s.unused < limits.gapLimit) : ∃ l, (scanWindows env limits s i).materialized =
      s.materialized ++ List.range' i (windowSize limits s i) ++ l := by
  rw [scanWindows_window limits hmaterialize hi hunused]
  dsimp only
  split
  · exact ⟨[], by rw [probed_materialized, List.append_nil]⟩
  · rename_i hgoes
    obtain ⟨hnone, htrunc⟩ := not_or.mp hgoes
    obtain ⟨-, -, n, -, -, hms, -⟩ := scanWindows_confirms limits hhandlers hmaterialize
      (by simpa using hnone) (by simpa using htrunc) (windowSize_spec limits hi hunused).2.2.2
    exact ⟨_, by rw [hms, probed_materialized]⟩

end ArkadeSdk.Contracts
