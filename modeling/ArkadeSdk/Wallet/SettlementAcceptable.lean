import ArkadeSdk.Lib.Admission
import ArkadeSdk.Lib.WireFormat
import ArkadeSdk.Wallet.Settlement
import Mathlib.Algebra.Order.BigOperators.Group.List
import Mathlib.Algebra.Order.Floor.Ring

/-! The operator accepts what the wallet proposes: the inputs and the output stay within its limits
and pay what it asks. -/

namespace ArkadeSdk.Settlement

open Renewal Admission WireFormat

/-- There is room for one more, also by what the batch comes to with it. -/
def fits (measure : List VirtualCoin → ℤ) (vtxoMaxAmount : ℤ) (taken : List VirtualCoin)
    (vtxo : VirtualCoin) : Bool :=
  taken.length < MAX_VTXOS_PER_SETTLEMENT &&
    (vtxoMaxAmount < 0 || measure (taken ++ [vtxo]) ≤ vtxoMaxAmount)

def batch (measure : List VirtualCoin → ℤ) (vtxoMaxAmount : ℤ) (sorted : List VirtualCoin) :
    List VirtualCoin := fill (fits measure vtxoMaxAmount) [] sorted

/-- Each one finds room on its turn. -/
def WithinCaps (measure : List VirtualCoin → ℤ) (vtxoMaxAmount : ℤ) (sorted : List VirtualCoin) :
    Prop :=
  sorted.length ≤ MAX_VTXOS_PER_SETTLEMENT ∧
    (0 ≤ vtxoMaxAmount → ∀ k < sorted.length, measure (sorted.take (k + 1)) ≤ vtxoMaxAmount)

variable {measure : List VirtualCoin → ℤ} {vtxoMaxAmount : ℤ}

theorem fill_full {taken : List VirtualCoin} (l : List VirtualCoin)
    (h : MAX_VTXOS_PER_SETTLEMENT ≤ taken.length) :
    fill (fits measure vtxoMaxAmount) taken l = taken := by
  induction l with
  | nil => rfl
  | cons v rest ih => rw [fill, if_neg (by simp [fits, h]), ih]

theorem batch_length (sorted : List VirtualCoin) :
    (batch measure vtxoMaxAmount sorted).length ≤ MAX_VTXOS_PER_SETTLEMENT := by
  refine fill_keeps (P := fun taken ↦ taken.length ≤ MAX_VTXOS_PER_SETTLEMENT) sorted
    (Nat.zero_le _) fun taken v _ hfits ↦ ?_
  simp only [fits, Bool.and_eq_true, decide_eq_true_eq] at hfits
  simpa using hfits.1

theorem batch_measure {sorted : List VirtualCoin} (hmax : 0 ≤ vtxoMaxAmount)
    (h : batch measure vtxoMaxAmount sorted ≠ []) :
    measure (batch measure vtxoMaxAmount sorted) ≤ vtxoMaxAmount := by
  rcases fill_last (fits measure vtxoMaxAmount) sorted with hnil | ⟨taken, v, heq, hfits⟩
  · exact absurd hnil h
  · simp only [fits, Bool.and_eq_true, Bool.or_eq_true, decide_eq_true_eq] at hfits
    rw [batch, heq]
    exact hfits.2.resolve_left (not_lt.mpr hmax)

theorem batch_all {sorted : List VirtualCoin} (h : WithinCaps measure vtxoMaxAmount sorted) :
    batch measure vtxoMaxAmount sorted = sorted := by
  refine (fill_all fun k v hv ↦ ?_).trans (List.nil_append _)
  have hk : k < sorted.length := (List.getElem?_eq_some_iff.mp hv).1
  have htake : sorted.take (k + 1) = sorted.take k ++ [v] := by
    rw [List.take_add_one, hv]
    rfl
  simp only [fits, List.nil_append, Bool.and_eq_true, Bool.or_eq_true, decide_eq_true_eq,
    List.length_take]
  refine ⟨lt_of_lt_of_le (by omega) h.1, ?_⟩
  rcases lt_or_ge vtxoMaxAmount 0 with hneg | hmax
  · exact .inl hneg
  · exact .inr (htake ▸ h.2 hmax k hk)

theorem totalValue_append (l l' : List VirtualCoin) :
    totalValue (l ++ l') = totalValue l + totalValue l' := by
  simp [totalValue]

theorem subtotalOf_append (e : Estimator) (l l' : List VirtualCoin) :
    subtotalOf e (l ++ l') = subtotalOf e l + subtotalOf e l' := by
  simp [subtotalOf]

theorem capFrom_eq (taken l : List VirtualCoin) :
    capFrom vtxoMaxAmount taken (totalValue taken) l =
      fill (fits totalValue vtxoMaxAmount) taken l := by
  induction l generalizing taken with
  | nil => rfl
  | cons v rest ih =>
    rw [capFrom]
    split
    · next hfull => exact (fill_full _ hfull).symm
    · next hroom =>
      have hv : totalValue [v] = v.value := by simp [totalValue]
      split
      · next hover =>
        rw [fill, if_neg, ih]
        simp only [fits, totalValue_append, hv, Bool.and_eq_true, Bool.or_eq_true,
          decide_eq_true_eq]
        omega
      · next hunder =>
        rw [fill, if_pos, ← ih, totalValue_append, hv]
        simp only [fits, totalValue_append, hv, Bool.and_eq_true, Bool.or_eq_true,
          decide_eq_true_eq]
        omega

theorem capSettlementBatch_eq (sorted : List VirtualCoin) :
    capSettlementBatch sorted vtxoMaxAmount = batch totalValue vtxoMaxAmount sorted :=
  capFrom_eq [] sorted

/-- What the inputs so far come to, by way of what is projected from it. -/
def projectedTotal (e : Estimator) (base : ℤ) (projected : ℤ → ℤ) (taken : List VirtualCoin) : ℤ :=
  projected (base + subtotalOf e taken)

theorem takeProjected_from (vtxoMaxAmount : ℤ) (e : Estimator) (base : ℤ) (projected : ℤ → ℤ)
    (taken l : List VirtualCoin) :
    takeProjected e vtxoMaxAmount projected taken (base + subtotalOf e taken) l =
      let taken' := fill (fits (projectedTotal e base projected) vtxoMaxAmount) taken
        (l.filter (payable e))
      (taken', base + subtotalOf e taken') := by
  induction l generalizing taken with
  | nil => rfl
  | cons v rest ih =>
    rw [takeProjected]
    split
    · next hfull =>
      dsimp only
      rw [fill_full _ hfull]
    · next hroom =>
      have hv : subtotalOf e [v] = net e v := by simp [subtotalOf]
      have hnext : projectedTotal e base projected (taken ++ [v]) =
          projected (base + subtotalOf e taken + net e v) := by
        rw [projectedTotal, subtotalOf_append, hv, add_assoc]
      by_cases hpays : payable e v = true
      · have hpaid : ¬ v.value ≤ satoshis (e.offchainInput v) :=
          not_le.mpr (of_decide_eq_true hpays)
        rw [List.filter_cons_of_pos hpays]
        split
        · next hover =>
          rw [ih, fill, if_neg]
          simp only [fits, hnext, Bool.and_eq_true, Bool.or_eq_true, decide_eq_true_eq]
          omega
        · next hunder =>
          have hfits : fits (projectedTotal e base projected) vtxoMaxAmount taken v = true := by
            simp only [fits, hnext, Bool.and_eq_true, Bool.or_eq_true, decide_eq_true_eq]
            omega
          have hrest := ih (taken ++ [v])
          rw [subtotalOf_append, hv, ← add_assoc] at hrest
          rw [hrest, fill, if_pos hfits]
      · have hunpaid : v.value ≤ satoshis (e.offchainInput v) :=
          not_lt.mp fun h ↦ hpays (decide_eq_true h)
        rw [if_pos (.inl hunpaid), List.filter_cons_of_neg hpays, ih]

theorem takeProjected_eq (e : Estimator) (base : ℤ) (projected : ℤ → ℤ) (l : List VirtualCoin) :
    takeProjected e vtxoMaxAmount projected [] base l =
      let taken := batch (projectedTotal e base projected) vtxoMaxAmount (l.filter (payable e))
      (taken, base + subtotalOf e taken) := by
  have h := takeProjected_from vtxoMaxAmount e base projected [] l
  rwa [show base + subtotalOf e [] = base from add_zero base] at h

theorem takeVtxos_eq (e : Estimator) (taken : List VirtualCoin) (totalAmount : ℤ)
    (l : List VirtualCoin) :
    takeVtxos e vtxoMaxAmount taken totalAmount l =
      takeProjected e vtxoMaxAmount (·) taken totalAmount l := by
  induction l generalizing taken totalAmount with
  | nil => rfl
  | cons v rest ih => rw [takeVtxos, takeProjected, ih, ih]

structure NonNegative (e : Estimator) : Prop where
  offchainInput : ∀ vtxo, 0 ≤ e.offchainInput vtxo
  onchainInput : ∀ amount, 0 ≤ e.onchainInput amount
  outputFee : ∀ amount address, 0 ≤ outputFee e amount address

theorem satoshis_nonneg {fee : ℚ} (h : 0 ≤ fee) : 0 ≤ satoshis fee := Int.ceil_nonneg h

theorem deductOffchainOutputFee_eq (e : Estimator) (amount : ℤ) (address : String) :
    deductOffchainOutputFee amount e address = amount - satoshis (outputFee e amount address) := by
  unfold deductOffchainOutputFee outputFee
  cases e.offchainOutput with
  | none => simp [satoshis]
  | some program => rfl

theorem deductOffchainOutputFee_le {e : Estimator} (he : NonNegative e) (amount : ℤ)
    (address : String) : deductOffchainOutputFee amount e address ≤ amount := by
  have h := satoshis_nonneg (he.outputFee amount address)
  rw [deductOffchainOutputFee_eq]
  omega

/-- What the inputs are worth once each has paid its fee. -/
def subtotal (e : Estimator) (s : Proposal) : ℤ :=
  boardingTotal e s.boarding + subtotalOf e s.vtxos

structure Acceptable (e : Estimator) (vtxoMaxAmount dustAmount : ℤ) (s : Proposal) : Prop where
  count : s.vtxos.length ≤ MAX_VTXOS_PER_SETTLEMENT
  distinct : (s.boarding.map (·.outpoint) ++ s.vtxos.map (·.outpoint)).Nodup
  boardingPays : ∀ u ∈ s.boarding, e.onchainInput u.value < u.value
  vtxosPay : ∀ v ∈ s.vtxos, e.offchainInput v < v.value
  dust : dustAmount ≤ s.amount
  max : 0 ≤ vtxoMaxAmount → s.vtxos ≠ [] → s.amount ≤ vtxoMaxAmount
  -- the output is priced at its amount before its own fee is taken off
  offered : inputFees e s.boarding s.vtxos + outputFee e (subtotal e s) s.address ≤
    s.inputValue - s.amount

/-- Where the operator asks no more for the smaller output, the offer is what it asks. -/
theorem Acceptable.evaluate_le {e : Estimator} {dustAmount : ℤ} {s : Proposal}
    (h : Acceptable e vtxoMaxAmount dustAmount s)
    (hfee : outputFee e s.amount s.address ≤ outputFee e (subtotal e s) s.address) :
    evaluate e s ≤ s.inputValue - s.amount :=
  (add_le_add_right hfee _).trans h.offered

/-- The settlement is one that the operator accepts, and offers what `Estimator.evaluate` asks
wherever the output program asks no more for the output than before its fee was taken off. -/
structure Accepted (e : Estimator) (vtxoMaxAmount dustAmount : ℤ) (s : Proposal) : Prop where
  acceptable : Acceptable e vtxoMaxAmount dustAmount s
  evaluated : outputFee e s.amount s.address ≤ outputFee e (subtotal e s) s.address →
    evaluate e s ≤ s.inputValue - s.amount

theorem fees_le {α : Type} (value : α → ℤ) (fee : α → ℚ) (l : List α) :
    (l.map fee).sum ≤
      (((l.map value).sum - (l.map fun a ↦ value a - satoshis (fee a)).sum : ℤ) : ℚ) := by
  induction l with
  | nil => simp
  | cons a l ih =>
    have ha : fee a ≤ (satoshis (fee a) : ℚ) := Int.le_ceil _
    simp only [List.map_cons, List.sum_cons]
    push_cast at ih ⊢
    linarith

theorem pays_of_payable {e : Estimator} {v : VirtualCoin} (h : payable e v = true) :
    e.offchainInput v < v.value :=
  (Int.le_ceil _).trans_lt (Int.cast_lt.mpr (of_decide_eq_true h))

theorem acceptable {e : Estimator} {dustAmount : ℤ} {s : Proposal}
    (boarding : List BoardingCoin) {vtxos : List VirtualCoin}
    (hdistinct : (boarding.map (·.outpoint) ++ vtxos.map (·.outpoint)).Nodup)
    (hboarding : s.boarding = filteredBoarding e boarding) (hvtxos : s.vtxos.Subperm vtxos)
    (hpayable : ∀ v ∈ s.vtxos, payable e v = true)
    (hcount : s.vtxos.length ≤ MAX_VTXOS_PER_SETTLEMENT) (hdust : dustAmount ≤ s.amount)
    (hmax : 0 ≤ vtxoMaxAmount → s.vtxos ≠ [] → s.amount ≤ vtxoMaxAmount)
    (hamount : s.amount = deductOffchainOutputFee (subtotal e s) e s.address) :
    Acceptable e vtxoMaxAmount dustAmount s where
  count := hcount
  distinct := by
    have hfiltered : s.boarding.Sublist boarding := hboarding ▸ List.filter_sublist
    obtain ⟨l, hperm, hsub⟩ := hvtxos
    exact ((hperm.map _).append_left _).nodup_iff.mp
      (((hfiltered.map _).append (hsub.map _)).nodup hdistinct)
  boardingPays u hu := by
    rw [hboarding] at hu
    exact of_decide_eq_true (List.mem_filter.mp hu).2
  vtxosPay v hv := pays_of_payable (hpayable v hv)
  dust := hdust
  max := hmax
  offered := by
    have hin := fees_le (·.value) e.offchainInput s.vtxos
    have hon := fees_le (·.value) (fun u : BoardingCoin ↦ e.onchainInput u.value) s.boarding
    have hout : outputFee e (subtotal e s) s.address ≤
        (satoshis (outputFee e (subtotal e s) s.address) : ℚ) := Int.le_ceil _
    have hleft : (s.amount : ℚ) = boardingTotal e s.boarding + subtotalOf e s.vtxos -
        satoshis (outputFee e (subtotal e s) s.address) := by
      rw [hamount, deductOffchainOutputFee_eq]
      push_cast [subtotal]
      rfl
    rw [inputFees, Proposal.inputValue, totalValue, hleft, boardingTotal, subtotalOf]
    unfold net
    push_cast at hin hon ⊢
    linarith

structure Batched (e : Estimator) (vtxoMaxAmount : ℤ) (candidates inputs : List VirtualCoin) :
    Prop where
  subperm : inputs.Subperm candidates
  payable : ∀ v ∈ inputs, payable e v = true
  count : inputs.length ≤ MAX_VTXOS_PER_SETTLEMENT
  total : 0 ≤ vtxoMaxAmount → totalValue inputs ≤ vtxoMaxAmount

section Batched

variable {e : Estimator} {candidates inputs inputs' : List VirtualCoin}

theorem value_nonneg (he : NonNegative e) {v : VirtualCoin} (h : payable e v = true) :
    0 ≤ v.value :=
  (satoshis_nonneg (he.offchainInput v)).trans (of_decide_eq_true h).le

theorem subtotalOf_le (he : NonNegative e) (l : List VirtualCoin) :
    subtotalOf e l ≤ totalValue l := by
  refine List.sum_le_sum fun v _ ↦ ?_
  have h := satoshis_nonneg (he.offchainInput v)
  rw [net]
  omega

theorem totalValue_le_of_sublist (h : inputs.Sublist inputs')
    (hnonneg : ∀ v ∈ inputs', 0 ≤ v.value) : totalValue inputs ≤ totalValue inputs' :=
  (h.map _).sum_le_sum fun _ hx ↦ by
    obtain ⟨v, hv, rfl⟩ := List.mem_map.mp hx
    exact hnonneg v hv

theorem Batched.sublist (he : NonNegative e) (h : Batched e vtxoMaxAmount candidates inputs')
    (hsub : inputs.Sublist inputs') : Batched e vtxoMaxAmount candidates inputs where
  subperm := hsub.subperm.trans h.subperm
  payable v hv := h.payable v (hsub.subset hv)
  count := hsub.length_le.trans h.count
  total hmax := (totalValue_le_of_sublist hsub fun v hv ↦ value_nonneg he (h.payable v hv)).trans
    (h.total hmax)

theorem Batched.perm (h : Batched e vtxoMaxAmount candidates inputs')
    (hperm : inputs.Perm inputs') : Batched e vtxoMaxAmount candidates inputs where
  subperm := hperm.subperm.trans h.subperm
  payable v hv := h.payable v (hperm.mem_iff.mp hv)
  count := hperm.length_eq.trans_le h.count
  total hmax := (hperm.map _).sum_eq.trans_le (h.total hmax)

theorem batched_capped (vtxoMaxAmount : ℤ) {sorted : List VirtualCoin}
    (hsorted : sorted.Perm (candidates.filter (payable e))) :
    Batched e vtxoMaxAmount candidates (capSettlementBatch sorted vtxoMaxAmount) := by
  rw [capSettlementBatch_eq]
  have hsub : (batch totalValue vtxoMaxAmount sorted).Sublist sorted := fill_sublist sorted
  refine ⟨?_, fun v hv ↦ ?_, batch_length sorted, fun hmax ↦ ?_⟩
  · exact hsub.subperm.trans (hsorted.subperm.trans List.filter_sublist.subperm)
  · exact (List.mem_filter.mp (hsorted.mem_iff.mp (hsub.subset hv))).2
  · by_cases hnil : batch totalValue vtxoMaxAmount sorted = []
    · rw [hnil]
      exact hmax
    · exact batch_measure hmax hnil

/-- A capped batch that is no shorter than what pays for itself is all of it. -/
theorem capped_perm {sorted : List VirtualCoin} (hsorted : sorted.Perm inputs)
    (hlen : inputs.length ≤ (capSettlementBatch sorted vtxoMaxAmount).length) :
    (capSettlementBatch sorted vtxoMaxAmount).Perm inputs := by
  rw [capSettlementBatch_eq] at hlen ⊢
  have hsub : (batch totalValue vtxoMaxAmount sorted).Subperm sorted :=
    (fill_sublist sorted).subperm
  exact (hsub.perm_of_length_le (hsorted.length_eq.trans_le hlen)).trans hsorted

end Batched

section Recovery

variable {env : Surroundings} {info : Option ArkInfo} {candidates inputs : List VirtualCoin}

theorem getRecoverableWithSubdust_sublist (env : Surroundings) (vtxos : List VirtualCoin) :
    (getRecoverableWithSubdust env vtxos).Sublist vtxos := by
  unfold getRecoverableWithSubdust
  dsimp only
  split
  · exact List.filter_sublist
  · exact List.filter_sublist.trans List.filter_sublist

theorem recoveryCandidates_sublist {vtxos : List VirtualCoin}
    (h : recoveryCandidates env vtxos = .ok candidates) : candidates.Sublist vtxos := by
  unfold recoveryCandidates at h
  dsimp only at h
  have hfirst := getRecoverableWithSubdust_sublist env vtxos
  split at h
  · cases h
  · split at h
    · cases h
      exact hfirst
    · split at h
      · cases h
      · split at h
        · cases h
        · cases h
          exact ((getRecoverableWithSubdust_sublist env _).trans List.filter_sublist).trans hfirst

theorem byValueDescending_perm (vtxos : List VirtualCoin) :
    (byValueDescending vtxos).Perm vtxos := List.perm_insertionSort _ _

theorem recoveryInputs_batched (he : NonNegative (estimatorOf info))
    (h : recoveryInputs env info candidates = .ok inputs) :
    Batched (estimatorOf info) (maxAmountOf info) candidates inputs := by
  unfold recoveryInputs at h
  dsimp only at h
  have hsorted := byValueDescending_perm (candidates.filter (payable (estimatorOf info)))
  have hcapped := batched_capped (maxAmountOf info) hsorted
  split at h
  · split at h
    · cases h
      exact hcapped.sublist he (getRecoverableWithSubdust_sublist env _)
    · split at h <;> cases h
  · next hlen =>
    cases h
    have hperm := hcapped.subperm.perm_of_length_le (not_lt.mp hlen)
    exact hcapped.perm hperm.symm

theorem recoveryInputs_whole (hpayable : ∀ v ∈ candidates, payable (estimatorOf info) v = true)
    (hcaps : WithinCaps totalValue (maxAmountOf info) (byValueDescending candidates))
    (h : recoveryInputs env info candidates = .ok inputs) : inputs = candidates := by
  unfold recoveryInputs at h
  dsimp only at h
  rw [List.filter_eq_self.mpr hpayable, capSettlementBatch_eq, batch_all hcaps,
    (byValueDescending_perm candidates).length_eq, if_neg (lt_irrefl _)] at h
  exact (Except.ok.inj h).symm

theorem acceptable_of_batched {e : Estimator} (he : NonNegative e) {dustAmount amount : ℤ}
    {address : String} (hdistinct : (candidates.map (·.outpoint)).Nodup)
    (h : Batched e vtxoMaxAmount candidates inputs)
    (hamount : amount = deductOffchainOutputFee (subtotalOf e inputs) e address)
    (hdust : dustAmount ≤ amount) :
    Acceptable e vtxoMaxAmount dustAmount ⟨[], inputs, address, amount⟩ := by
  have hsubtotal : subtotal e ⟨[], inputs, address, amount⟩ = subtotalOf e inputs := zero_add _
  refine acceptable [] hdistinct rfl h.subperm h.payable h.count hdust
    (fun hmax _ ↦ ?_) (by rw [hsubtotal, hamount])
  have hle := deductOffchainOutputFee_le he (subtotalOf e inputs) address
  exact ((hamount.trans_le hle).trans (subtotalOf_le he inputs)).trans (h.total hmax)

theorem recoverVtxos_acceptable {address : String} {vtxos : List VirtualCoin} {s : Proposal}
    (he : NonNegative (estimatorOf info)) (hdistinct : (vtxos.map (·.outpoint)).Nodup)
    (h : recoverVtxos env info address vtxos = .ok s) :
    Acceptable (estimatorOf info) (maxAmountOf info) env.dustAmount s ∧
      ∃ candidates, recoveryCandidates env vtxos = .ok candidates ∧
        ((∀ v ∈ candidates, payable (estimatorOf info) v = true) →
          WithinCaps totalValue (maxAmountOf info) (byValueDescending candidates) →
            s.vtxos = candidates) := by
  obtain ⟨candidates, hcandidates, h⟩ := bind_ok.mp h
  obtain ⟨inputs, hinputs, h⟩ := bind_ok.mp h
  dsimp only at h
  split at h
  · cases h
  · next hdust =>
    obtain rfl := pure_ok.mp h
    have hnodup := ((recoveryCandidates_sublist hcandidates).map (·.outpoint)).nodup hdistinct
    refine ⟨acceptable_of_batched he hnodup (recoveryInputs_batched he hinputs) rfl
      (not_lt.mp hdust), candidates, hcandidates, fun hpayable hcaps ↦ ?_⟩
    exact recoveryInputs_whole hpayable hcaps hinputs

end Recovery

section Renewal

variable {info : Option ArkInfo} {now : TimeHeight} {vtxos inputs : List VirtualCoin}

theorem byExpiryAscending_perm (vtxos : List VirtualCoin) (now : TimeHeight) :
    (byExpiryAscending vtxos now).Perm vtxos := List.perm_insertionSort _ _

theorem renewalInputs_batched (h : renewalInputs info now vtxos = .ok inputs) :
    Batched (estimatorOf info) (maxAmountOf info) vtxos inputs := by
  unfold renewalInputs at h
  dsimp only at h
  have hsorted := byExpiryAscending_perm (vtxos.filter (payable (estimatorOf info))) now
  have hcapped := batched_capped (maxAmountOf info) hsorted
  split at h
  · cases h
  · split at h
    · split at h
      · cases h
      · cases h
        exact hcapped
    · next hlen =>
      cases h
      exact hcapped.perm (capped_perm hsorted (not_lt.mp hlen)).symm

theorem renewalInputs_whole (hpayable : ∀ v ∈ vtxos, payable (estimatorOf info) v = true)
    (hcaps : WithinCaps totalValue (maxAmountOf info) (byExpiryAscending vtxos now))
    (h : renewalInputs info now vtxos = .ok inputs) : inputs = vtxos := by
  unfold estimatorOf at hpayable
  unfold maxAmountOf at hcaps
  unfold renewalInputs at h
  dsimp only at h
  rw [List.filter_eq_self.mpr hpayable, capSettlementBatch_eq, batch_all hcaps,
    (byExpiryAscending_perm vtxos now).length_eq, if_neg (lt_irrefl _)] at h
  split at h
  · cases h
  · exact (Except.ok.inj h).symm

theorem renewVtxos_acceptable {dustAmount : ℤ} {address : String} {s : Proposal}
    (he : NonNegative (estimatorOf info)) (hdistinct : (vtxos.map (·.outpoint)).Nodup)
    (h : renewVtxos info now dustAmount address vtxos = .ok s) :
    Acceptable (estimatorOf info) (maxAmountOf info) dustAmount s ∧
      ((∀ v ∈ vtxos, payable (estimatorOf info) v = true) →
        WithinCaps totalValue (maxAmountOf info) (byExpiryAscending vtxos now) →
          s.vtxos = vtxos) := by
  unfold renewVtxos at h
  split at h
  · cases h
  · obtain ⟨inputs, hinputs, h⟩ := bind_ok.mp h
    dsimp only at h
    split at h
    · cases h
    · next hdust =>
      obtain rfl := pure_ok.mp h
      exact ⟨acceptable_of_batched he hdistinct (renewalInputs_batched hinputs) rfl
        (not_lt.mp hdust), fun hpayable hcaps ↦ renewalInputs_whole hpayable hcaps hinputs⟩

end Renewal

section Projected

variable {info : ArkInfo} {unsettled : List BoardingCoin} {vtxos sorted : List VirtualCoin}

/-- What the loop takes, with what it comes to. -/
structure Taken (e : Estimator) (vtxoMaxAmount base : ℤ) (projected : ℤ → ℤ)
    (vtxos : List VirtualCoin) (taken : List VirtualCoin × ℤ) : Prop where
  subperm : taken.1.Subperm vtxos
  payable : ∀ v ∈ taken.1, payable e v = true
  count : taken.1.length ≤ MAX_VTXOS_PER_SETTLEMENT
  amount : taken.2 = base + subtotalOf e taken.1
  max : 0 ≤ vtxoMaxAmount → taken.1 ≠ [] → projected taken.2 ≤ vtxoMaxAmount

theorem takeProjected_taken {e : Estimator} {base : ℤ} {projected : ℤ → ℤ}
    (hsorted : sorted.Perm vtxos) :
    Taken e vtxoMaxAmount base projected vtxos
      (takeProjected e vtxoMaxAmount projected [] base sorted) := by
  rw [takeProjected_eq]
  have hsub : (batch (projectedTotal e base projected) vtxoMaxAmount
      (sorted.filter (payable e))).Sublist (sorted.filter (payable e)) := fill_sublist _
  refine ⟨?_, fun v hv ↦ (List.mem_filter.mp (hsub.subset hv)).2, batch_length _, rfl,
    fun hmax hne ↦ batch_measure hmax hne⟩
  exact ((hsub.trans List.filter_sublist).subperm).trans hsorted.subperm

theorem takeProjected_whole {e : Estimator} {base : ℤ} {projected : ℤ → ℤ}
    (hpayable : ∀ v ∈ sorted, payable e v = true)
    (hcaps : WithinCaps (projectedTotal e base projected) vtxoMaxAmount sorted) :
    (takeProjected e vtxoMaxAmount projected [] base sorted).1 = sorted := by
  rw [takeProjected_eq, List.filter_eq_self.mpr hpayable]
  exact batch_all hcaps

theorem filteredBoarding_whole {e : Estimator}
    (h : ∀ u ∈ unsettled, e.onchainInput u.value < u.value) :
    filteredBoarding e unsettled = unsettled :=
  List.filter_eq_self.mpr fun u hu ↦ decide_eq_true (h u hu)

theorem acceptable_of_taken {e : Estimator} {dustAmount amount : ℤ} {address : String}
    {projected : ℤ → ℤ} {taken : List VirtualCoin × ℤ}
    (hprojected : ∀ a, deductOffchainOutputFee a e address ≤ projected a)
    (hdistinct : (unsettled.map (·.outpoint) ++ vtxos.map (·.outpoint)).Nodup)
    (h : Taken e vtxoMaxAmount (boardingTotal e (filteredBoarding e unsettled)) projected vtxos
      taken)
    (hamount : amount = deductOffchainOutputFee taken.2 e address) (hdust : dustAmount ≤ amount) :
    Acceptable e vtxoMaxAmount dustAmount
      ⟨filteredBoarding e unsettled, taken.1, address, amount⟩ := by
  refine acceptable unsettled hdistinct rfl h.subperm h.payable h.count hdust (fun hmax hne ↦ ?_) ?_
  · exact (hamount.trans_le (hprojected taken.2)).trans (h.max hmax hne)
  · rw [hamount, h.amount]
    rfl

theorem runPeriodicSettle_acceptable {now : TimeHeight} {dustAmount : ℤ} {address : String}
    {s : Proposal} (he : NonNegative info.estimator)
    (hdistinct : (unsettled.map (·.outpoint) ++ vtxos.map (·.outpoint)).Nodup)
    (h : runPeriodicSettle info now dustAmount address unsettled vtxos = some s) :
    Acceptable info.estimator info.vtxoMaxAmount dustAmount s ∧
      ((∀ u ∈ unsettled, info.estimator.onchainInput u.value < u.value) →
        (∀ v ∈ vtxos, payable info.estimator v = true) →
          WithinCaps (projectedTotal info.estimator (boardingTotal info.estimator unsettled) (·))
            info.vtxoMaxAmount (byExpiryAscending vtxos now) →
              s.boarding = unsettled ∧ s.vtxos = byExpiryAscending vtxos now) := by
  have hperm := byExpiryAscending_perm vtxos now
  unfold runPeriodicSettle at h
  dsimp only at h
  rw [takeVtxos_eq] at h
  split at h
  · cases h
  · split at h
    · cases h
    · next hdust =>
      cases h
      refine ⟨acceptable_of_taken (deductOffchainOutputFee_le he · address) hdistinct
        (takeProjected_taken hperm) rfl (not_lt.mp hdust), fun hboarding hpayable hcaps ↦ ?_⟩
      rw [filteredBoarding_whole hboarding]
      exact ⟨rfl, takeProjected_whole (fun v hv ↦ hpayable v (hperm.mem_iff.mp hv)) hcaps⟩

theorem settleCandidates_acceptable {dustAmount : ℤ} {address : String} {s : Proposal}
    (hdistinct : (unsettled.map (·.outpoint) ++ vtxos.map (·.outpoint)).Nodup)
    (h : settleCandidates info dustAmount address unsettled vtxos = .ok s) :
    Acceptable info.estimator info.vtxoMaxAmount dustAmount s ∧
      ((∀ u ∈ unsettled, info.estimator.onchainInput u.value < u.value) →
        (∀ v ∈ vtxos, payable info.estimator v = true) →
          WithinCaps (projectedTotal info.estimator (boardingTotal info.estimator unsettled)
            (deductOffchainOutputFee · info.estimator address)) info.vtxoMaxAmount
              (byValueDescending vtxos) →
                s.boarding = unsettled ∧ s.vtxos = byValueDescending vtxos) := by
  have hperm := byValueDescending_perm vtxos
  unfold settleCandidates takeHighest at h
  dsimp only at h
  split at h
  · cases h
  · split at h
    · cases h
    · next hdust =>
      obtain rfl := pure_ok.mp h
      refine ⟨acceptable_of_taken (fun _ ↦ le_rfl) hdistinct (takeProjected_taken hperm) rfl
        (not_lt.mp hdust), fun hboarding hpayable hcaps ↦ ?_⟩
      rw [filteredBoarding_whole hboarding]
      exact ⟨rfl, takeProjected_whole (fun v hv ↦ hpayable v (hperm.mem_iff.mp hv)) hcaps⟩

end Projected

theorem renewAddress_proposes {manager : Manager} {state : State} {k : ℕ} {clock : ℤ}
    {info : Option ArkInfo} {now : TimeHeight} {vtxos inputs : List VirtualCoin} {address : String}
    (hne : vtxos ≠ []) (h : renewalInputs info now vtxos = .ok inputs) :
    state.resume manager k clock (.renewAddress (estimatorOf info) inputs) (.address address) =
      match renewVtxos info now manager.dustAmount address vtxos with
      | .ok s => some (state.enter k (.renewSettle s.vtxos s.address s.amount))
      | .error _ => some (state.endRenewal k clock) := by
  have heq : renewVtxos info now manager.dustAmount address vtxos =
      if deductOffchainOutputFee (subtotalOf (estimatorOf info) inputs) (estimatorOf info)
          address < manager.dustAmount then
        .error ("Total amount " ++ toString (deductOffchainOutputFee
          (subtotalOf (estimatorOf info) inputs) (estimatorOf info) address) ++
            " is below dust threshold " ++ toString manager.dustAmount)
      else .ok ⟨[], inputs, address, deductOffchainOutputFee
        (subtotalOf (estimatorOf info) inputs) (estimatorOf info) address⟩ := by
    rw [renewVtxos, if_neg hne, h]
    rfl
  rw [heq]
  dsimp only [State.resume]
  split <;> rfl

theorem periodicSettle_proposes {manager : Manager} {state : State} {k : ℕ} {info : ArkInfo}
    {now : TimeHeight} {unsettled : List BoardingCoin} {expiring : List VirtualCoin}
    {address : String} {taken : List VirtualCoin × ℤ}
    (htaken : takeVtxos info.estimator info.vtxoMaxAmount []
      (boardingTotal info.estimator (filteredBoarding info.estimator unsettled))
        (byExpiryAscending expiring now) = taken)
    (hsome : ¬ (filteredBoarding info.estimator unsettled = [] ∧ taken.1 = [])) :
    state.periodicSettle manager k info.estimator (filteredBoarding info.estimator unsettled)
        taken.1 taken.2 address =
      match runPeriodicSettle info now manager.dustAmount address unsettled expiring with
      | some s => { state with
          renewalInProgress := if s.vtxos = [] then state.renewalInProgress else true }.enter k
            (.pollSettle s.boarding s.vtxos s.address s.amount)
      | none => state.endPeriodicSettle k := by
  unfold runPeriodicSettle
  dsimp only
  rw [htaken, if_neg hsome]
  unfold State.periodicSettle
  dsimp only
  split <;> rfl

/-- Whatever is proposed stays within the limits, repeats nothing, and offers the fees of its inputs
with that of its output, priced at the amount before this fee is taken off; and where every
candidate pays for itself and finds room, every candidate is an input. -/
theorem settlements_accepted :
    (∀ env info address vtxos s, NonNegative (estimatorOf info) →
      (vtxos.map (·.outpoint)).Nodup → recoverVtxos env info address vtxos = .ok s →
        Accepted (estimatorOf info) (maxAmountOf info) env.dustAmount s ∧
          ∃ candidates, recoveryCandidates env vtxos = .ok candidates ∧
            ((∀ v ∈ candidates, payable (estimatorOf info) v = true) →
              WithinCaps totalValue (maxAmountOf info) (byValueDescending candidates) →
                s.vtxos = candidates)) ∧
    (∀ info now dustAmount address vtxos s, NonNegative (estimatorOf info) →
      (vtxos.map (·.outpoint)).Nodup → renewVtxos info now dustAmount address vtxos = .ok s →
        Accepted (estimatorOf info) (maxAmountOf info) dustAmount s ∧
          ((∀ v ∈ vtxos, payable (estimatorOf info) v = true) →
            WithinCaps totalValue (maxAmountOf info) (byExpiryAscending vtxos now) →
              s.vtxos = vtxos)) ∧
    (∀ info now dustAmount address unsettled vtxos s, NonNegative info.estimator →
      (unsettled.map (·.outpoint) ++ vtxos.map (·.outpoint)).Nodup →
        runPeriodicSettle info now dustAmount address unsettled vtxos = some s →
          Accepted info.estimator info.vtxoMaxAmount dustAmount s ∧
            ((∀ u ∈ unsettled, info.estimator.onchainInput u.value < u.value) →
              (∀ v ∈ vtxos, payable info.estimator v = true) →
                WithinCaps (projectedTotal info.estimator (boardingTotal info.estimator unsettled)
                  (·)) info.vtxoMaxAmount (byExpiryAscending vtxos now) →
                    s.boarding = unsettled ∧ s.vtxos = byExpiryAscending vtxos now)) ∧
    ∀ info dustAmount address timelock tip now boardingUtxos vtxos s,
      (boardingUtxos.map (·.outpoint) ++ vtxos.map (·.outpoint)).Nodup →
        settle info dustAmount address timelock tip now boardingUtxos vtxos = .ok s →
          Accepted info.estimator info.vtxoMaxAmount dustAmount s ∧
            let candidates := boardingCandidates timelock tip now boardingUtxos
            ((∀ u ∈ candidates, info.estimator.onchainInput u.value < u.value) →
              (∀ v ∈ vtxos, payable info.estimator v = true) →
                WithinCaps (projectedTotal info.estimator (boardingTotal info.estimator candidates)
                  (deductOffchainOutputFee · info.estimator address)) info.vtxoMaxAmount
                    (byValueDescending vtxos) →
                      s.boarding = candidates ∧ s.vtxos = byValueDescending vtxos) := by
  refine ⟨fun env info address vtxos s he hdistinct h ↦ ?_,
    fun info now dustAmount address vtxos s he hdistinct h ↦ ?_,
    fun info now dustAmount address unsettled vtxos s he hdistinct h ↦ ?_,
    fun info dustAmount address timelock tip now boardingUtxos vtxos s hdistinct h ↦ ?_⟩
  · obtain ⟨hacceptable, hwhole⟩ := recoverVtxos_acceptable he hdistinct h
    exact ⟨⟨hacceptable, hacceptable.evaluate_le⟩, hwhole⟩
  · obtain ⟨hacceptable, hwhole⟩ := renewVtxos_acceptable he hdistinct h
    exact ⟨⟨hacceptable, hacceptable.evaluate_le⟩, hwhole⟩
  · obtain ⟨hacceptable, hwhole⟩ := runPeriodicSettle_acceptable he hdistinct h
    exact ⟨⟨hacceptable, hacceptable.evaluate_le⟩, hwhole⟩
  · have hcandidates : (boardingCandidates timelock tip now boardingUtxos).Sublist boardingUtxos :=
      List.filter_sublist
    have hnodup := ((hcandidates.map (·.outpoint)).append_right _).nodup hdistinct
    obtain ⟨hacceptable, hwhole⟩ := settleCandidates_acceptable hnodup h
    exact ⟨⟨hacceptable, hacceptable.evaluate_le⟩, hwhole⟩

/-- 1 sat for an output of 1000 sats or more, and 100 sats for one below. -/
def tieredFee : ArkInfo :=
  ⟨⟨fun _ ↦ 0, fun _ ↦ 0, some fun amount _ ↦ if amount < 1000 then 100 else 1⟩, -1⟩

def soleCoin : VirtualCoin := ⟨⟨"a", 0⟩, 1000, false, some 0, none⟩

theorem nonNegative_tieredFee : NonNegative tieredFee.estimator where
  offchainInput _ := le_rfl
  onchainInput _ := le_rfl
  outputFee amount address := by
    change 0 ≤ if amount < 1000 then (100 : ℚ) else 1
    split <;> norm_num

theorem renewVtxos_soleCoin :
    renewVtxos (some tieredFee) ⟨0, none⟩ 330 "ark1" [soleCoin] =
      .ok ⟨[], [soleCoin], "ark1", 999⟩ := by
  decide +kernel

/-- The offer is 1 sat, and the operator asks 100 of the output. -/
theorem tieredFee_not_paid : NonNegative tieredFee.estimator ∧
    ∃ s, renewVtxos (some tieredFee) ⟨0, none⟩ 330 "ark1" [soleCoin] = .ok s ∧
      (s.inputValue - s.amount : ℚ) < evaluate tieredFee.estimator s :=
  ⟨nonNegative_tieredFee, _, renewVtxos_soleCoin, by decide +kernel⟩

/-- Half a satoshi for a virtual output, one and a half for a boarding output and one for the
output. -/
def flatFee : ArkInfo := ⟨⟨fun _ ↦ 1 / 2, fun _ ↦ 3 / 2, some fun _ _ ↦ 1⟩, 100000⟩

def boardingCoin : BoardingCoin := ⟨⟨"b", 0⟩, 5000, true, some 1700000000, some 800000⟩

theorem settle_boardingCoin :
    settle flatFee 330 "ark1" ⟨144, .blocks⟩ (some 800010) 1700001000 [boardingCoin] [soleCoin] =
      .ok ⟨[boardingCoin], [soleCoin], "ark1", 5996⟩ := by
  decide +kernel

theorem fees_accepted :
    Accepted tieredFee.estimator (-1) 330 ⟨[], [soleCoin], "ark1", 999⟩ ∧
    Accepted flatFee.estimator 100000 330 ⟨[boardingCoin], [soleCoin], "ark1", 5996⟩ ∧
      evaluate flatFee.estimator ⟨[boardingCoin], [soleCoin], "ark1", 5996⟩ ≤ 4 := by
  have hrenewed := (settlements_accepted.2.1 (some tieredFee) ⟨0, none⟩ 330 "ark1" [soleCoin] _
    nonNegative_tieredFee (by decide) renewVtxos_soleCoin).1
  have hsettled := (settlements_accepted.2.2.2 flatFee 330 "ark1" ⟨144, .blocks⟩ (some 800010)
    1700001000 [boardingCoin] [soleCoin] _ (by decide) settle_boardingCoin).1
  refine ⟨hrenewed, hsettled, (hsettled.evaluated le_rfl).trans ?_⟩
  norm_num [Proposal.inputValue, totalValue, boardingCoin, soleCoin]

end ArkadeSdk.Settlement
