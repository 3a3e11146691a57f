import ArkadeSdk.Wallet.TransactionHistoryBalance

/-! A history and the balance of the wallet whose history it is. -/

namespace ArkadeSdk.History

open JsNumber KeyedLog

def total (type : TxType) (history : List ExtendedArkTransaction) : ℤ :=
  sumOf (fun e ↦ e.type = type) (fun e ↦ e.amount) history

/-- An output is spent when one transaction has it, and a leaf names the commitment that made it. -/
structure Recorded (vtxos : List NormalizedVirtualCoin) : Prop where
  outpoints : (vtxos.map fun v ↦ (v.txid, v.vout)).Nodup
  spent : ∀ v ∈ vtxos,
    v.isSpent = true ↔ Xor ((given v.arkTxId).isSome = true) ((given v.settledBy).isSome = true)
  leaf : ∀ v ∈ vtxos, v.isLeaf = true → v.commitmentTxIds.length = 1
  forfeited : ∀ c : Txid, (∃ v ∈ vtxos, v.settledBy = some c.val) →
    sumOf (fun v ↦ v.isLeaf = true ∧ v.commitmentTxIds = [c]) (·.value) vtxos ≤
      sumOf (fun v ↦ v.settledBy = some c.val) (·.value) vtxos

/-- No transaction has an unspent output, and no ark transaction made a leaf. -/
structure Unmixed (vtxos : List NormalizedVirtualCoin) : Prop where
  unspent : ∀ v ∈ vtxos, v.isSpent = false → given v.arkTxId = none ∧ given v.settledBy = none
  leaf : ∀ v ∈ vtxos, v.isLeaf = true → ∀ w ∈ vtxos, w.arkTxId ≠ some v.txid.val

structure Reconciles (vtxos : List NormalizedVirtualCoin) (history : List ExtendedArkTransaction) :
    Prop where
  balance : total .TxReceived history - total .TxSent history =
    sumOf (fun v ↦ v.isSpent = false) (·.value) vtxos
  ark_once : ∀ txid : Txid,
    (history.filter fun e ↦ e.type = .TxSent ∧ e.key.arkTxid = txid.val).length ≤ 1
  commitment_once : ∀ txid : Txid,
    (history.filter fun e ↦ e.type = .TxSent ∧ e.key.commitmentTxid = some txid.val).length ≤ 1

def creator (v : NormalizedVirtualCoin) : Option SentKey :=
  if v.isLeaf then v.commitmentTxIds.head?.map .commitment else some (.ark v.txid)

def spender (v : NormalizedVirtualCoin) : Option SentKey :=
  match given v.arkTxId with
  | some arkTxId => some (.ark arkTxId)
  | none => (given v.settledBy).map .commitment

theorem spender_eq_ark {v : NormalizedVirtualCoin} {a : Txid} :
    spender v = some (.ark a) ↔ v.arkTxId = some a.val := by
  rw [← given_eq_some]
  unfold spender
  cases given v.arkTxId <;> simp

section

variable {vtxos : List NormalizedVirtualCoin} {v : NormalizedVirtualCoin}

theorem spender_eq_commitment (h : Recorded vtxos) (hu : Unmixed vtxos) (hv : v ∈ vtxos)
    {c : Txid} : spender v = some (.commitment c) ↔ v.settledBy = some c.val := by
  rw [← given_eq_some]
  unfold spender
  have hspent := h.spent v hv
  cases ha : given v.arkTxId with
  | none => simp
  | some a =>
    have hnone : given v.settledBy = none := by
      cases hisSpent : v.isSpent with
      | true =>
        rw [ha] at hspent
        rcases hspent.mp hisSpent with ⟨-, hnot⟩ | ⟨-, hnot⟩
        · simpa using hnot
        · simp at hnot
      | false => exact (hu.unspent v hv hisSpent).2
    simp [hnone]

theorem isSpent_iff_spender (h : Recorded vtxos) (hu : Unmixed vtxos) (hv : v ∈ vtxos) :
    v.isSpent = true ↔ ∃ k, spender v = some k := by
  constructor
  · intro hspent
    rcases (h.spent v hv).mp hspent with ⟨hark, -⟩ | ⟨hsettled, hark⟩
    · obtain ⟨a, ha⟩ := Option.isSome_iff_exists.mp hark
      exact ⟨.ark a, spender_eq_ark.mpr (given_eq_some.mp ha)⟩
    · obtain ⟨c, hc⟩ := Option.isSome_iff_exists.mp hsettled
      exact ⟨.commitment c, (spender_eq_commitment h hu hv).mpr (given_eq_some.mp hc)⟩
  · rintro ⟨k, hk⟩
    by_contra hspent
    obtain ⟨hark, hsettled⟩ := hu.unspent v hv (by simpa using hspent)
    simp [spender, hark, hsettled] at hk

theorem creator_leaf (hleaf : v.isLeaf = true) {c : Txid} (hc : v.commitmentTxIds = [c]) :
    creator v = some (.commitment c) := by
  simp [creator, hleaf, hc]

variable {resolvedCreatedAt : JsMap.Entries String ℤ}

variable (resolvedCreatedAt) in
theorem mem_keys (h : Recorded vtxos) (hu : Unmixed vtxos) {k : SentKey} :
    k ∈ Ledger.keys ⟨vtxos, [], resolvedCreatedAt⟩ ↔ ∃ v ∈ vtxos, spender v = some k := by
  have hpostings : ∀ v ∈ vtxos,
      k ∈ (Ledger.postings ⟨vtxos, [], resolvedCreatedAt⟩ v).map Prod.fst ↔ spender v = some k := by
    intro v hv
    unfold Ledger.postings
    split
    · rename_i hspent
      have hxor := (h.spent v hv).mp hspent
      unfold spender
      cases ha : given v.arkTxId with
      | some a =>
        rw [ha] at hxor
        rcases hxor with ⟨-, hnot⟩ | ⟨-, hnot⟩
        · have hnone : given v.settledBy = none := by simpa using hnot
          simp [hnone, eq_comm]
        · simp at hnot
      | none =>
        cases given v.settledBy with
        | none => simp
        | some c => simp [eq_comm]
    · rename_i hspent
      have hnone : ¬∃ k, spender v = some k := fun hk ↦
        hspent ((isSpent_iff_spender h hu hv).mpr hk)
      simp only [List.map_nil, List.not_mem_nil, false_iff]
      exact fun hk ↦ hnone ⟨k, hk⟩
  unfold Ledger.keys
  rw [List.mem_toFinset, List.map_flatMap, List.mem_flatMap]
  constructor
  · rintro ⟨v, hv, hk⟩
    exact ⟨v, hv, (hpostings v hv).mp hk⟩
  · rintro ⟨v, hv, hk⟩
    exact ⟨v, hv, (hpostings v hv).mpr hk⟩

theorem net_eq (h : Recorded vtxos) (hu : Unmixed vtxos) {k : SentKey}
    (hk : ∃ v ∈ vtxos, spender v = some k) :
    Ledger.net ⟨vtxos, [], resolvedCreatedAt⟩ k =
      sumOf (fun v ↦ spender v = some k) (·.value) vtxos -
        sumOf (fun v ↦ creator v = some k) (·.value) vtxos := by
  obtain ⟨w, hw, hk⟩ := hk
  cases k with
  | ark a =>
    have hspent : sumValues (Ledger.spentIn ⟨vtxos, [], resolvedCreatedAt⟩ a) =
        sumOf (fun v ↦ spender v = some (.ark a)) (·.value) vtxos :=
      (sumValues_filter _ vtxos).trans (sumOf_congr fun v _ ↦ spender_eq_ark.symm)
    have hmade : sumValues (Ledger.changesOf ⟨vtxos, [], resolvedCreatedAt⟩ a) =
        sumOf (fun v ↦ creator v = some (.ark a)) (·.value) vtxos := by
      refine (sumValues_filter _ vtxos).trans (sumOf_congr fun v hv ↦ ?_)
      cases hleaf : v.isLeaf with
      | true =>
        have hne : v.txid ≠ a := by
          rintro rfl
          exact hu.leaf v hv hleaf w hw (spender_eq_ark.mp hk)
        obtain ⟨c, hc⟩ := List.length_eq_one_iff.mp (h.leaf v hv hleaf)
        simp [creator_leaf hleaf hc, hne]
      | false => simp [creator, hleaf]
    rw [Ledger.net, hspent, hmade]
  | commitment c =>
    have hspent : sumValues (Ledger.forfeitedTo ⟨vtxos, [], resolvedCreatedAt⟩ c) =
        sumOf (fun v ↦ spender v = some (.commitment c)) (·.value) vtxos :=
      (sumValues_filter _ vtxos).trans
        (sumOf_congr fun v hv ↦ (spender_eq_commitment h hu hv).symm)
    have hleaves : ∀ v ∈ vtxos,
        (v.isLeaf = true ∧ v.commitmentTxIds = [c]) ↔ creator v = some (.commitment c) := by
      intro v hv
      cases hleaf : v.isLeaf with
      | true =>
        obtain ⟨c', hc'⟩ := List.length_eq_one_iff.mp (h.leaf v hv hleaf)
        simp [creator_leaf hleaf hc', hc']
      | false => simp [creator, hleaf]
    have hmade : sumValues (Ledger.refreshedBy ⟨vtxos, [], resolvedCreatedAt⟩ c) =
        sumOf (fun v ↦ creator v = some (.commitment c)) (·.value) vtxos := by
      have hfilter : Ledger.refreshedBy ⟨vtxos, [], resolvedCreatedAt⟩ c =
          vtxos.filter fun v ↦ creator v = some (.commitment c) := by
        refine List.filter_congr fun v hv ↦ ?_
        cases hleaf : v.isLeaf with
        | true =>
          obtain ⟨c', hc'⟩ := List.length_eq_one_iff.mp (h.leaf v hv hleaf)
          simp [creator_leaf hleaf hc', hc', eq_comm]
        | false => simp [creator, hleaf]
      rw [hfilter]
      exact sumValues_filter _ vtxos
    have hle := h.forfeited c ⟨w, hw, (spender_eq_commitment h hu hw).mp hk⟩
    rw [sumOf_congr hleaves, ← hmade,
      sumOf_congr fun v hv ↦ (spender_eq_commitment h hu hv).symm, ← hspent] at hle
    rw [← hspent, ← hmade, Ledger.net]
    split
    · rename_i hnil
      simp [hnil, sumValues]
    · exact max_eq_right (by omega)

theorem creator_not_spender (h : Recorded vtxos) (hu : Unmixed vtxos) (hv : v ∈ vtxos) :
    (if v.isLeaf then vtxos.filter (fun w ↦ w.settledBy = commitmentTxid v) = []
      else vtxos.filter (fun w ↦ w.arkTxId = some v.txid.val) = []) ↔
    ¬∃ k, (∃ w ∈ vtxos, spender w = some k) ∧ creator v = some k := by
  cases hleaf : v.isLeaf with
  | true =>
    obtain ⟨c, hc⟩ := List.length_eq_one_iff.mp (h.leaf v hv hleaf)
    have hcommitment : commitmentTxid v = some c.val := by simp [commitmentTxid, hc]
    simp only [creator_leaf hleaf hc, if_true, hcommitment, Option.some.injEq,
      exists_eq_right', List.filter_eq_nil_iff, decide_eq_true_eq, not_exists, not_and]
    exact forall₂_congr fun w hw ↦ not_congr (spender_eq_commitment h hu hw).symm
  | false =>
    simp only [creator, hleaf, Bool.false_eq_true, if_false, Option.some.injEq,
      exists_eq_right', List.filter_eq_nil_iff, decide_eq_true_eq, not_exists, not_and]
    exact forall₂_congr fun w _ ↦ not_congr spender_eq_ark.symm

variable (resolvedCreatedAt) in
theorem visit_received_eq (h : Recorded vtxos) (hu : Unmixed vtxos) (hv : v ∈ vtxos)
    {p : Progress} (hp : p.unmatchedSettledBoardingTxs = []) :
    let ledger : Ledger := ⟨vtxos, [], resolvedCreatedAt⟩
    (ledger.visit p v).unmatchedSettledBoardingTxs = [] ∧
      (ledger.visit p v).received = p.received ++
        if ¬∃ k ∈ ledger.keys, creator v = some k then [Ledger.receipt v] else [] := by
  intro ledger
  have hmade := creator_not_spender h hu hv
  simp only [← mem_keys resolvedCreatedAt h hu] at hmade
  have hignores : ∀ id, ledger.ignores id = false := by
    intro id
    cases id <;> simp [Ledger.ignores, ledger]
  have hvisit : (ledger.visitReceived v p).unmatchedSettledBoardingTxs = [] ∧
      (ledger.visitReceived v p).received = p.received ++
        if ¬∃ k ∈ ledger.keys, creator v = some k then [Ledger.receipt v] else [] := by
    unfold Ledger.visitReceived Ledger.receipt
    cases hleaf : v.isLeaf with
    | true =>
      simp only [hleaf, if_true] at hmade
      by_cases hnil : vtxos.filter (fun w ↦ w.settledBy = commitmentTxid v) = []
      · simp [hignores, ledger, hnil, hmade.mp hnil, hp, consumeBoardingReceive]
      · have hkey := not_not.mp (mt hmade.mpr hnil)
        simp [hignores, ledger, hnil, hkey, hp]
    | false =>
      simp only [hleaf, Bool.false_eq_true, if_false] at hmade
      by_cases hnil : vtxos.filter (fun w ↦ w.arkTxId = some v.txid.val) = []
      · simp [ledger, hnil, hmade.mp hnil, hp]
      · have hkey := not_not.mp (mt hmade.mpr hnil)
        simp [ledger, hnil, hkey, hp]
  unfold Ledger.visit
  dsimp only
  split
  · exact hvisit
  · exact hvisit

variable (resolvedCreatedAt) in
theorem received_run (h : Recorded vtxos) (hu : Unmixed vtxos) :
    let ledger : Ledger := ⟨vtxos, [], resolvedCreatedAt⟩
    ((ledger.run []).received.map (·.amount)).sum =
      sumOf (fun v ↦ ¬∃ k ∈ ledger.keys, creator v = some k) (·.value) vtxos := by
  intro ledger
  have hfold : ∀ (vs : List NormalizedVirtualCoin) (p : Progress), (∀ v ∈ vs, v ∈ vtxos) →
      p.unmatchedSettledBoardingTxs = [] →
      ((vs.foldl ledger.visit p).received.map (·.amount)).sum =
        (p.received.map (·.amount)).sum +
          sumOf (fun v ↦ ¬∃ k ∈ ledger.keys, creator v = some k) (·.value) vs := by
    intro vs
    induction vs with
    | nil => intro p _ _; simp
    | cons v vs ih =>
      intro p hvs hp
      obtain ⟨hv, hvs⟩ := List.forall_mem_cons.mp hvs
      obtain ⟨hunmatched, hreceived⟩ := visit_received_eq resolvedCreatedAt h hu hv hp
      rw [List.foldl_cons, ih _ hvs hunmatched, hreceived, sumOf_cons, List.map_append,
        List.sum_append]
      split
      · simp [Ledger.receipt_amount, add_assoc]
      · simp
  have hrun := hfold vtxos ⟨[], [], []⟩ (fun v hv ↦ hv) rfl
  rw [List.map_nil, List.sum_nil, zero_add] at hrun
  exact hrun

variable (resolvedCreatedAt) in
/-- What is sent in all: the outputs that were spent, less those that their spending made. -/
theorem sent_run (h : Recorded vtxos) (hu : Unmixed vtxos) :
    let ledger : Ledger := ⟨vtxos, [], resolvedCreatedAt⟩
    ((ledger.run []).sent.map (·.amount)).sum = sumOf (fun v ↦ v.isSpent = true) (·.value) vtxos -
      sumOf (fun v ↦ ∃ k ∈ ledger.keys, creator v = some k) (·.value) vtxos := by
  intro ledger
  have hnet : ∀ k ∈ ledger.keys, ledger.net k =
      sumOf (fun v ↦ spender v = some k) (·.value) vtxos -
        sumOf (fun v ↦ creator v = some k) (·.value) vtxos := fun k hk ↦
    net_eq h hu ((mem_keys resolvedCreatedAt h hu).mp hk)
  have hspent : sumOf (fun v ↦ ∃ k ∈ ledger.keys, spender v = some k) (·.value) vtxos =
      sumOf (fun v ↦ v.isSpent = true) (·.value) vtxos := by
    refine sumOf_congr fun v hv ↦ ?_
    rw [isSpent_iff_spender h hu hv]
    constructor
    · rintro ⟨k, -, hk⟩
      exact ⟨k, hk⟩
    · rintro ⟨k, hk⟩
      exact ⟨k, (mem_keys resolvedCreatedAt h hu).mpr ⟨v, hv, hk⟩, hk⟩
  rw [(ledger.settles_run []).total, Finset.sum_congr rfl hnet, Finset.sum_sub_distrib, sum_sumOf,
    sum_sumOf, hspent]

end

theorem Recorded.perm {vtxos vtxos' : List NormalizedVirtualCoin} (h : Recorded vtxos)
    (hperm : vtxos'.Perm vtxos) : Recorded vtxos' where
  outpoints := (hperm.map _).nodup_iff.mpr h.outpoints
  spent v hv := h.spent v (hperm.mem_iff.mp hv)
  leaf v hv := h.leaf v (hperm.mem_iff.mp hv)
  forfeited c := by
    rintro ⟨v, hv, hc⟩
    rw [sumOf_perm hperm, sumOf_perm hperm]
    exact h.forfeited c ⟨v, hperm.mem_iff.mp hv, hc⟩

theorem Unmixed.perm {vtxos vtxos' : List NormalizedVirtualCoin} (h : Unmixed vtxos)
    (hperm : vtxos'.Perm vtxos) : Unmixed vtxos' where
  unspent v hv := h.unspent v (hperm.mem_iff.mp hv)
  leaf v hv hleaf w hw := h.leaf v (hperm.mem_iff.mp hv) hleaf w (hperm.mem_iff.mp hw)

theorem total_run (ledger : Ledger) (type : TxType) (history : List ExtendedArkTransaction)
    (hhistory : history.Perm ((ledger.run []).sent ++ (ledger.run []).received)) :
    total type history = match type with
      | .TxSent => ((ledger.run []).sent.map (·.amount)).sum
      | .TxReceived => ((ledger.run []).received.map (·.amount)).sum := by
  have hreceived : ∀ e ∈ (ledger.run []).received, e.type = .TxReceived := by
    intro e he
    obtain ⟨v, -, rfl⟩ := Ledger.mem_received_run he
    exact Ledger.receipt_type v
  have hsent := ledger.sent_type []
  rw [total, sumOf_perm hhistory, sumOf_append]
  cases type with
  | TxSent =>
    rw [sumOf_all hsent, sumOf_none fun e he ↦ by simp [hreceived e he], add_zero]
  | TxReceived =>
    rw [sumOf_all hreceived, sumOf_none fun e he ↦ by simp [hsent e he], zero_add]

theorem sent_once (ledger : Ledger) (k : SentKey) {history : List ExtendedArkTransaction}
    (hhistory : history.Perm ((ledger.run []).sent ++ (ledger.run []).received)) :
    (history.filter fun e ↦ e.type = .TxSent ∧ about e k = true).length ≤ 1 := by
  have hreceived : (ledger.run []).received.filter (fun e ↦ e.type = .TxSent ∧ about e k = true) =
      [] := by
    refine List.filter_eq_nil_iff.mpr fun e he ↦ ?_
    obtain ⟨v, -, rfl⟩ := Ledger.mem_received_run he
    simp [Ledger.receipt_type]
  have hsent : (ledger.run []).sent.filter (fun e ↦ e.type = .TxSent ∧ about e k = true) =
      (ledger.run []).sent.filter fun e ↦ about e k :=
    List.filter_congr fun e he ↦ by simp [ledger.sent_type [] e he]
  rw [(hhistory.filter _).length_eq, List.filter_append, hreceived, List.append_nil, hsent]
  exact (ledger.settles_run []).length_filter_le k

theorem history_reconciles (vtxos : List VirtualCoin)
    (resolveTxCreatedAt : Option ResolveTxCreatedAt) (history : List ExtendedArkTransaction)
    (h : Recorded (vtxos.map normalizeVtxo)) (hu : Unmixed (vtxos.map normalizeVtxo))
    (hhistory : buildTransactionHistory vtxos [] [] resolveTxCreatedAt = .ok history) :
    Reconciles (vtxos.map normalizeVtxo) history := by
  have hsort := sortByCreatedAt_perm vtxos
  obtain ⟨resolvedCreatedAt, hperm⟩ := buildTransactionHistory_ok hhistory
  simp only [List.map_nil, List.nil_append] at hperm
  refine ⟨?_, fun txid ↦ ?_, fun txid ↦ ?_⟩
  · have hreceived := received_run resolvedCreatedAt (h.perm hsort) (hu.perm hsort)
    have hsent := sent_run resolvedCreatedAt (h.perm hsort) (hu.perm hsort)
    dsimp only at hreceived hsent
    have hmade := sumOf_add_not (w := fun v : NormalizedVirtualCoin ↦ v.value)
      (p := fun v ↦ ∃ k ∈ Ledger.keys ⟨sortByCreatedAt vtxos, [], resolvedCreatedAt⟩,
        creator v = some k) (l := sortByCreatedAt vtxos)
    have hspent := sumOf_add_not (w := fun v : NormalizedVirtualCoin ↦ v.value)
      (p := fun v ↦ v.isSpent = true) (l := sortByCreatedAt vtxos)
    have hunspent : sumOf (fun v ↦ v.isSpent = false) (·.value) (vtxos.map normalizeVtxo) =
        sumOf (fun v ↦ ¬v.isSpent = true) (·.value) (sortByCreatedAt vtxos) :=
      (sumOf_perm hsort.symm).trans (sumOf_congr fun v _ ↦ by simp)
    rw [total_run _ .TxReceived history hperm, total_run _ .TxSent history hperm, hunspent]
    dsimp only
    omega
  · simpa [about] using sent_once _ (.ark txid) hperm
  · simpa [about] using sent_once _ (.commitment txid) hperm

section Examples

/-- The leaf of a commitment bears the id of the transaction that spends another output. -/
def sharedTxid : List VirtualCoin :=
  [{ coin txA 10 with isSpent := some true, arkTxId := some "b" },
    { coin txB 5 with isLeaf := true, commitmentTxIds := some [txC] }]

def bothNamed : List VirtualCoin :=
  [{ coin txA 10 with arkTxId := some "b", settledBy := some "c" }, coin txB 5]

theorem no_forfeit {vtxos : List NormalizedVirtualCoin} (h : ∀ v ∈ vtxos, v.settledBy = none)
    (c : Txid) : ¬∃ v ∈ vtxos, v.settledBy = some c.val := by
  rintro ⟨v, hv, hc⟩
  rw [h v hv] at hc
  cases hc

theorem recorded_payment : Recorded (payment.map normalizeVtxo) where
  outpoints := by decide
  spent := by decide
  leaf := by decide
  forfeited c hc := absurd hc (no_forfeit (by decide) c)

theorem unmixed_payment : Unmixed (payment.map normalizeVtxo) where
  unspent := by decide
  leaf := by decide

theorem recorded_sharedTxid : Recorded (sharedTxid.map normalizeVtxo) where
  outpoints := by decide
  spent := by decide
  leaf := by decide
  forfeited c hc := absurd hc (no_forfeit (by decide) c)

theorem recorded_bothNamed : Recorded (bothNamed.map normalizeVtxo) where
  outpoints := by decide
  spent := by decide
  leaf := by decide
  forfeited c _ := by
    have hnone : sumOf (fun v ↦ v.isLeaf = true ∧ v.commitmentTxIds = [c]) (·.value)
        (bothNamed.map normalizeVtxo) = 0 :=
      sumOf_none fun v hv hleaf ↦ by
        have hall : ∀ v ∈ bothNamed.map normalizeVtxo, v.isLeaf = false := by decide
        simp [hall v hv] at hleaf
    rw [hnone]
    exact sumOf_nonneg (by decide)

end Examples

theorem payment_reconciles :
    Reconciles (payment.map normalizeVtxo) (historyOf payment) ∧
      total .TxSent (historyOf payment) = 4 :=
  ⟨history_reconciles payment none (historyOf payment) recorded_payment unmixed_payment rfl,
    by decide⟩

theorem shared_txid_not_reconciled :
    (Recorded (sharedTxid.map normalizeVtxo) ∧
      buildTransactionHistory sharedTxid [] [] none = .ok (historyOf sharedTxid) ∧
      ¬Reconciles (sharedTxid.map normalizeVtxo) (historyOf sharedTxid)) ∧
    (Recorded (bothNamed.map normalizeVtxo) ∧
      buildTransactionHistory bothNamed [] [] none = .ok (historyOf bothNamed) ∧
      ¬Reconciles (bothNamed.map normalizeVtxo) (historyOf bothNamed)) := by
  refine ⟨⟨recorded_sharedTxid, rfl, fun h ↦ ?_⟩, ⟨recorded_bothNamed, rfl, fun h ↦ ?_⟩⟩
  · exact absurd h.balance (by decide)
  · exact absurd h.balance (by decide)

end ArkadeSdk.History
