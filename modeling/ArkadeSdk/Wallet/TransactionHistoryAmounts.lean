import ArkadeSdk.Wallet.TransactionHistoryBalance

/-! Which histories hold no negative amount. -/

namespace ArkadeSdk.History

open JsNumber KeyedLog

/-- The wallet puts no less into a transaction than it takes out. -/
def Pays (vtxos : List NormalizedVirtualCoin) (arkTxId : Txid) : Prop :=
  sumOf (fun v ↦ v.txid = arkTxId) (·.value) vtxos ≤
    sumOf (fun v ↦ v.arkTxId = some arkTxId.val) (·.value) vtxos

theorem sumOf_pos {vtxos : List NormalizedVirtualCoin} (hpos : ∀ v ∈ vtxos, 0 < v.value)
    {p : NormalizedVirtualCoin → Prop} [DecidablePred p] : 0 ≤ sumOf p (·.value) vtxos :=
  sumOf_nonneg fun v hv ↦ (hpos v hv).le

namespace Ledger

variable (ledger : Ledger)

theorem net_ark_nonneg (a : Txid) : 0 ≤ ledger.net (.ark a) ↔ Pays ledger.vtxos a := by
  have hspent : sumValues (ledger.spentIn a) =
      sumOf (fun v ↦ v.arkTxId = some a.val) (·.value) ledger.vtxos := sumValues_filter _ _
  have hmade : sumValues (ledger.changesOf a) =
      sumOf (fun v ↦ v.txid = a) (·.value) ledger.vtxos := sumValues_filter _ _
  rw [net, hspent, hmade, sub_nonneg, Pays]

theorem net_commitment_nonneg (hpos : ∀ v ∈ ledger.vtxos, 0 < v.value) (c : Txid) :
    0 ≤ ledger.net (.commitment c) := by
  have hforfeited : sumValues (ledger.forfeitedTo c) =
      sumOf (fun v ↦ v.settledBy = some c.val) (·.value) ledger.vtxos := sumValues_filter _ _
  rw [net]
  split
  · rw [hforfeited]
    exact sumOf_pos hpos
  · exact le_max_left _ _

theorem sent_nonneg (hpos : ∀ v ∈ ledger.vtxos, 0 < v.value)
    (allBoardingTxs : List ArkTransaction) :
    (∀ e ∈ (ledger.run allBoardingTxs).sent, 0 ≤ e.amount) ↔
      ∀ a : Txid, (∃ v ∈ ledger.vtxos, v.isSpent = true ∧ v.arkTxId = some a.val) →
        Pays ledger.vtxos a := by
  have hsettles := ledger.settles_run allBoardingTxs
  constructor
  · intro h a ha
    rw [← net_ark_nonneg]
    rcases hsettles.covered (.ark a) (ark_mem_keys.mpr ha) with hzero | ⟨e, he, hbooks⟩
    · exact hzero.ge
    · rw [← hbooks.amount_eq]
      exact h e he
  · intro h e he
    obtain ⟨k, hk, hbooks⟩ := hsettles.known e he
    rw [hbooks.amount_eq]
    cases k with
    | ark a => exact (ledger.net_ark_nonneg a).mpr (h a (ark_mem_keys.mp hk))
    | commitment c => exact ledger.net_commitment_nonneg hpos c

theorem received_nonneg (hpos : ∀ v ∈ ledger.vtxos, 0 < v.value)
    (allBoardingTxs : List ArkTransaction) :
    ∀ e ∈ (ledger.run allBoardingTxs).received, 0 ≤ e.amount := by
  intro e he
  obtain ⟨v, hv, rfl⟩ := mem_received_run he
  rw [receipt_amount]
  exact (hpos v hv).le

end Ledger

/-- Boarded amounts apart, an amount is negative where the wallet takes more out of a transaction
that spends an output of its own than it puts in. -/
theorem amounts_nonneg_iff (vtxos : List VirtualCoin) (allBoardingTxs : List ArkTransaction)
    (commitmentsToIgnore : List String) (resolveTxCreatedAt : Option ResolveTxCreatedAt)
    (history : List ExtendedArkTransaction) (hpos : ∀ v ∈ vtxos, 0 < v.value)
    (hhistory : buildTransactionHistory vtxos allBoardingTxs commitmentsToIgnore
      resolveTxCreatedAt = .ok history) :
    (∀ e ∈ history, 0 ≤ e.amount) ↔ (∀ tx ∈ allBoardingTxs, 0 ≤ tx.amount) ∧
      ∀ a : Txid, (∃ v ∈ vtxos.map normalizeVtxo, v.isSpent = true ∧ v.arkTxId = some a.val) →
        Pays (vtxos.map normalizeVtxo) a := by
  obtain ⟨resolvedCreatedAt, hperm⟩ := buildTransactionHistory_ok hhistory
  have hsort := sortByCreatedAt_perm vtxos
  have hposSorted : ∀ v ∈ sortByCreatedAt vtxos, 0 < v.value := by
    intro v hv
    obtain ⟨coin, hcoin, rfl⟩ := List.mem_map.mp (hsort.mem_iff.mp hv)
    exact hpos coin hcoin
  have hsent := Ledger.sent_nonneg
    ⟨sortByCreatedAt vtxos, commitmentsToIgnore, resolvedCreatedAt⟩ hposSorted
    allBoardingTxs
  have hreceived := Ledger.received_nonneg
    ⟨sortByCreatedAt vtxos, commitmentsToIgnore, resolvedCreatedAt⟩ hposSorted
    allBoardingTxs
  have hpays : ∀ a, Pays (sortByCreatedAt vtxos) a ↔ Pays (vtxos.map normalizeVtxo) a := by
    intro a
    rw [Pays, Pays, sumOf_perm hsort, sumOf_perm hsort]
  simp only [hpays, hsort.mem_iff] at hsent
  simp only [hperm.mem_iff, List.mem_append, or_imp, forall_and, List.forall_mem_map]
  rw [hsent]
  exact and_iff_left hreceived

/-- Ten go into a transaction that pays fifteen back. -/
def coFunded : List VirtualCoin :=
  [{ coin txA 10 with isSpent := some true, arkTxId := some "b" }, coin txB 15]

theorem coFunded_negative :
    (∀ v ∈ coFunded, 0 < v.value) ∧
      buildTransactionHistory coFunded [] [] none = .ok (historyOf coFunded) ∧
      ∃ e ∈ historyOf coFunded, e.type = .TxSent ∧ e.amount = -5 :=
  ⟨by decide, rfl, by decide +kernel⟩

theorem payment_amounts_nonneg :
    historyOf payment ≠ [] ∧ ∀ e ∈ historyOf payment, 0 ≤ e.amount := by
  refine ⟨by decide +kernel, (amounts_nonneg_iff payment [] [] none (historyOf payment) (by decide)
    rfl).mpr ⟨by simp, ?_⟩⟩
  rintro a ⟨v, hv, -, ha⟩
  have hall : ∀ v ∈ payment.map normalizeVtxo, v.arkTxId = none ∨ v.arkTxId = some txB.val := by
    decide
  have hab : a = txB := by
    rcases hall v hv with hnone | hsome
    · rw [hnone] at ha
      cases ha
    · exact Subtype.ext (Option.some.inj (ha.symm.trans hsome))
  rw [hab, Pays]
  decide

end ArkadeSdk.History
