import ArkadeSdk.Wallet.ArkadeCash
import Mathlib.Data.List.ReduceOption

/-! Every virtual output at a cash address is accounted for once, unless the indexer still shows one
that the drain has just spent, or a drained transaction pays this wallet only in part. -/

namespace ArkadeSdk.ArkadeCash

open WireFormat JsNumber Vtxo

local instance lawfulBEq_cashOutpoint : LawfulBEq Outpoint := inferInstance

variable {env : Surroundings} {vtxos latest inputs : List VirtualCoin} {claim : Claim}

theorem nodup_fetchAllVtxos (pages : List Page) (all : List VirtualCoin)
    (h : (outpoints all).Nodup) : (outpoints (fetchAllVtxos all pages)).Nodup := by
  induction pages generalizing all with
  | nil => exact h
  | cons page pages ih =>
    unfold fetchAllVtxos
    dsimp only
    split
    · exact Distinct.nodup_addAll h
    · exact ih _ (Distinct.nodup_addAll h)

theorem nodup_latest (hvtxos : (outpoints vtxos).Nodup)
    (h : latestVtxos env vtxos = .ok latest) : (outpoints latest).Nodup := by
  unfold latestVtxos at h
  split at h
  · obtain ⟨pages, -, hpages⟩ := bind_ok.mp h
    obtain rfl := pure_ok.mp hpages
    exact nodup_fetchAllVtxos pages [] List.nodup_nil
  · exact Except.ok.inj h ▸ hvtxos

theorem classify_eq (env : Surroundings) (vtxos : List VirtualCoin) :
    classifyCashVtxos env vtxos = (vtxos.filter (unclaimedReason env · = none),
      vtxos.filterMap fun vtxo ↦ (unclaimedReason env vtxo).map (cashReport vtxo)) := by
  induction vtxos with
  | nil => rfl
  | cons vtxo vtxos ih =>
    rw [classifyCashVtxos, ih]
    cases h : unclaimedReason env vtxo with
    | none => simp [h]
    | some reason => simp [h]

theorem unclaimedReason_none {vtxo : VirtualCoin} (h : unclaimedReason env vtxo = none) :
    vtxo.isSubdust env.dustAmount = false ∧ vtxo.isSwept = false ∧ vtxo.assetList = [] := by
  unfold unclaimedReason at h
  split at h
  · cases h
  · split at h
    · cases h
    · next hsubdust =>
      split at h
      · cases h
      · next hswept =>
        split at h
        · cases h
        · next hassets =>
          exact ⟨by simpa using hsubdust, by simpa using hswept,
            List.length_eq_zero_iff.mp (Nat.eq_zero_of_not_pos hassets)⟩

def drainedTxs (env : Surroundings) (vtxos : List VirtualCoin) : List PendingTx :=
  let drainable := vtxos.filter (!·.isSubdust env.dustAmount)
  match pendingCashTxs env drainable, env.unrollCandidates with
  | .ok pendingTxs, .ok () => pendingTxs.filter fun t ↦ (finalizeCashTx env drainable t).isOk
  | _, _ => []

/-- Those of them that pay this wallet. -/
def payingTxs (env : Surroundings) (txs : List PendingTx) : List PendingTx :=
  txs.filter (arkTxAmountPaidTo · env.myPkScript ≠ 0)

theorem foldl_drainTx (env : Surroundings) (inputs : List VirtualCoin) (txs : List PendingTx)
    (result : Drained) :
    let done := txs.filter fun t ↦ (finalizeCashTx env inputs t).isOk
    txs.foldl (drainTx env inputs) result =
      ⟨result.count + done.length,
        result.swept + (done.map (arkTxAmountPaidTo · env.myPkScript)).sum,
        result.claimed ++ (payingTxs env done).flatMap (·.spends), result.finalized ++ done⟩ := by
  intro done
  induction txs generalizing result with
  | nil => simp [done, payingTxs]
  | cons t txs ih =>
    rw [List.foldl_cons, ih]
    cases hdone : finalizeCashTx env inputs t with
    | error error => simp [drainTx, hdone, done, Except.isOk, Except.toBool]
    | ok u =>
      by_cases hpaid : arkTxAmountPaidTo t env.myPkScript = 0
      · simp [drainTx, hdone, done, hpaid, payingTxs, Except.isOk, Except.toBool]
        omega
      · simp [drainTx, hdone, done, hpaid, payingTxs, Except.isOk, Except.toBool]
        omega

theorem finalizePendingCashTxs_error {env : Surroundings} {inputs : List VirtualCoin}
    {error : Message} (h : pendingCashTxs env inputs = .error error) :
    finalizePendingCashTxs env inputs = .error error := by
  unfold finalizePendingCashTxs
  rw [h]
  rfl

theorem finalizePendingCashTxs_eq {env : Surroundings} {inputs : List VirtualCoin}
    {pendingTxs : List PendingTx} (h : pendingCashTxs env inputs = .ok pendingTxs) :
    finalizePendingCashTxs env inputs = if pendingTxs = [] then .ok .none
      else env.unrollCandidates >>= fun _ ↦ .ok (pendingTxs.foldl (drainTx env inputs) .none) := by
  unfold finalizePendingCashTxs
  rw [h]
  rfl

theorem drain_eq (env : Surroundings) (vtxos : List VirtualCoin) :
    let done := drainedTxs env vtxos
    drain env vtxos = ⟨done.length, (done.map (arkTxAmountPaidTo · env.myPkScript)).sum,
      (payingTxs env done).flatMap (·.spends), done⟩ := by
  intro done
  unfold drain
  dsimp only
  split
  · next hnone =>
    have hdone : done = [] := by
      simp only [done, drainedTxs, hnone]
      split
      · next hpending _ =>
        obtain rfl := pure_ok.mp hpending
        rfl
      · rfl
    rw [hdone]
    rfl
  · simp only [done, drainedTxs]
    cases hpendings : pendingCashTxs env (vtxos.filter (!·.isSubdust env.dustAmount)) with
    | error error =>
      have hfinal := finalizePendingCashTxs_error hpendings
      rw [hfinal]
      rfl
    | ok pendingTxs =>
      have hfinal := finalizePendingCashTxs_eq hpendings
      by_cases hpending : pendingTxs = []
      · rw [hfinal, if_pos hpending, hpending]
        cases env.unrollCandidates <;> rfl
      · rw [hfinal, if_neg hpending]
        cases env.unrollCandidates with
        | error error => rfl
        | ok u =>
          change pendingTxs.foldl (drainTx env _) .none = _
          rw [foldl_drainTx]
          simp [Drained.none]

theorem byOutpoint_mem {o : Outpoint} {input : VirtualCoin}
    (h : JsMap.get (byOutpoint inputs) o = some input) : o ∈ outpoints inputs := by
  have hkeys : ∀ m : JsMap.Entries Outpoint VirtualCoin, ∀ e ∈ inputs.foldl
      (fun m input ↦ JsMap.set input.outpoint input m) m, e ∈ m ∨ e.1 ∈ outpoints inputs := by
    clear h
    induction inputs with
    | nil => exact fun m e he ↦ .inl he
    | cons coin inputs ih =>
      intro m e he
      rcases ih _ e he with he | he
      · rcases JsMap.mem_set he with he | rfl
        · exact .inl he
        · exact .inr List.mem_cons_self
      · exact .inr (List.mem_cons_of_mem _ he)
  rcases hkeys [] _ (JsMap.mem_of_get h) with he | he
  · cases he
  · exact he

theorem assertCheckpointMatches_ok {context : String} {index : ℕ} {checkpoint : Checkpoint}
    (h : assertCheckpointMatches env context inputs index checkpoint = .ok ()) :
    ∃ o ∈ outpoints inputs, checkpoint.inputs = [some o] := by
  unfold assertCheckpointMatches at h
  dsimp only at h
  split at h
  · cases h
  · next hone =>
    obtain ⟨input, hinput⟩ := List.length_eq_one_iff.mp (not_not.mp hone)
    split at h
    · cases h
    · next o ho =>
      split at h
      · cases h
      · next coin hcoin =>
        rw [hinput] at ho
        exact ⟨o, byOutpoint_mem hcoin, by rw [hinput, show input = some o from ho]⟩

theorem decodeCheckpoint_ok {checkpoint : Option Checkpoint} {c : Checkpoint} :
    decodeCheckpoint checkpoint = .ok c ↔ checkpoint = some c := by
  cases checkpoint <;> simp [decodeCheckpoint]

theorem finalizeCashTx_spends {t : PendingTx} (h : finalizeCashTx env inputs t = .ok ())
    {o : Outpoint} (ho : o ∈ t.spends) : o ∈ outpoints inputs := by
  obtain ⟨checkpoints, hdecode, h⟩ := bind_ok.mp h
  obtain ⟨hmatch, -⟩ := then_ok.mp h
  obtain ⟨checkpoint, hcheckpoint, hinput⟩ :=
    List.mem_flatMap.mp (List.reduceOption_mem_iff.mp ho)
  obtain ⟨c, hmem, hc⟩ := exists_mem_mapM_ok hdecode hcheckpoint
  obtain rfl := decodeCheckpoint_ok.mp hc
  obtain ⟨index, hindex⟩ := List.mem_iff_getElem?.mp hmem
  obtain ⟨o', ho', hinputs⟩ := assertCheckpointMatches_ok
    (forM_ok.mp hmatch (c, index) (List.mk_mem_zipIdx_iff_getElem?.mpr hindex))
  simp only [Option.map_some, Option.getD_some, hinputs, List.mem_singleton,
    Option.some.injEq] at hinput
  exact hinput ▸ ho'

theorem drained_distinct (env : Surroundings) (vtxos : List VirtualCoin) :
    ((drainedTxs env vtxos).map (·.arkTxid)).Nodup := by
  unfold drainedTxs
  dsimp only
  split
  · next hpending _ =>
    obtain ⟨answers, -, hanswers⟩ := bind_ok.mp hpending
    obtain rfl := pure_ok.mp hanswers
    have hnil : (([] : List PendingTx).map (·.arkTxid)).Nodup := List.nodup_nil
    exact (Distinct.nodup_addAll hnil).sublist (List.filter_sublist.map _)
  · exact List.nodup_nil

/-- The outputs that are swept, of those that are tried. -/
def sweptVtxos (env : Surroundings) (vtxos : List VirtualCoin) : List VirtualCoin :=
  vtxos.filter fun vtxo ↦ (env.sweep vtxo).isOk

def failedVtxos (env : Surroundings) (vtxos : List VirtualCoin) : List VirtualCoin :=
  vtxos.filter fun vtxo ↦ !(env.sweep vtxo).isOk

theorem foldl_sweepVtxo (env : Surroundings) (spendable : List VirtualCoin) (claim : Claim) :
    spendable.foldl (sweepVtxo env) claim =
      ⟨claim.swept + totalValue (sweptVtxos env spendable),
        claim.unclaimed ++ (failedVtxos env spendable).map (cashReport · .sweepFailed),
        claim.finalized, claim.sweeps ++ spendable⟩ := by
  induction spendable generalizing claim with
  | nil => simp [sweptVtxos, failedVtxos, totalValue]
  | cons vtxo spendable ih =>
    rw [List.foldl_cons, ih]
    cases hsweep : env.sweep vtxo with
    | error error =>
      simp [sweepVtxo, sweptVtxos, failedVtxos, hsweep, Except.isOk, Except.toBool]
    | ok u =>
      simp [sweepVtxo, sweptVtxos, failedVtxos, hsweep, Except.isOk, Except.toBool, totalValue,
        add_assoc]

/-- The outputs that a claim tries to sweep, and those that it does not. -/
def spendableVtxos (env : Surroundings) (vtxos : List VirtualCoin) : List VirtualCoin :=
  vtxos.filter (unclaimedReason env · = none)

/-- The outpoints that drained transactions spend to pay this wallet. -/
def claimedBy (env : Surroundings) (vtxos : List VirtualCoin) : List Outpoint :=
  (payingTxs env (drainedTxs env vtxos)).flatMap (·.spends)

def leftBehind (env : Surroundings) (vtxos latest : List VirtualCoin) : List UnclaimedVtxo :=
  (latest.filterMap fun vtxo ↦ (unclaimedReason env vtxo).map (cashReport vtxo)).filter
    (·.outpoint ∉ claimedBy env vtxos)

theorem claimCash_ok {pages : List Page} (hpages : env.vtxos = .ok pages)
    (hlatest : latestVtxos env (fetchAllVtxos [] pages) = .ok latest)
    (h : claimCash env = .ok claim) :
    let vtxos := fetchAllVtxos [] pages
    let spendable := spendableVtxos env latest
    claim = ⟨((drainedTxs env vtxos).map (arkTxAmountPaidTo · env.myPkScript)).sum +
        totalValue (sweptVtxos env spendable),
      leftBehind env vtxos latest ++
        (failedVtxos env spendable).map (cashReport · .sweepFailed),
      drainedTxs env vtxos, spendable⟩ := by
  intro vtxos spendable
  obtain ⟨pages', hpages', h⟩ := bind_ok.mp h
  obtain rfl := Except.ok.inj (hpages.symm.trans hpages')
  obtain ⟨-, h⟩ := then_ok.mp h
  obtain ⟨latest', hlatest', h⟩ := bind_ok.mp h
  obtain rfl := Except.ok.inj (hlatest.symm.trans hlatest')
  obtain ⟨-, h⟩ := then_ok.mp h
  obtain rfl := pure_ok.mp h
  rw [classify_eq, drain_eq, foldl_sweepVtxo]
  have hleft : (if 0 < (drainedTxs env vtxos).length then
      (latest.filterMap fun vtxo ↦ (unclaimedReason env vtxo).map (cashReport vtxo)).filter
        (·.outpoint ∉ claimedBy env vtxos)
      else latest.filterMap fun vtxo ↦ (unclaimedReason env vtxo).map (cashReport vtxo)) =
      leftBehind env vtxos latest := by
    split
    · rfl
    · next hnone =>
      have hdrained := List.length_eq_zero_iff.mp (Nat.eq_zero_of_not_pos hnone)
      simp [leftBehind, claimedBy, hdrained, payingTxs]
  exact congrArg (fun left ↦ Claim.mk _ (left ++ _) _ _) hleft

/-- What a transaction spends at the address. -/
def spentValue (vtxos : List VirtualCoin) (t : PendingTx) : ℤ :=
  totalValue (vtxos.filter (·.outpoint ∈ t.spends))

/-- The outpoints of what went into `swept`. -/
def Contributes (env : Surroundings) (claim : Claim) (o : Outpoint) : Prop :=
  (∃ t ∈ claim.finalized, arkTxAmountPaidTo t env.myPkScript ≠ 0 ∧ o ∈ t.spends) ∨
    o ∈ outpoints (sweptVtxos env claim.sweeps)

/-- A transaction that the call finalized pays this wallet for the output, with all that it
spends. -/
def PaidFor (env : Surroundings) (vtxos : List VirtualCoin) (claim : Claim)
    (vtxo : VirtualCoin) : Prop :=
  (∃ v ∈ sweptVtxos env claim.sweeps, v.outpoint = vtxo.outpoint ∧ v.value = vtxo.value) ∨
    ∃ t ∈ claim.finalized, vtxo.outpoint ∈ t.spends ∧
      spentValue vtxos t ≤ arkTxAmountPaidTo t env.myPkScript

/-- `vtxos` and `latest` are the first and the last read of the address. -/
structure Accounted (env : Surroundings) (vtxos latest : List VirtualCoin) (claim : Claim) :
    Prop where
  apart : ∀ o, Contributes env claim o → o ∉ claim.unclaimed.map (·.outpoint)
  once : (claim.unclaimed.map (·.outpoint)).Nodup
  found : ∀ vtxo ∈ vtxos ++ latest,
    vtxo.outpoint ∈ claim.unclaimed.map (·.outpoint) ∨ PaidFor env vtxos claim vtxo
  total : claim.swept = (claim.finalized.map (arkTxAmountPaidTo · env.myPkScript)).sum +
    totalValue (sweptVtxos env claim.sweeps)
  distinct : (claim.finalized.map (·.arkTxid)).Nodup
  plain : ∀ vtxo ∈ claim.sweeps,
    vtxo.isSubdust env.dustAmount = false ∧ vtxo.isSwept = false ∧ vtxo.assetList = []

/-- An output that a drained transaction spends, to pay this wallet, is not shown as spendable when
its sweep fails; and where it is not swept again, a drained transaction pays this wallet in full. -/
structure Settled (env : Surroundings) (vtxos latest : List VirtualCoin) : Prop where
  notShown : ∀ vtxo ∈ latest, vtxo.outpoint ∈ claimedBy env vtxos →
    unclaimedReason env vtxo = none → (env.sweep vtxo).isOk
  inFull : ∀ vtxo ∈ latest, vtxo.outpoint ∈ claimedBy env vtxos →
    unclaimedReason env vtxo ≠ none → ∃ t ∈ drainedTxs env vtxos,
      vtxo.outpoint ∈ t.spends ∧ spentValue vtxos t ≤ arkTxAmountPaidTo t env.myPkScript

theorem mem_claimedBy {o : Outpoint} : o ∈ claimedBy env vtxos ↔
    ∃ t ∈ drainedTxs env vtxos, arkTxAmountPaidTo t env.myPkScript ≠ 0 ∧ o ∈ t.spends := by
  simp [claimedBy, payingTxs, and_assoc]

theorem mem_leftBehind {o : Outpoint} : o ∈ (leftBehind env vtxos latest).map (·.outpoint) ↔
    o ∉ claimedBy env vtxos ∧
      ∃ vtxo ∈ latest, unclaimedReason env vtxo ≠ none ∧ vtxo.outpoint = o := by
  constructor
  · intro h
    obtain ⟨report, hreport, rfl⟩ := List.mem_map.mp h
    obtain ⟨hmem, hclaimed⟩ := List.mem_filter.mp hreport
    obtain ⟨vtxo, hvtxo, hreason⟩ := List.mem_filterMap.mp hmem
    obtain ⟨reason, hsome, rfl⟩ := Option.map_eq_some_iff.mp hreason
    exact ⟨of_decide_eq_true hclaimed, vtxo, hvtxo, by simp [hsome], rfl⟩
  · rintro ⟨hclaimed, vtxo, hvtxo, hreason, rfl⟩
    obtain ⟨reason, hsome⟩ := Option.ne_none_iff_exists'.mp hreason
    refine List.mem_map.mpr ⟨cashReport vtxo reason, List.mem_filter.mpr
      ⟨List.mem_filterMap.mpr ⟨vtxo, hvtxo, by rw [hsome]; rfl⟩, decide_eq_true hclaimed⟩, rfl⟩

theorem mem_failed {o : Outpoint} :
    o ∈ ((failedVtxos env (spendableVtxos env latest)).map (cashReport · .sweepFailed)).map
      (·.outpoint) ↔ ∃ vtxo ∈ latest, (env.sweep vtxo).isOk = false ∧
        unclaimedReason env vtxo = none ∧ vtxo.outpoint = o := by
  simp [failedVtxos, spendableVtxos, cashReport, and_assoc]

theorem mem_swept {vtxo : VirtualCoin} :
    vtxo ∈ sweptVtxos env (spendableVtxos env latest) ↔
      (vtxo ∈ latest ∧ unclaimedReason env vtxo = none) ∧ (env.sweep vtxo).isOk := by
  rw [sweptVtxos, spendableVtxos, List.mem_filter, List.mem_filter, decide_eq_true_iff]

theorem unclaimed_sublist (env : Surroundings) (vtxos : List VirtualCoin) :
    ((vtxos.filterMap fun vtxo ↦ (unclaimedReason env vtxo).map (cashReport vtxo)).map
      (·.outpoint)).Sublist (outpoints vtxos) := by
  induction vtxos with
  | nil => exact .slnil
  | cons vtxo vtxos ih =>
    cases hreason : unclaimedReason env vtxo with
    | none =>
      rw [List.filterMap_cons_none (by rw [hreason]; rfl)]
      exact ih.cons _
    | some reason =>
      rw [List.filterMap_cons_some (by rw [hreason]; rfl)]
      exact ih.cons_cons _

theorem nodup_unclaimed (hdistinct : (outpoints latest).Nodup) (vtxos : List VirtualCoin) :
    ((leftBehind env vtxos latest ++ (failedVtxos env (spendableVtxos env latest)).map
      (cashReport · .sweepFailed)).map (·.outpoint)).Nodup := by
  rw [List.map_append]
  refine List.Nodup.append ?_ ?_ ?_
  · exact (hdistinct.sublist (unclaimed_sublist env latest)).sublist (List.filter_sublist.map _)
  · rw [List.map_map]
    exact (hdistinct.sublist (List.filter_sublist.map _)).sublist (List.filter_sublist.map _)
  · intro o hleft hfailed
    obtain ⟨-, vtxo, hvtxo, hreason, rfl⟩ := mem_leftBehind.mp hleft
    obtain ⟨vtxo', hvtxo', -, hnone, hout⟩ := mem_failed.mp hfailed
    obtain rfl := List.inj_on_of_nodup_map hdistinct hvtxo' hvtxo hout
    exact hreason hnone

/-- Whether each output is accounted for once. The outputs at the address do not go away between the
two reads. -/
theorem claim_accounted_iff {pages : List Page} (hpages : env.vtxos = .ok pages)
    (hlatest : latestVtxos env (fetchAllVtxos [] pages) = .ok latest)
    (hstay : ∀ vtxo ∈ fetchAllVtxos [] pages, ∃ v ∈ latest,
      v.outpoint = vtxo.outpoint ∧ v.value = vtxo.value)
    (h : claimCash env = .ok claim) :
    Accounted env (fetchAllVtxos [] pages) latest claim ↔
      Settled env (fetchAllVtxos [] pages) latest := by
  have hclaim := claimCash_ok hpages hlatest h
  have hfirst := nodup_fetchAllVtxos pages [] List.nodup_nil
  have hdistinct := nodup_latest hfirst hlatest
  generalize hvtxos : fetchAllVtxos [] pages = vtxos at *
  dsimp only at hclaim
  constructor
  · intro hacc
    rw [hclaim] at hacc
    refine ⟨fun vtxo hvtxo hclaimed hnone ↦ ?_, fun vtxo hvtxo hclaimed hreason ↦ ?_⟩
    · by_contra hfails
      refine hacc.apart vtxo.outpoint (.inl (mem_claimedBy.mp hclaimed)) ?_
      rw [List.map_append]
      exact List.mem_append_right _
        (mem_failed.mpr ⟨vtxo, hvtxo, by simpa using hfails, hnone, rfl⟩)
    · rcases hacc.found vtxo (List.mem_append_right _ hvtxo) with hmem | hpaid
      · rw [List.map_append] at hmem
        rcases List.mem_append.mp hmem with hmem | hmem
        · exact absurd hclaimed (mem_leftBehind.mp hmem).1
        · obtain ⟨v, hv, -, hnone, hout⟩ := mem_failed.mp hmem
          obtain rfl := List.inj_on_of_nodup_map hdistinct hv hvtxo hout
          exact absurd hnone hreason
      · rcases hpaid with ⟨v, hv, hout, -⟩ | hpaid
        · obtain ⟨⟨hv, hnone⟩, -⟩ := mem_swept.mp hv
          obtain rfl := List.inj_on_of_nodup_map hdistinct hv hvtxo hout
          exact absurd hnone hreason
        · exact hpaid
  · intro hsettled
    rw [hclaim]
    refine ⟨?_, nodup_unclaimed hdistinct vtxos, ?_, rfl, drained_distinct env vtxos, ?_⟩
    · rintro o hcontributes hmem
      rw [List.map_append] at hmem
      rcases List.mem_append.mp hmem with hleft | hfailed
      · obtain ⟨hclaimed, vtxo, hvtxo, hreason, rfl⟩ := mem_leftBehind.mp hleft
        rcases hcontributes with hdrained | hswept
        · exact hclaimed (mem_claimedBy.mpr hdrained)
        · obtain ⟨v, hv, hout⟩ := List.mem_map.mp hswept
          obtain ⟨⟨hv, hnone⟩, -⟩ := mem_swept.mp hv
          obtain rfl := List.inj_on_of_nodup_map hdistinct hv hvtxo hout
          exact hreason hnone
      · obtain ⟨vtxo, hvtxo, hfails, hnone, rfl⟩ := mem_failed.mp hfailed
        rcases hcontributes with hdrained | hswept
        · have hok := hsettled.notShown vtxo hvtxo (mem_claimedBy.mpr hdrained) hnone
          exact absurd hok (by simp [hfails])
        · obtain ⟨v, hv, hout⟩ := List.mem_map.mp hswept
          obtain ⟨⟨hv, -⟩, hok⟩ := mem_swept.mp hv
          obtain rfl := List.inj_on_of_nodup_map hdistinct hv hvtxo hout
          exact absurd hok (by simp [hfails])
    · intro vtxo hvtxo
      obtain ⟨v, hv, hout, hvalue⟩ : ∃ v ∈ latest,
          v.outpoint = vtxo.outpoint ∧ v.value = vtxo.value := by
        rcases List.mem_append.mp hvtxo with hvtxo | hvtxo
        · exact hstay vtxo hvtxo
        · exact ⟨vtxo, hvtxo, rfl, rfl⟩
      rw [List.map_append, List.mem_append, ← hout]
      by_cases hnone : unclaimedReason env v = none
      · by_cases hok : (env.sweep v).isOk
        · exact .inr (.inl ⟨v, mem_swept.mpr ⟨⟨hv, hnone⟩, hok⟩, hout, hvalue⟩)
        · exact .inl (.inr (mem_failed.mpr ⟨v, hv, by simpa using hok, hnone, rfl⟩))
      · by_cases hclaimed : v.outpoint ∈ claimedBy env vtxos
        · have hpaid := hsettled.inFull v hv hclaimed hnone
          rw [hout] at hpaid
          exact .inr (.inr hpaid)
        · exact .inl (.inl (mem_leftBehind.mpr ⟨hclaimed, v, hv, hnone, rfl⟩))
    · intro vtxo hvtxo
      exact unclaimedReason_none (of_decide_eq_true (List.mem_filter.mp hvtxo).2)

def cashCoin (isSpent : Bool) : VirtualCoin where
  txid := "a"
  vout := 0
  value := 5000
  createdAt := 0
  isSpent := isSpent
  isSwept := false
  spentBy := ""
  settledBy := none
  expiresAt := none
  expiresAtHeight := none
  assets := none

/-- A claim of it that was interrupted; the second read shows the output as spent, or not. -/
def sampleEnv (shownSpent : Bool) : Surroundings where
  dustAmount := 1000
  myPkScript := [1]
  vtxos := .ok [⟨[cashCoin true], false⟩]
  again := .ok [⟨[cashCoin shownSpent], false⟩]
  getPendingTxs := fun _ ↦ .ok [⟨"t", [some ⟨"c", [some ("a", 0)]⟩], some [⟨some [1], some 5000⟩]⟩]
  unrollCandidates := .ok ()
  buildCheckpointTxs := fun _ ↦ ["c"]
  sign := fun _ ↦ .ok ()
  finalizeTx := fun _ ↦ .ok ()
  serverUnrollScript := .ok ()
  sweep := fun _ ↦ .error (message "VTXO_ALREADY_SPENT")

/-- What the drain has just claimed is reported as left behind. -/
theorem stale_read_counted_twice : ∃ claim,
    claimCash (sampleEnv false) = .ok claim ∧ claim.swept = 5000 ∧
      claim.unclaimed = [⟨("a", 0), 5000, .sweepFailed⟩] ∧
      ¬Accounted (sampleEnv false) [cashCoin true] [cashCoin false] claim := by
  refine ⟨_, rfl, by decide, by decide, fun hacc ↦ ?_⟩
  refine hacc.apart ("a", 0) (.inl ⟨_, List.mem_singleton_self _, ?_, ?_⟩) ?_
  · decide
  · decide
  · decide

def freshCoin (txid : String) (value : ℤ) : VirtualCoin :=
  { cashCoin false with txid := txid, value := value }

def cashCoins : List VirtualCoin := [cashCoin true, freshCoin "b" 2000, freshCoin "c" 3000]

/-- Two outputs beside the interrupted one, of which the second cannot be swept. -/
def mixedEnv : Surroundings :=
  { sampleEnv true with
    vtxos := .ok [⟨cashCoins, false⟩]
    again := .ok [⟨cashCoins, false⟩]
    sweep := fun vtxo ↦ if vtxo.txid = "b" then .ok () else .error (message "no response") }

theorem mixed_claim_accounted : ∃ claim, claimCash mixedEnv = .ok claim ∧ claim.swept = 7000 ∧
    claim.unclaimed = [⟨("c", 0), 3000, .sweepFailed⟩] ∧
      Accounted mixedEnv cashCoins cashCoins claim := by
  refine ⟨_, rfl, by decide, by decide, ?_⟩
  refine (@claim_accounted_iff mixedEnv cashCoins _ [⟨cashCoins, false⟩] rfl rfl ?_ rfl).mpr
    ⟨?_, ?_⟩
  · decide
  · decide
  · decide

end ArkadeSdk.ArkadeCash
