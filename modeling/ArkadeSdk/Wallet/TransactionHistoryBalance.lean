import ArkadeSdk.Wallet.TransactionHistory

/-! What the entries of a history come to. -/

namespace ArkadeSdk.History

open JsNumber KeyedLog

inductive SentKey
  | ark (txid : Txid)
  | commitment (txid : Txid)
  deriving DecidableEq

def about (e : ExtendedArkTransaction) : SentKey → Bool
  | .ark txid => e.key.arkTxid = txid.val
  | .commitment txid => e.key.commitmentTxid = some txid.val

theorem given_eq_some {id : Option String} {txid : Txid} :
    given id = some txid ↔ id = some txid.val := by
  obtain ⟨text, htext⟩ := txid
  constructor
  · intro h
    obtain ⟨text', rfl, hgiven⟩ := Option.bind_eq_some_iff.mp h
    split at hgiven
    · obtain rfl := congrArg Subtype.val (Option.some.inj hgiven)
      rfl
    · cases hgiven
  · rintro rfl
    simp [given, htext]

theorem sumValues_filter (p : NormalizedVirtualCoin → Prop) [DecidablePred p]
    (vtxos : List NormalizedVirtualCoin) :
    sumValues (vtxos.filter fun v ↦ p v) = sumOf p (·.value) vtxos := rfl

namespace Ledger

variable {ledger : Ledger}

section

variable (ledger)

def postings (vtxo : NormalizedVirtualCoin) : List (SentKey × Option ExtendedArkTransaction) :=
  if vtxo.isSpent then
    (match given vtxo.arkTxId with
      | some arkTxId => [(.ark arkTxId, ledger.sentOffchain vtxo arkTxId)]
      | none => []) ++
    (match given vtxo.settledBy with
      | some settledBy =>
        if ledger.commitmentsToIgnore.contains settledBy.val then []
        else [(.commitment settledBy, ledger.sentExit vtxo settledBy)]
      | none => [])
  else []

/-- What leaves the wallet under a key. -/
def net : SentKey → ℤ
  | .ark arkTxId => sumValues (ledger.spentIn arkTxId) - sumValues (ledger.changesOf arkTxId)
  | .commitment settledBy =>
    if ledger.refreshedBy settledBy = [] then sumValues (ledger.forfeitedTo settledBy)
    else max 0
      (sumValues (ledger.forfeitedTo settledBy) - sumValues (ledger.refreshedBy settledBy))

end

theorem visit_sent (p : Progress) (vtxo : NormalizedVirtualCoin) :
    (ledger.visit p vtxo).sent = postAll about p.sent (ledger.postings vtxo) := by
  have hsent : (ledger.visitReceived vtxo p).sent = p.sent := by
    unfold visitReceived
    split
    · split
      · rfl
      · split <;> rfl
    · split <;> rfl
  unfold visit postings
  dsimp only
  split
  · rw [hsent, postAll_append]
    have hark : ledger.visitOffchain vtxo p.sent = postAll about p.sent
        (match given vtxo.arkTxId with
          | some arkTxId => [(.ark arkTxId, ledger.sentOffchain vtxo arkTxId)]
          | none => []) := by
      unfold visitOffchain
      cases given vtxo.arkTxId with
      | none => simp
      | some arkTxId => simp [post, about]
    rw [hark]
    unfold visitExit
    cases given vtxo.settledBy with
    | none => simp
    | some settledBy =>
      by_cases hignored : settledBy.val ∈ ledger.commitmentsToIgnore
      · simp [hignored]
      · simp [hignored, post, about]
  · exact hsent

theorem sent_foldl_visit (vtxos : List NormalizedVirtualCoin) (p : Progress) :
    (vtxos.foldl ledger.visit p).sent = postAll about p.sent (vtxos.flatMap ledger.postings) := by
  induction vtxos generalizing p with
  | nil => rfl
  | cons vtxo vtxos ih => rw [List.foldl_cons, ih, visit_sent, List.flatMap_cons, postAll_append]

/-- The amount of an offchain entry does not depend on the output that it is made for. -/
theorem sentOffchain_eq (vtxo : NormalizedVirtualCoin) (arkTxId : Txid) :
    ∃ createdAt, ledger.sentOffchain vtxo arkTxId =
      if ledger.net (.ark arkTxId) ≠ 0 ∨
          subtractAssets (ledger.spentIn arkTxId) (ledger.changesOf arkTxId) ≠ none then
        some { key := { txKey with arkTxid := arkTxId.val }, tag := .offchain, type := .TxSent
               amount := ledger.net (.ark arkTxId), settled := true, createdAt
               assets := subtractAssets (ledger.spentIn arkTxId) (ledger.changesOf arkTxId) }
      else none := by
  cases hchanges : ledger.changesOf arkTxId with
  | nil =>
    refine ⟨(JsMap.get ledger.resolvedCreatedAt arkTxId.val).getD (vtxo.createdAt + 1), ?_⟩
    simp only [sentOffchain, net, hchanges, sumValues, List.map_nil, List.sum_nil, sub_zero]
  | cons change rest =>
    refine ⟨change.createdAt, ?_⟩
    simp only [sentOffchain, net, hchanges]

theorem sentOffchain_faithful (vtxo : NormalizedVirtualCoin) (arkTxId : Txid) :
    Faithful about (·.amount) ledger.net (.ark arkTxId, ledger.sentOffchain vtxo arkTxId) := by
  obtain ⟨createdAt, heq⟩ := ledger.sentOffchain_eq vtxo arkTxId
  rw [heq]
  constructor
  · intro e he
    dsimp only at he
    split at he
    · obtain rfl := Option.some.inj he
      refine ⟨fun k' ↦ ?_, rfl⟩
      cases k' with
      | ark a => simpa [about, Subtype.ext_iff] using eq_comm
      | commitment c => simpa [about, txKey] using c.property
    · cases he
  · intro hnone
    dsimp only at hnone
    split at hnone
    · cases hnone
    · rename_i hzero
      exact not_not.mp (not_or.mp hzero).1

theorem sentExit_faithful (vtxo : NormalizedVirtualCoin) (settledBy : Txid) :
    Faithful about (·.amount) ledger.net
      (.commitment settledBy, ledger.sentExit vtxo settledBy) := by
  have habout : ∀ e : ExtendedArkTransaction,
      e.key = { txKey with commitmentTxid := some settledBy.val } →
      ∀ k', about e k' = true ↔ k' = .commitment settledBy := by
    intro e he k'
    cases k' with
    | ark a => simpa [about, he, txKey] using a.property
    | commitment c => simpa [about, he, Subtype.ext_iff] using eq_comm
  constructor
  · intro e he
    simp only [sentExit] at he
    split at he
    · rename_i change rest hchanges
      split at he
      · rename_i hless
        obtain rfl := Option.some.inj he
        refine ⟨habout _ rfl, ?_⟩
        rw [net, if_neg (hchanges ▸ List.cons_ne_nil change rest), max_eq_right (by omega)]
      · cases he
    · rename_i hchanges
      obtain rfl := Option.some.inj he
      refine ⟨habout _ rfl, ?_⟩
      rw [net, if_pos hchanges]
  · intro hnone
    simp only [sentExit] at hnone
    split at hnone
    · rename_i change rest hchanges
      split at hnone
      · cases hnone
      · rename_i hless
        rw [net, if_neg (hchanges ▸ List.cons_ne_nil change rest), max_eq_left (by omega)]
    · cases hnone

theorem postings_faithful (vtxo : NormalizedVirtualCoin) :
    ∀ p ∈ ledger.postings vtxo, Faithful about (·.amount) ledger.net p := by
  intro p hp
  unfold postings at hp
  split at hp
  · rcases List.mem_append.mp hp with hp | hp
    · split at hp
      · obtain rfl := List.mem_singleton.mp hp
        exact sentOffchain_faithful vtxo _
      · cases hp
    · split at hp
      · split at hp
        · cases hp
        · obtain rfl := List.mem_singleton.mp hp
          exact sentExit_faithful vtxo _
      · cases hp
  · cases hp

theorem postings_type {vtxo : NormalizedVirtualCoin} {p : SentKey × Option ExtendedArkTransaction}
    {e : ExtendedArkTransaction} (hp : p ∈ ledger.postings vtxo) (he : p.2 = some e) :
    e.type = .TxSent := by
  unfold postings at hp
  split at hp
  · rcases List.mem_append.mp hp with hp | hp
    · split at hp
      · rename_i arkTxId _
        obtain rfl := List.mem_singleton.mp hp
        obtain ⟨createdAt, heq⟩ := ledger.sentOffchain_eq vtxo arkTxId
        rw [heq] at he
        split at he
        · obtain rfl := Option.some.inj he
          rfl
        · cases he
      · cases hp
    · split at hp
      · split at hp
        · cases hp
        · obtain rfl := List.mem_singleton.mp hp
          simp only [sentExit] at he
          split at he
          · split at he
            · obtain rfl := Option.some.inj he
              rfl
            · cases he
          · obtain rfl := Option.some.inj he
            rfl
      · cases hp
  · cases hp

theorem sent_type (allBoardingTxs : List ArkTransaction) :
    ∀ e ∈ (ledger.run allBoardingTxs).sent, e.type = .TxSent := by
  intro e he
  unfold run at he
  rw [sent_foldl_visit] at he
  rcases mem_postAll he with he | ⟨p, hp, he⟩
  · cases he
  · obtain ⟨vtxo, -, hp⟩ := List.mem_flatMap.mp hp
    exact postings_type hp he

def receipt (vtxo : NormalizedVirtualCoin) : ExtendedArkTransaction :=
  if vtxo.isLeaf then receivedBatch vtxo else receivedOffchain vtxo

theorem receipt_type (vtxo : NormalizedVirtualCoin) : (receipt vtxo).type = .TxReceived := by
  unfold receipt
  split <;> rfl

theorem receipt_amount (vtxo : NormalizedVirtualCoin) : (receipt vtxo).amount = vtxo.value := by
  unfold receipt
  split <;> rfl

theorem visit_received (p : Progress) (vtxo : NormalizedVirtualCoin) :
    (ledger.visit p vtxo).received = p.received ∨
      (ledger.visit p vtxo).received = p.received ++ [receipt vtxo] := by
  have hvisit : (ledger.visit p vtxo).received = (ledger.visitReceived vtxo p).received := by
    unfold visit
    split <;> rfl
  rw [hvisit]
  unfold visitReceived receipt
  split
  · split
    · exact .inl rfl
    · split
      · dsimp only
        split
        · exact .inl rfl
        · exact .inr rfl
      · exact .inl rfl
  · split
    · exact .inr rfl
    · exact .inl rfl

theorem mem_received_foldl {vtxos : List NormalizedVirtualCoin} {p : Progress}
    {e : ExtendedArkTransaction} (he : e ∈ (vtxos.foldl ledger.visit p).received) :
    e ∈ p.received ∨ ∃ vtxo ∈ vtxos, e = receipt vtxo := by
  induction vtxos generalizing p with
  | nil => exact .inl he
  | cons vtxo vtxos ih =>
    rcases ih he with he | ⟨v, hv, he⟩
    · rcases ledger.visit_received p vtxo with heq | heq
      · exact .inl (heq ▸ he)
      · rw [heq] at he
        rcases List.mem_append.mp he with he | he
        · exact .inl he
        · exact .inr ⟨vtxo, List.mem_cons_self, List.mem_singleton.mp he⟩
    · exact .inr ⟨v, List.mem_cons_of_mem vtxo hv, he⟩

theorem mem_received_run {allBoardingTxs : List ArkTransaction} {e : ExtendedArkTransaction}
    (he : e ∈ (ledger.run allBoardingTxs).received) : ∃ vtxo ∈ ledger.vtxos, e = receipt vtxo := by
  rcases mem_received_foldl he with he | he
  · cases he
  · exact he

variable (ledger) in
def keys : Finset SentKey := ((ledger.vtxos.flatMap ledger.postings).map Prod.fst).toFinset

theorem ark_mem_keys {a : Txid} : .ark a ∈ ledger.keys ↔
    ∃ v ∈ ledger.vtxos, v.isSpent = true ∧ v.arkTxId = some a.val := by
  have hpostings : ∀ v, .ark a ∈ (ledger.postings v).map Prod.fst ↔
      v.isSpent = true ∧ v.arkTxId = some a.val := by
    intro v
    rw [← given_eq_some]
    unfold postings
    cases v.isSpent with
    | false => simp
    | true =>
      have hexit : SentKey.ark a ∉ (match given v.settledBy with
          | some settledBy =>
            if ledger.commitmentsToIgnore.contains settledBy.val then []
            else [(SentKey.commitment settledBy, ledger.sentExit v settledBy)]
          | none => []).map Prod.fst := by
        cases given v.settledBy with
        | none => simp
        | some c =>
          dsimp only
          split <;> simp
      rw [if_pos rfl, List.map_append, List.mem_append, or_iff_left hexit]
      cases given v.arkTxId <;> simp [eq_comm]
  unfold keys
  rw [List.mem_toFinset, List.map_flatMap, List.mem_flatMap]
  exact exists_congr fun v ↦ and_congr_right fun _ ↦ hpostings v

theorem settles_run (allBoardingTxs : List ArkTransaction) :
    Settles about (·.amount) ledger.net ledger.keys (ledger.run allBoardingTxs).sent := by
  have hall : ∀ p ∈ ledger.vtxos.flatMap ledger.postings,
      Faithful about (·.amount) ledger.net p := by
    intro p hp
    obtain ⟨vtxo, -, hp⟩ := List.mem_flatMap.mp hp
    exact postings_faithful vtxo p hp
  have hrun := settles_nil.postAll hall
  rw [Finset.empty_union] at hrun
  unfold run
  rw [sent_foldl_visit]
  exact hrun

end Ledger

theorem sortByCreatedAt_perm (vtxos : List VirtualCoin) :
    (sortByCreatedAt vtxos).Perm (vtxos.map normalizeVtxo) :=
  List.perm_insertionSort _ _

theorem buildTransactionHistory_ok {vtxos : List VirtualCoin}
    {allBoardingTxs : List ArkTransaction} {commitmentsToIgnore : List String}
    {resolveTxCreatedAt : Option ResolveTxCreatedAt} {history : List ExtendedArkTransaction}
    (h : buildTransactionHistory vtxos allBoardingTxs commitmentsToIgnore resolveTxCreatedAt =
      .ok history) :
    ∃ resolvedCreatedAt,
      let ledger : Ledger := ⟨sortByCreatedAt vtxos, commitmentsToIgnore, resolvedCreatedAt⟩
      history.Perm ((allBoardingTxs.map fun tx ↦ { tx with tag := BuiltinTxTag.boarding }) ++
        (ledger.run allBoardingTxs).sent ++ (ledger.run allBoardingTxs).received) := by
  unfold buildTransactionHistory at h
  dsimp only [bind, Except.bind, pure, Except.pure] at h
  split at h
  · cases h
  · rename_i resolvedCreatedAt _
    obtain rfl := Except.ok.inj h
    exact ⟨resolvedCreatedAt, List.perm_insertionSort _ _⟩

end ArkadeSdk.History
