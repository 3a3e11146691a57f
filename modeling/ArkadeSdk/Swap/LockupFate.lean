import ArkadeSdk.Lib.Distinct
import ArkadeSdk.Lib.JsMap
import ArkadeSdk.Script.UnknownFields
import ArkadeSdk.Swap.RfqSwap

/-! What became of a lockup, out of what the indexer tells of its outputs and their spends. -/

namespace ArkadeSdk.Rfq

open WireFormat JsNumber

structure LockupOutput where
  txid : String
  vout : ℕ
  isSpent : Bool
  spentBy : Option String
  settledBy : Option String
  arkTxId : Option String
  deriving DecidableEq

structure SpendInput where
  txid : Option Bytes
  index : Option ℕ
  unknown : List PsbtField
  finalScriptWitness : Option (List Bytes)

structure SpendTx where
  id : String
  inputs : List SpendInput

/-- The checkpoint that `spentBy` names, and the ark transaction behind it. -/
structure LockupSpend where
  checkpointTxid : String
  arkTxid : Option String
  deriving DecidableEq

inductive LockupReading
  | isOpen
  | claimed (preimage : Bytes) (spends : List LockupSpend)
  | returned (spends : List LockupSpend)
  | unknown
  deriving DecidableEq

/-- What a pass over the swap makes of the reading. -/
def LockupReading.toFate : LockupReading → LockupFate
  | .isOpen => .isOpen
  | .claimed _ spends => .claimed (spends.map (·.arkTxid))
  | .returned spends => .returned (spends.map (·.arkTxid))
  | .unknown => .unknown

/-- The hash, the coder of witnesses, and the decoder of transactions, which throws on some
texts. -/
structure SpendLibrary where
  hex : HexCodec.Codec
  sha256 : Bytes → Bytes
  rawWitness : Bytes → Option (List Bytes)
  decodeTx : String → Option SpendTx

section Reading

variable (lib : SpendLibrary)

def hashesTo (candidate : Bytes) (paymentHash : String) : Bool :=
  lib.hex.encode (lib.sha256 candidate) = paymentHash

/-- A field under another key, or with a value that does not decode, is left out. -/
def conditionWitness (field : PsbtField) : Option (List Bytes) :=
  if checkKeyMatch field.1 .ConditionWitness false then lib.rawWitness field.2 else none

def candidateWitnessItems (input : SpendInput) : List Bytes :=
  (input.unknown.filterMap (conditionWitness lib)).flatten ++ input.finalScriptWitness.getD []

def spendsOutput (all : List LockupOutput) (spent : SpendInput) : Bool :=
  match spent.txid with
  | none => false
  | some txid => all.any fun vtxo ↦ vtxo.txid = lib.hex.encode txid ∧ some vtxo.vout = spent.index

def preimageIn (all : List LockupOutput) (paymentHash : String) (tx : SpendTx) : Option Bytes :=
  tx.inputs.findSome? fun spent ↦
    if spendsOutput lib all spent then
      (candidateWitnessItems lib spent).find? (hashesTo lib · paymentHash)
    else none

/-- None of the three facts says that the output is spent. -/
def LockupOutput.unspent (vtxo : LockupOutput) : Bool :=
  !vtxo.isSpent && !truthy vtxo.spentBy && !truthy vtxo.settledBy

abbrev Spends := JsMap.Entries String LockupSpend

/-- One pass of the loop over the outputs, `none` for the return with an open lockup. -/
def addSpend (s : Spends × Bool) (vtxo : LockupOutput) : Option (Spends × Bool) :=
  if vtxo.unspent then none
  else if truthy vtxo.spentBy then
    let spentBy := vtxo.spentBy.getD ""
    some (JsMap.set spentBy ⟨spentBy, vtxo.arkTxId⟩ s.1, s.2)
  else some (s.1, false)

/-- The loop over the transactions: the ids observed, or the preimage that it returns with. -/
def readTxs (all : List LockupOutput) (spentBy : Spends) (paymentHash : String)
    (observed : List String) : List String → Except Bytes (List String)
  | [] => .ok observed
  | raw :: txs =>
    match lib.decodeTx raw with
    | none => readTxs all spentBy paymentHash observed txs
    | some tx =>
      let observed :=
        if (JsMap.get spentBy tx.id).isSome then Distinct.add id observed tx.id else observed
      match preimageIn lib all paymentHash tx with
      | some candidate => .error candidate
      | none => readTxs all spentBy paymentHash observed txs

/-- `all` and `txs` are what the indexer answers with. -/
def readLockupFate (all : List LockupOutput) (txs : List String) (paymentHash : String) :
    LockupReading :=
  if all.length = 0 then .unknown
  else match all.foldlM addSpend ([], true) with
    | none => .isOpen
    | some (spentBy, everySpendNamed) =>
      let spends := spentBy.map (·.2)
      match readTxs lib all spentBy paymentHash [] txs with
      | .error preimage => .claimed preimage spends
      | .ok observed =>
        if everySpendNamed ∧ observed.length = spentBy.length then .returned spends else .unknown

variable (all : List LockupOutput) (txs : List String) (paymentHash : String)

/-- A transaction that came back has an input at the lockup with an item that hashes to the
payment hash. -/
def Reveals (preimage : Bytes) : Prop :=
  ∃ raw ∈ txs, ∃ tx, lib.decodeTx raw = some tx ∧ ∃ spent ∈ tx.inputs,
    spendsOutput lib all spent = true ∧ preimage ∈ candidateWitnessItems lib spent ∧
      hashesTo lib preimage paymentHash = true

/-- The transaction that an output names came back. -/
def Observed (vtxo : LockupOutput) : Prop :=
  ∃ raw ∈ txs, ∃ tx, lib.decodeTx raw = some tx ∧ vtxo.spentBy = some tx.id

def LockupReading.sameVerdict : LockupReading → LockupReading → Prop
  | .isOpen, .isOpen | .returned _, .returned _ | .unknown, .unknown => True
  | .claimed preimage _, .claimed preimage' _ => preimage = preimage'
  | _, _ => False

structure FateRight : Prop where
  isOpen : readLockupFate lib all txs paymentHash = .isOpen → ∃ vtxo ∈ all, vtxo.unspent = true
  claimed : ∀ preimage spends, readLockupFate lib all txs paymentHash = .claimed preimage spends →
    Reveals lib all txs paymentHash preimage
  returned : ∀ spends, readLockupFate lib all txs paymentHash = .returned spends →
    (∀ vtxo ∈ all, vtxo.unspent = false) ∧ (∀ vtxo ∈ all, truthy vtxo.spentBy = true) ∧
      (∀ vtxo ∈ all, Observed lib txs vtxo) ∧ ∀ item, ¬Reveals lib all txs paymentHash item
  anyOrder : ∀ all' txs', all'.Perm all → txs'.Perm txs →
    (readLockupFate lib all' txs' paymentHash).sameVerdict
      (readLockupFate lib all txs paymentHash)
  complete : all ≠ [] → (∀ vtxo ∈ all, vtxo.unspent = false) →
    (∀ vtxo ∈ all, truthy vtxo.spentBy = true) → (∀ vtxo ∈ all, Observed lib txs vtxo) →
      readLockupFate lib all txs paymentHash ≠ .unknown

end Reading

section Outputs

variable {all all' : List LockupOutput} {s s' : Spends × Bool}

theorem foldlM_addSpend_none :
    all.foldlM addSpend s = none ↔ ∃ vtxo ∈ all, vtxo.unspent = true := by
  induction all generalizing s with
  | nil => simp
  | cons vtxo all ih =>
    rw [List.foldlM_cons]
    cases hunspent : vtxo.unspent with
    | true =>
      rw [addSpend, if_pos hunspent]
      exact iff_of_true rfl ⟨vtxo, List.mem_cons_self, hunspent⟩
    | false =>
      have hstep : ∃ t, addSpend s vtxo = some t := by
        unfold addSpend
        rw [if_neg (by simp [hunspent])]
        split
        · exact ⟨_, rfl⟩
        · exact ⟨_, rfl⟩
      obtain ⟨t, ht⟩ := hstep
      rw [ht]
      refine (ih (s := t)).trans ?_
      simp [hunspent]

/-- What the map holds when the loop ends. -/
structure SpendsRead (all : List LockupOutput) (s s' : Spends × Bool) : Prop where
  spent : ∀ vtxo ∈ all, vtxo.unspent = false
  nodup : (s.1.map Prod.fst).Nodup → (s'.1.map Prod.fst).Nodup
  keys : ∀ key, key ∈ s'.1.map Prod.fst ↔
    key ∈ s.1.map Prod.fst ∨ ∃ vtxo ∈ all, truthy vtxo.spentBy = true ∧ vtxo.spentBy = some key
  named : s'.2 = true ↔ s.2 = true ∧ ∀ vtxo ∈ all, truthy vtxo.spentBy = true

theorem addSpend_read {vtxo : LockupOutput} (h : addSpend s vtxo = some s') :
    SpendsRead [vtxo] s s' := by
  unfold addSpend at h
  split at h
  · cases h
  · next hspent =>
    have hone : ∀ v ∈ [vtxo], v.unspent = false := by simpa using hspent
    split at h
    · next hnamed =>
      cases h
      cases hby : vtxo.spentBy with
      | none => simp [hby, truthy] at hnamed
      | some key =>
        refine ⟨hone, fun hnodup ↦ JsMap.nodup_set hnodup _ _, fun k ↦ ?_, by simp [hnamed]⟩
        rw [JsMap.keys_set]
        by_cases hk : key ∈ s.1.map Prod.fst
        · rw [if_pos (by simpa using hk)]
          refine ⟨Or.inl, fun h ↦ h.elim (fun h ↦ h) ?_⟩
          rintro ⟨v, hv, -, hk'⟩
          rw [List.mem_singleton.mp hv, hby] at hk'
          exact Option.some.inj hk' ▸ hk
        · rw [if_neg (by simpa using hk), List.mem_append]
          refine or_congr_right ?_
          simp [hby, ← hnamed, eq_comm]
    · next hunnamed =>
      cases h
      refine ⟨hone, fun hnodup ↦ hnodup, fun k ↦ ?_, by simp [hunnamed]⟩
      simp [hunnamed]

theorem SpendsRead.trans {t : Spends × Bool} {rest : List LockupOutput}
    (h : SpendsRead all s t) (h' : SpendsRead rest t s') : SpendsRead (all ++ rest) s s' where
  spent vtxo hvtxo := (List.mem_append.mp hvtxo).elim (h.spent vtxo) (h'.spent vtxo)
  nodup hnodup := h'.nodup (h.nodup hnodup)
  keys key := by
    rw [h'.keys, h.keys, or_assoc]
    simp only [List.mem_append, or_and_right, exists_or]
  named := by
    rw [h'.named, h.named, and_assoc]
    simp only [List.mem_append, or_imp, forall_and]

theorem foldlM_addSpend_some (h : all.foldlM addSpend s = some s') : SpendsRead all s s' := by
  induction all generalizing s with
  | nil =>
    cases h
    exact ⟨by simp, fun hnodup ↦ hnodup, by simp, by simp⟩
  | cons vtxo all ih =>
    rw [List.foldlM_cons] at h
    obtain ⟨t, ht, h⟩ := Option.bind_eq_some_iff.mp h
    exact (addSpend_read ht).trans (ih h)

end Outputs

section Transactions

variable {lib : SpendLibrary} {all all' : List LockupOutput} {txs txs' : List String}
  {paymentHash : String} {spentBy : Spends} {observed observed' : List String} {tx : SpendTx}
  {item : Bytes}

theorem preimageIn_some (h : preimageIn lib all paymentHash tx = some item) :
    ∃ spent ∈ tx.inputs, spendsOutput lib all spent = true ∧
      item ∈ candidateWitnessItems lib spent ∧ hashesTo lib item paymentHash = true := by
  obtain ⟨spent, hspent, hfind⟩ := List.exists_of_findSome?_eq_some h
  split at hfind
  · next houtput =>
    have hhash : hashesTo lib item paymentHash = true := by simpa using List.find?_some hfind
    exact ⟨spent, hspent, houtput, List.mem_of_find?_eq_some hfind, hhash⟩
  · cases hfind

theorem preimageIn_none (h : preimageIn lib all paymentHash tx = none) {spent : SpendInput}
    (hspent : spent ∈ tx.inputs) (houtput : spendsOutput lib all spent = true)
    (hitem : item ∈ candidateWitnessItems lib spent) : hashesTo lib item paymentHash = false := by
  have hnone := List.findSome?_eq_none_iff.mp h spent hspent
  rw [if_pos houtput, List.find?_eq_none] at hnone
  exact Bool.eq_false_of_not_eq_true (hnone item hitem)

theorem readTxs_error {preimage : Bytes}
    (h : readTxs lib all spentBy paymentHash observed txs = .error preimage) :
    Reveals lib all txs paymentHash preimage := by
  induction txs generalizing observed with
  | nil => cases h
  | cons raw txs ih =>
    have hmore (h : Reveals lib all txs paymentHash preimage) :
        Reveals lib all (raw :: txs) paymentHash preimage := by
      obtain ⟨raw', hraw', hrest⟩ := h
      exact ⟨raw', List.mem_cons_of_mem _ hraw', hrest⟩
    unfold readTxs at h
    split at h
    · exact hmore (ih h)
    · next tx htx =>
      dsimp only at h
      split at h
      · next candidate hcandidate =>
        cases h
        exact ⟨raw, List.mem_cons_self, tx, htx, preimageIn_some hcandidate⟩
      · exact hmore (ih h)

/-- What was observed when the loop ends. -/
structure TxsRead (lib : SpendLibrary) (all : List LockupOutput) (spentBy : Spends)
    (paymentHash : String) (txs observed observed' : List String) : Prop where
  silent : ∀ item, ¬Reveals lib all txs paymentHash item
  nodup : observed.Nodup → observed'.Nodup
  ids : ∀ id, id ∈ observed' ↔ id ∈ observed ∨ id ∈ spentBy.map Prod.fst ∧
    ∃ raw ∈ txs, ∃ tx, lib.decodeTx raw = some tx ∧ tx.id = id

theorem isSome_get {id : String} :
    (JsMap.get spentBy id).isSome = true ↔ id ∈ spentBy.map Prod.fst := by
  rw [JsMap.get, Option.isSome_map, List.find?_isSome]
  simp

theorem mem_observe {key txid : String} :
    key ∈ (if (JsMap.get spentBy txid).isSome then Distinct.add id observed txid else observed) ↔
      key ∈ observed ∨ key ∈ spentBy.map Prod.fst ∧ txid = key := by
  split
  · next hsome =>
    rw [Distinct.mem_add_id]
    refine or_congr_right ⟨?_, fun h ↦ h.2.symm⟩
    rintro rfl
    exact ⟨isSome_get.mp hsome, rfl⟩
  · next hnone =>
    refine (or_iff_left ?_).symm
    rintro ⟨hkey, rfl⟩
    exact hnone (isSome_get.mpr hkey)

theorem readTxs_ok (h : readTxs lib all spentBy paymentHash observed txs = .ok observed') :
    TxsRead lib all spentBy paymentHash txs observed observed' := by
  induction txs generalizing observed with
  | nil =>
    cases h
    exact ⟨by simp [Reveals], fun hnodup ↦ hnodup, by simp⟩
  | cons raw txs ih =>
    unfold readTxs at h
    split at h
    · next hraw =>
      have hrest := ih h
      refine ⟨fun item hreveals ↦ hrest.silent item ?_, hrest.nodup, fun id ↦ ?_⟩
      · obtain ⟨raw', hraw', tx, htx, hitem⟩ := hreveals
        rcases List.mem_cons.mp hraw' with rfl | hraw'
        · cases hraw.symm.trans htx
        · exact ⟨raw', hraw', tx, htx, hitem⟩
      · rw [hrest.ids]
        simp [hraw]
    · next tx htx =>
      dsimp only at h
      split at h
      · cases h
      · next hnone =>
        have hrest := ih h
        refine ⟨fun item hreveals ↦ ?_, fun hnodup ↦ hrest.nodup ?_, fun key ↦ ?_⟩
        · obtain ⟨raw', hraw', tx', htx', hitem⟩ := hreveals
          rcases List.mem_cons.mp hraw' with rfl | hraw'
          · obtain rfl := Option.some.inj (htx.symm.trans htx')
            obtain ⟨spent, hspent, houtput, hmem, hhash⟩ := hitem
            cases hhash.symm.trans (preimageIn_none hnone hspent houtput hmem)
          · exact hrest.silent item ⟨raw', hraw', tx', htx', hitem⟩
        · split
          · exact Distinct.nodup_add_id hnodup _
          · exact hnodup
        · rw [hrest.ids, mem_observe, or_assoc]
          refine or_congr_right ?_
          simp only [List.mem_cons, exists_eq_or_imp, htx, Option.some.injEq, exists_eq_left',
            and_or_left]

end Transactions

section Verdict

variable {lib : SpendLibrary} {all all' : List LockupOutput} {txs txs' : List String}
  {paymentHash : String} {item : Bytes}

theorem observed_iff {spentBy : Spends} {named : Bool} {observed : List String}
    (hread : SpendsRead all ([], true) (spentBy, named))
    (htxs : TxsRead lib all spentBy paymentHash txs [] observed) :
    named = true ∧ observed.length = spentBy.length ↔
      (∀ vtxo ∈ all, truthy vtxo.spentBy = true) ∧ ∀ vtxo ∈ all, Observed lib txs vtxo := by
  have hnamed : named = true ↔ ∀ vtxo ∈ all, truthy vtxo.spentBy = true := by
    simpa using hread.named
  have hkeys : ∀ key, key ∈ spentBy.map Prod.fst ↔
      ∃ vtxo ∈ all, truthy vtxo.spentBy = true ∧ vtxo.spentBy = some key := by
    simpa using hread.keys
  have hnodup : (spentBy.map Prod.fst).Nodup := hread.nodup List.nodup_nil
  have hids : ∀ id, id ∈ observed ↔ id ∈ spentBy.map Prod.fst ∧
      ∃ raw ∈ txs, ∃ tx, lib.decodeTx raw = some tx ∧ tx.id = id := by
    simpa using htxs.ids
  have hsub : observed ⊆ spentBy.map Prod.fst := fun id hid ↦ ((hids id).mp hid).1
  have hsubperm := (htxs.nodup List.nodup_nil).subperm hsub
  rw [hnamed]
  refine and_congr_right fun hall ↦ ⟨fun hlength vtxo hvtxo ↦ ?_, fun hobserved ↦ ?_⟩
  · have hperm := hsubperm.perm_of_length_le (by rw [List.length_map, hlength])
    cases hby : vtxo.spentBy with
    | none =>
      have hfalse := hall vtxo hvtxo
      simp [truthy, hby] at hfalse
    | some id =>
      have hmem := hperm.symm.subset ((hkeys id).mpr ⟨vtxo, hvtxo, hall vtxo hvtxo, hby⟩)
      obtain ⟨-, raw, hraw, tx, htx, rfl⟩ := (hids id).mp hmem
      exact ⟨raw, hraw, tx, htx, hby⟩
  · have hback : spentBy.map Prod.fst ⊆ observed := by
      intro id hid
      obtain ⟨vtxo, hvtxo, -, hby⟩ := (hkeys id).mp hid
      obtain ⟨raw, hraw, tx, htx, hby'⟩ := hobserved vtxo hvtxo
      exact (hids id).mpr ⟨hid, raw, hraw, tx, htx, Option.some.inj (hby'.symm.trans hby)⟩
    have hle := hsubperm.length_le
    have hge := (hnodup.subperm hback).length_le
    rw [List.length_map] at hle hge
    exact le_antisymm hle hge

inductive ReadAs (lib : SpendLibrary) (all : List LockupOutput) (txs : List String)
    (paymentHash : String) : LockupReading → Prop
  | empty : all = [] → ReadAs lib all txs paymentHash .unknown
  | isOpen : (∃ vtxo ∈ all, vtxo.unspent = true) → ReadAs lib all txs paymentHash .isOpen
  | claimed (preimage spends) : (∀ vtxo ∈ all, vtxo.unspent = false) → all ≠ [] →
      Reveals lib all txs paymentHash preimage →
        ReadAs lib all txs paymentHash (.claimed preimage spends)
  | returned (spends) : (∀ vtxo ∈ all, vtxo.unspent = false) → all ≠ [] →
      (∀ item, ¬Reveals lib all txs paymentHash item) →
      (∀ vtxo ∈ all, truthy vtxo.spentBy = true) → (∀ vtxo ∈ all, Observed lib txs vtxo) →
        ReadAs lib all txs paymentHash (.returned spends)
  | unknown : (∀ vtxo ∈ all, vtxo.unspent = false) → all ≠ [] →
      (∀ item, ¬Reveals lib all txs paymentHash item) →
      ¬((∀ vtxo ∈ all, truthy vtxo.spentBy = true) ∧ ∀ vtxo ∈ all, Observed lib txs vtxo) →
        ReadAs lib all txs paymentHash .unknown

theorem readAs_readLockupFate :
    ReadAs lib all txs paymentHash (readLockupFate lib all txs paymentHash) := by
  unfold readLockupFate
  by_cases hempty : all.length = 0
  · rw [if_pos hempty]
    exact .empty (List.length_eq_zero_iff.mp hempty)
  · have hne : all ≠ [] := fun h ↦ hempty (by rw [h]; rfl)
    rw [if_neg hempty]
    cases hspends : all.foldlM addSpend ([], true) with
    | none => exact .isOpen (foldlM_addSpend_none.mp hspends)
    | some s =>
      obtain ⟨spentBy, named⟩ := s
      have hread := foldlM_addSpend_some hspends
      dsimp only
      cases htxs : readTxs lib all spentBy paymentHash [] txs with
      | error preimage => exact .claimed preimage _ hread.spent hne (readTxs_error htxs)
      | ok observed =>
        have htxsRead := readTxs_ok htxs
        have hiff := observed_iff hread htxsRead
        dsimp only
        by_cases hall : named = true ∧ observed.length = spentBy.length
        · rw [if_pos hall]
          exact .returned _ hread.spent hne htxsRead.silent (hiff.mp hall).1 (hiff.mp hall).2
        · rw [if_neg hall]
          exact .unknown hread.spent hne htxsRead.silent (hiff.not.mp hall)

theorem Reveals.perm (hall : all'.Perm all) (htxs : txs'.Perm txs)
    (h : Reveals lib all' txs' paymentHash item) : Reveals lib all txs paymentHash item := by
  obtain ⟨raw, hraw, tx, htx, spent, hspent, houtput, hitem⟩ := h
  refine ⟨raw, htxs.subset hraw, tx, htx, spent, hspent, ?_, hitem⟩
  unfold spendsOutput at houtput ⊢
  split at houtput
  · cases houtput
  · obtain ⟨vtxo, hvtxo, hmatch⟩ := List.any_eq_true.mp houtput
    exact List.any_eq_true.mpr ⟨vtxo, hall.subset hvtxo, hmatch⟩

theorem Observed.perm {vtxo : LockupOutput} (htxs : txs'.Perm txs)
    (h : Observed lib txs' vtxo) : Observed lib txs vtxo := by
  obtain ⟨raw, hraw, hrest⟩ := h
  exact ⟨raw, htxs.subset hraw, hrest⟩

theorem ReadAs.perm {reading : LockupReading} (hall : all'.Perm all) (htxs : txs'.Perm txs)
    (h : ReadAs lib all' txs' paymentHash reading) : ReadAs lib all txs paymentHash reading := by
  have hne : all' ≠ [] → all ≠ [] := by
    rintro hne rfl
    exact hne hall.eq_nil
  have hsilent : (∀ item, ¬Reveals lib all' txs' paymentHash item) →
      ∀ item, ¬Reveals lib all txs paymentHash item :=
    fun hnone item hreveals ↦ hnone item (hreveals.perm hall.symm htxs.symm)
  cases h with
  | empty h => exact .empty (h ▸ hall).symm.eq_nil
  | isOpen h =>
    obtain ⟨vtxo, hvtxo, hunspent⟩ := h
    exact .isOpen ⟨vtxo, hall.subset hvtxo, hunspent⟩
  | claimed preimage spends hspent hne' hreveals =>
    exact .claimed preimage spends (fun vtxo hvtxo ↦ hspent vtxo (hall.symm.subset hvtxo))
      (hne hne') (hreveals.perm hall htxs)
  | returned spends hspent hne' hnone hnamed hobserved =>
    exact .returned spends (fun vtxo hvtxo ↦ hspent vtxo (hall.symm.subset hvtxo)) (hne hne')
      (hsilent hnone) (fun vtxo hvtxo ↦ hnamed vtxo (hall.symm.subset hvtxo))
      fun vtxo hvtxo ↦ (hobserved vtxo (hall.symm.subset hvtxo)).perm htxs
  | unknown hspent hne' hnone hincomplete =>
    refine .unknown (fun vtxo hvtxo ↦ hspent vtxo (hall.symm.subset hvtxo)) (hne hne')
      (hsilent hnone) fun hcomplete ↦ hincomplete ⟨fun vtxo hvtxo ↦ ?_, fun vtxo hvtxo ↦ ?_⟩
    · exact hcomplete.1 vtxo (hall.subset hvtxo)
    · exact (hcomplete.2 vtxo (hall.subset hvtxo)).perm htxs.symm

theorem Reveals.unique (hinj : Function.Injective lib.sha256) {item' : Bytes}
    (h : Reveals lib all txs paymentHash item) (h' : Reveals lib all txs paymentHash item') :
    item = item' := by
  obtain ⟨-, -, -, -, -, -, -, -, hhash⟩ := h
  obtain ⟨-, -, -, -, -, -, -, -, hhash'⟩ := h'
  have hhex := (of_decide_eq_true hhash).trans (of_decide_eq_true hhash').symm
  exact hinj (lib.hex.encode_injective hhex)

theorem ReadAs.sameVerdict (hinj : Function.Injective lib.sha256) {reading reading' : LockupReading}
    (h : ReadAs lib all txs paymentHash reading)
    (h' : ReadAs lib all txs paymentHash reading') : reading.sameVerdict reading' := by
  have hopen : (∃ vtxo ∈ all, vtxo.unspent = true) → ¬∀ vtxo ∈ all, vtxo.unspent = false := by
    rintro ⟨vtxo, hvtxo, hunspent⟩ hspent
    cases hunspent.symm.trans (hspent vtxo hvtxo)
  have hnil : all = [] → ¬∃ vtxo ∈ all, vtxo.unspent = true := by
    rintro rfl ⟨_, hvtxo, -⟩
    cases hvtxo
  cases h <;> cases h' <;> first | trivial | grind [Reveals.unique, LockupReading.sameVerdict]

theorem readLockupFate_right (hinj : Function.Injective lib.sha256) :
    FateRight lib all txs paymentHash := by
  have hread : ReadAs lib all txs paymentHash (readLockupFate lib all txs paymentHash) :=
    readAs_readLockupFate
  refine ⟨fun h ↦ ?_, fun preimage spends h ↦ ?_, fun spends h ↦ ?_, fun all' txs' hall htxs ↦ ?_,
    fun hne hspent hnamed hobserved h ↦ ?_⟩
  · rw [h] at hread
    cases hread with
    | isOpen hopen => exact hopen
  · rw [h] at hread
    cases hread with
    | claimed _ _ _ _ hreveals => exact hreveals
  · rw [h] at hread
    cases hread with
    | returned _ hspent _ hnone hnamed hobserved => exact ⟨hspent, hnamed, hobserved, hnone⟩
  · exact (readAs_readLockupFate.perm hall htxs).sameVerdict hinj hread
  · rw [h] at hread
    cases hread with
    | empty hempty => exact hne hempty
    | unknown _ _ _ hincomplete => exact hincomplete ⟨hnamed, hobserved⟩

end Verdict

section Sample

def sampleDigest : Bytes :=
  [0xca, 0x35, 0x87, 0x58, 0xf6, 0xd2, 0x7e, 0x6c, 0xf4, 0x52, 0x72, 0x93, 0x79, 0x77, 0xa7, 0x48,
    0xfd, 0x88, 0x39, 0x1d, 0xb6, 0x79, 0xce, 0xda, 0x7d, 0xc7, 0xbf, 0x1f, 0x00, 0x5e, 0xe8, 0x79]

/-- The hash and the witness coder as they are on the one preimage here, and a text for the
transaction. -/
def sampleLibrary : SpendLibrary where
  hex := HexCodec.base16
  sha256 := Equiv.swap [7] sampleDigest
  rawWitness value := if value = [1, 1, 7] then some [[7]] else none
  decodeTx raw :=
    if raw = "claim" then
      some ⟨"checkpoint", [⟨some [0xaa], some 0,
        [(⟨ArkPsbtFieldKeyType, encodedPsbtFieldKey .ConditionWitness⟩, [1, 1, 7])], none⟩]⟩
    else none

theorem claim_read :
    FateRight sampleLibrary [⟨"aa", 0, true, some "checkpoint", none, some "ark"⟩]
      ["noise", "claim"] "ca358758f6d27e6cf45272937977a748fd88391db679ceda7dc7bf1f005ee879" :=
  readLockupFate_right (Equiv.swap [7] sampleDigest).injective

example : readLockupFate sampleLibrary [⟨"aa", 0, true, some "checkpoint", none, some "ark"⟩]
    ["noise", "claim"] "ca358758f6d27e6cf45272937977a748fd88391db679ceda7dc7bf1f005ee879" =
      .claimed [7] [⟨"checkpoint", some "ark"⟩] := by decide

end Sample

end ArkadeSdk.Rfq
