import ArkadeSdk.Exit.Capture
import ArkadeSdk.Lib.Distinct
import ArkadeSdk.Lib.Kahn

/-! The transactions that several virtual outputs need for their exits, as one graph. -/

namespace ArkadeSdk.Exit

open JsNumber

structure DagNode where
  txid : String
  type : ChainTxType
  expiresAt : Option Number
  forVtxos : List String
  confirmed : Bool

def isCommitment (t : ChainTxType) : Bool := t = .commitment || t = .unspecified

/-- `forVtxos` is a set, its members in the order of insertion. -/
structure MergedTx extends ChainTx where
  forVtxos : List String

def outpointKey (vtxo : Outpoint) : String := vtxo.txid ++ ":" ++ Decimal.toText vtxo.vout

def mergeTx (outpoint : String) (byTxid : JsMap.Entries String MergedTx) (chainTx : ChainTx) :
    JsMap.Entries String MergedTx :=
  match JsMap.get byTxid chainTx.txid with
  | some existing =>
    JsMap.set chainTx.txid
      { existing with forVtxos := Distinct.add id existing.forVtxos outpoint } byTxid
  | none => JsMap.set chainTx.txid ⟨chainTx, [outpoint]⟩ byTxid

/-- The VTXOs come with what the resolver answers for each. -/
def mergeChains (answers : List (Outpoint × Except String (List ChainTx))) :
    Except String (JsMap.Entries String MergedTx) :=
  answers.foldlM (fun byTxid answer ↦ do
    let chain ← answer.2
    return chain.foldl (mergeTx (outpointKey answer.1)) byTxid) []

def pendingOf (byTxid : JsMap.Entries String MergedTx) : List MergedTx :=
  (byTxid.map (·.2)).filter fun tx ↦ !isCommitment tx.type

def cycleDetected : String := "inconsistent vtxo chain from indexer (cycle detected)"

/-- The outpoints are sorted as texts. -/
def dagNode (getTxStatus : String → Except String Bool) (tx : MergedTx) : DagNode where
  txid := tx.txid
  type := tx.type
  expiresAt := expiryOf tx.toChainTx
  forVtxos := tx.forVtxos.mergeSort fun a b ↦ a ≤ b
  confirmed := match getTxStatus tx.txid with
    | .ok confirmed => confirmed
    | .error _ => false

variable (localeLE : String → String → Bool) (getTxStatus : String → Except String Bool)

def byLocale (txs : List MergedTx) : List MergedTx :=
  txs.mergeSort fun a b ↦ localeLE a.txid b.txid

def kahnOrder (pending : List MergedTx) : List MergedTx :=
  Kahn.order (·.txid) (·.spends) (byLocale localeLE) pending

def buildExitDag (answers : List (Outpoint × Except String (List ChainTx))) :
    Except String (List DagNode) := do
  let byTxid ← mergeChains answers
  let pending := pendingOf byTxid
  let order := kahnOrder localeLE pending
  if order.length ≠ pending.length then throw cycleDetected
  return order.map (dagNode getTxStatus)

variable (chains : List (Outpoint × List ChainTx))

/-- A transaction is known by the first record that any chain has of it. -/
def recordOf (txid : String) : Option ChainTx :=
  (chains.flatMap (·.2)).find? (·.txid = txid)

/-- A transaction of some chain that is no commitment. -/
def Virtual (txid : String) : Prop :=
  ∃ c, recordOf chains txid = some c ∧ isCommitment c.type = false

def Spends (parent child : String) : Prop :=
  ∃ c, recordOf chains child = some c ∧ isCommitment c.type = false ∧
    parent ∈ c.spends ∧ Virtual chains parent

/-- Every transaction once and after those it spends, each with the VTXOs whose chains have it. -/
structure CompleteDag (nodes : List DagNode) : Prop where
  complete : ∀ txid, txid ∈ nodes.map (·.txid) ↔ Virtual chains txid
  once : (nodes.map (·.txid)).Nodup
  ordered : ∀ before (node : DagNode) after, nodes = before ++ node :: after →
    ∀ parent, Spends chains parent node.txid → parent ∈ before.map (·.txid)
  forVtxos : ∀ node ∈ nodes, node.forVtxos.Nodup ∧ ∀ key, key ∈ node.forVtxos ↔
    ∃ vtxo chain, (vtxo, chain) ∈ chains ∧ key = outpointKey vtxo ∧
      node.txid ∈ chain.map (·.txid)

def ParentsNamedOnce : Prop :=
  ∀ child c, recordOf chains child = some c → ∀ parent, Spends chains parent child →
    c.spends.count parent = 1

def answersOf : List (Outpoint × Except String (List ChainTx)) :=
  chains.map fun e ↦ (e.1, .ok e.2)

def recordsOf : List (String × ChainTx) :=
  chains.flatMap fun e ↦ e.2.map fun c ↦ (outpointKey e.1, c)

def merged : JsMap.Entries String MergedTx :=
  (recordsOf chains).foldl (fun byTxid r ↦ mergeTx r.1 byTxid r.2) []

variable {localeLE getTxStatus chains}

theorem mergeChains_answersOf : mergeChains (answersOf chains) = .ok (merged chains) := by
  have hgo : ∀ byTxid, (answersOf chains).foldlM (fun byTxid answer ↦ do
      let chain ← answer.2
      return chain.foldl (mergeTx (outpointKey answer.1)) byTxid) byTxid =
      (.ok ((recordsOf chains).foldl (fun byTxid r ↦ mergeTx r.1 byTxid r.2) byTxid) :
        Except String (JsMap.Entries String MergedTx)) := by
    induction chains with
    | nil => exact fun _ ↦ rfl
    | cons e chains ih =>
      intro byTxid
      have hrest := ih (e.2.foldl (mergeTx (outpointKey e.1)) byTxid)
      simp only [answersOf, List.map_cons, List.foldlM_cons, recordsOf, List.flatMap_cons,
        List.foldl_append, List.foldl_map] at hrest ⊢
      exact hrest
  exact hgo []

/-- What the map holds of a transaction after some records. -/
structure MergedRecord (records : List (String × ChainTx)) (txid : String) (tx : MergedTx) :
    Prop where
  record : (records.map (·.2)).find? (·.txid = txid) = some tx.toChainTx
  nodup : tx.forVtxos.Nodup
  forVtxos : ∀ key, key ∈ tx.forVtxos ↔ ∃ r ∈ records, r.1 = key ∧ r.2.txid = txid

structure Merges (records : List (String × ChainTx)) (byTxid : JsMap.Entries String MergedTx) :
    Prop where
  nodup : (byTxid.map Prod.fst).Nodup
  found : ∀ txid tx, JsMap.get byTxid txid = some tx → MergedRecord records txid tx
  missing : ∀ txid, JsMap.get byTxid txid = none → ∀ r ∈ records, r.2.txid ≠ txid

section Merges

variable {records : List (String × ChainTx)} {r : String × ChainTx} {txid : String} {tx : MergedTx}
  {byTxid : JsMap.Entries String MergedTx}

theorem MergedRecord.other (h : MergedRecord records txid tx) (hne : r.2.txid ≠ txid) :
    MergedRecord (records ++ [r]) txid tx where
  record := by
    rw [List.map_append, List.find?_append, h.record, Option.some_or]
  nodup := h.nodup
  forVtxos key := by
    rw [h.forVtxos]
    simp [hne]

theorem MergedRecord.again (h : MergedRecord records txid tx) (heq : r.2.txid = txid) :
    MergedRecord (records ++ [r]) txid
      { tx with forVtxos := Distinct.add id tx.forVtxos r.1 } where
  record := by
    rw [List.map_append, List.find?_append, h.record, Option.some_or]
  nodup := Distinct.nodup_add_id h.nodup _
  forVtxos key := by
    rw [Distinct.mem_add_id, h.forVtxos]
    constructor
    · rintro (⟨r', hr', hkey⟩ | rfl)
      · exact ⟨r', List.mem_append_left _ hr', hkey⟩
      · exact ⟨r, by simp, rfl, heq⟩
    · rintro ⟨r', hr', hkey, htxid⟩
      rcases List.mem_append.mp hr' with hr' | hr'
      · exact .inl ⟨r', hr', hkey, htxid⟩
      · rw [List.mem_singleton.mp hr'] at hkey
        exact .inr hkey.symm

theorem MergedRecord.first (hnew : ∀ r' ∈ records, r'.2.txid ≠ r.2.txid) :
    MergedRecord (records ++ [r]) r.2.txid ⟨r.2, [r.1]⟩ where
  record := by
    have hnone : (records.map (·.2)).find? (fun c ↦ decide (c.txid = r.2.txid)) = none := by
      simpa [List.find?_eq_none] using fun key c hc ↦ hnew (key, c) hc
    rw [List.map_append, List.find?_append, hnone]
    simp
  nodup := List.nodup_singleton _
  forVtxos key := by
    constructor
    · intro h
      exact ⟨r, by simp, (List.mem_singleton.mp h).symm, rfl⟩
    · rintro ⟨r', hr', hkey, htxid⟩
      rcases List.mem_append.mp hr' with hr' | hr'
      · exact absurd htxid (hnew r' hr')
      · rw [List.mem_singleton.mp hr'] at hkey
        exact List.mem_singleton.mpr hkey.symm

theorem Merges.mergeTx (h : Merges records byTxid) (r : String × ChainTx) :
    Merges (records ++ [r]) (mergeTx r.1 byTxid r.2) := by
  have hmissing : ∀ txid, JsMap.get byTxid txid = none → r.2.txid ≠ txid →
      ∀ r' ∈ records ++ [r], r'.2.txid ≠ txid := by
    intro txid hnone hne r' hr'
    rcases List.mem_append.mp hr' with hr' | hr'
    · exact h.missing txid hnone r' hr'
    · rwa [List.mem_singleton.mp hr']
  unfold Exit.mergeTx
  cases hget : JsMap.get byTxid r.2.txid with
  | some existing =>
    refine ⟨JsMap.nodup_set h.nodup _ _, fun txid tx htx ↦ ?_, fun txid hnone ↦ ?_⟩
    · rw [JsMap.get_set] at htx
      split at htx
      · next heq =>
        obtain rfl := Option.some.inj htx
        exact (h.found txid existing (heq ▸ hget)).again heq
      · next hne => exact (h.found txid tx htx).other hne
    · rw [JsMap.get_set] at hnone
      split at hnone
      · cases hnone
      · next hne => exact hmissing txid hnone hne
  | none =>
    refine ⟨JsMap.nodup_set h.nodup _ _, fun txid tx htx ↦ ?_, fun txid hnone ↦ ?_⟩
    · rw [JsMap.get_set] at htx
      split at htx
      · next heq =>
        obtain rfl := Option.some.inj htx
        subst heq
        exact MergedRecord.first (h.missing _ hget)
      · next hne => exact (h.found txid tx htx).other hne
    · rw [JsMap.get_set] at hnone
      split at hnone
      · cases hnone
      · next hne => exact hmissing txid hnone hne

theorem merges_merged : Merges (recordsOf chains) (merged chains) := by
  unfold merged
  induction recordsOf chains using List.reverseRecOn with
  | nil => exact ⟨List.nodup_nil, nofun, fun _ _ _ h ↦ absurd h List.not_mem_nil⟩
  | append_singleton records r ih =>
    rw [List.foldl_append]
    exact ih.mergeTx r

end Merges

section Graph

variable {txid parent child : String} {tx : MergedTx}

theorem recordOf_eq_some {c : ChainTx} : recordOf chains txid = some c ↔
    ∃ tx, JsMap.get (merged chains) txid = some tx ∧ tx.toChainTx = c := by
  have hrecords : (recordsOf chains).map (·.2) = chains.flatMap (·.2) := by
    simp [recordsOf, List.map_flatMap, Function.comp_def]
  unfold recordOf
  rw [← hrecords]
  cases hget : JsMap.get (merged chains) txid with
  | none =>
    have hnone : ((recordsOf chains).map (·.2)).find? (fun c ↦ decide (c.txid = txid)) = none := by
      simpa [List.find?_eq_none] using
        fun key c hc ↦ merges_merged.missing txid hget (key, c) hc
    simp [hnone]
  | some tx =>
    rw [(merges_merged.found txid tx hget).record]
    simp

theorem txid_of_get (h : JsMap.get (merged chains) txid = some tx) : tx.txid = txid := by
  simpa using List.find?_some (merges_merged.found txid tx h).record

theorem mem_pending : tx ∈ pendingOf (merged chains) ↔
    JsMap.get (merged chains) tx.txid = some tx ∧ isCommitment tx.type = false := by
  unfold pendingOf
  rw [List.mem_filter, Bool.not_eq_true', and_congr_left_iff]
  intro _
  rw [List.mem_map]
  constructor
  · rintro ⟨⟨key, tx⟩, hmem, rfl⟩
    have hget := JsMap.get_of_mem merges_merged.nodup hmem
    rwa [txid_of_get hget]
  · exact fun h ↦ ⟨(tx.txid, tx), JsMap.mem_of_get h, rfl⟩

theorem virtual_iff : Virtual chains txid ↔ ∃ tx ∈ pendingOf (merged chains), tx.txid = txid := by
  constructor
  · rintro ⟨c, hrecord, hvirtual⟩
    obtain ⟨tx, hget, rfl⟩ := recordOf_eq_some.mp hrecord
    have htxid := txid_of_get hget
    exact ⟨tx, mem_pending.mpr ⟨htxid.symm ▸ hget, hvirtual⟩, htxid⟩
  · rintro ⟨tx, hmem, rfl⟩
    obtain ⟨hget, hvirtual⟩ := mem_pending.mp hmem
    exact ⟨tx.toChainTx, recordOf_eq_some.mpr ⟨tx, hget, rfl⟩, hvirtual⟩

theorem nodup_pending : ((pendingOf (merged chains)).map (·.txid)).Nodup := by
  have hkeys : (merged chains).map (fun e ↦ e.2.txid) = (merged chains).map Prod.fst := by
    refine List.map_congr_left fun e he ↦ ?_
    exact txid_of_get (JsMap.get_of_mem merges_merged.nodup he)
  have hall : ((merged chains).map (·.2)).map (·.txid) = (merged chains).map Prod.fst := by
    rw [List.map_map]
    exact hkeys
  have hnodup : ((merged chains).map Prod.fst).Nodup := merges_merged.nodup
  rw [← hall] at hnodup
  exact hnodup.sublist (List.filter_sublist.map _)

theorem mem_parents (htx : tx ∈ pendingOf (merged chains)) :
    parent ∈ Kahn.parents (·.txid) (·.spends) (pendingOf (merged chains)) tx ↔
      Spends chains parent tx.txid := by
  obtain ⟨hget, hvirtual⟩ := mem_pending.mp htx
  have hrecord := recordOf_eq_some.mpr ⟨tx, hget, rfl⟩
  rw [Kahn.mem_parents, ← virtual_iff]
  constructor
  · rintro ⟨hspends, hparent⟩
    exact ⟨tx.toChainTx, hrecord, hvirtual, hspends, hparent⟩
  · rintro ⟨c, hc, -, hspends, hparent⟩
    obtain rfl := Option.some.inj (hrecord.symm.trans hc)
    exact ⟨hspends, hparent⟩

theorem edge_iff : Kahn.Edge (·.txid) (·.spends) (pendingOf (merged chains)) parent child ↔
    Spends chains parent child := by
  constructor
  · rintro ⟨tx, htx, rfl, hparent⟩
    exact (mem_parents htx).mp hparent
  · rintro ⟨c, hc, hvirtual, hspends, hparent⟩
    obtain ⟨tx, htx, rfl⟩ := virtual_iff.mp ⟨c, hc, hvirtual⟩
    exact ⟨tx, htx, rfl, (mem_parents htx).mpr ⟨c, hc, hvirtual, hspends, hparent⟩⟩

theorem parents_nodup_iff : (∀ tx ∈ pendingOf (merged chains),
    (Kahn.parents (·.txid) (·.spends) (pendingOf (merged chains)) tx).Nodup) ↔
      ParentsNamedOnce chains := by
  have hcount : ∀ tx ∈ pendingOf (merged chains), ∀ parent, Spends chains parent tx.txid →
      (Kahn.parents (·.txid) (·.spends) (pendingOf (merged chains)) tx).count parent =
        tx.spends.count parent := by
    intro tx htx parent hparent
    refine List.count_filter ?_
    have hmem := (mem_parents htx).mpr hparent
    exact (List.mem_filter.mp hmem).2
  constructor
  · intro h child c hc parent hparent
    obtain ⟨c', hc', hvirtual, hspends, -⟩ := id hparent
    obtain rfl := Option.some.inj (hc.symm.trans hc')
    obtain ⟨tx, hget, rfl⟩ := recordOf_eq_some.mp hc
    obtain rfl := txid_of_get hget
    have htx := mem_pending.mpr ⟨hget, hvirtual⟩
    rw [← hcount tx htx parent hparent]
    exact List.count_eq_one_of_mem (h tx htx) ((mem_parents htx).mpr hparent)
  · intro h tx htx
    have hrecord := recordOf_eq_some.mpr ⟨tx, (mem_pending.mp htx).1, rfl⟩
    rw [List.nodup_iff_count_le_one]
    intro parent
    by_cases hmem : parent ∈ Kahn.parents (·.txid) (·.spends) (pendingOf (merged chains)) tx
    · have hparent := (mem_parents htx).mp hmem
      rw [hcount tx htx parent hparent, h tx.txid tx.toChainTx hrecord parent hparent]
    · rw [List.count_eq_zero_of_not_mem hmem]
      exact Nat.zero_le 1

end Graph

section Order

theorem byLocale_perm (txs : List MergedTx) : (byLocale localeLE txs).Perm txs :=
  List.mergeSort_perm _ _

theorem buildExitDag_ok
    (hperm : (kahnOrder localeLE (pendingOf (merged chains))).Perm (pendingOf (merged chains))) :
    buildExitDag localeLE getTxStatus (answersOf chains) =
      .ok ((kahnOrder localeLE (pendingOf (merged chains))).map (dagNode getTxStatus)) := by
  rw [buildExitDag, mergeChains_answersOf]
  simp [hperm.length_eq, bind, Except.bind, pure, Except.pure]

theorem buildExitDag_error
    (h : ¬(kahnOrder localeLE (pendingOf (merged chains))).Perm (pendingOf (merged chains))) :
    buildExitDag localeLE getTxStatus (answersOf chains) = .error cycleDetected := by
  have hlen : ¬(kahnOrder localeLE (pendingOf (merged chains))).length =
      (pendingOf (merged chains)).length :=
    (Kahn.order_perm_iff byLocale_perm nodup_pending).not.mpr h
  rw [buildExitDag, mergeChains_answersOf]
  simp [hlen, bind, Except.bind, throw, throwThe, MonadExceptOf.throw]

theorem completeDag_map {order : List MergedTx} (hperm : order.Perm (pendingOf (merged chains)))
    (hordered : Kahn.Ordered (·.txid) (·.spends) (pendingOf (merged chains)) order) :
    CompleteDag chains (order.map (dagNode getTxStatus)) := by
  have htxids : (order.map (dagNode getTxStatus)).map (·.txid) = order.map (·.txid) := by
    rw [List.map_map]
    rfl
  refine ⟨fun txid ↦ ?_, ?_, fun before node after heq parent hparent ↦ ?_, fun node hnode ↦ ?_⟩
  · rw [htxids, virtual_iff, List.mem_map]
    exact exists_congr fun tx ↦ and_congr_left fun _ ↦ hperm.mem_iff
  · rw [htxids]
    exact (hperm.map _).nodup_iff.mpr nodup_pending
  · obtain ⟨before', rest, rfl, rfl, hrest⟩ := List.map_eq_append_iff.mp heq
    obtain ⟨tx, after', rfl, rfl, rfl⟩ := List.map_eq_cons_iff.mp hrest
    have htx : tx ∈ pendingOf (merged chains) := hperm.subset (by simp)
    have hmem := hordered before' tx after' rfl parent ((mem_parents htx).mpr hparent)
    rw [List.map_map]
    exact hmem
  · obtain ⟨tx, htx, rfl⟩ := List.mem_map.mp hnode
    have hget := (mem_pending.mp (hperm.subset htx)).1
    have hrecord := merges_merged.found tx.txid tx hget
    have hsorted : (dagNode getTxStatus tx).forVtxos.Perm tx.forVtxos := List.mergeSort_perm _ _
    refine ⟨hsorted.nodup_iff.mpr hrecord.nodup, fun key ↦ ?_⟩
    rw [hsorted.mem_iff, hrecord.forVtxos]
    constructor
    · rintro ⟨r, hr, rfl, htxid⟩
      obtain ⟨⟨vtxo, chain⟩, hchain, hr⟩ := List.mem_flatMap.mp hr
      obtain ⟨c, hc, rfl⟩ := List.mem_map.mp hr
      exact ⟨vtxo, chain, hchain, rfl, List.mem_map.mpr ⟨c, hc, htxid⟩⟩
    · rintro ⟨vtxo, chain, hchain, rfl, htxid⟩
      obtain ⟨c, hc, htxid⟩ := List.mem_map.mp htxid
      exact ⟨(outpointKey vtxo, c), List.mem_flatMap.mpr ⟨(vtxo, chain), hchain,
        List.mem_map.mpr ⟨c, hc, rfl⟩⟩, rfl, htxid⟩

/-- Without a cycle, the order has everything as soon as no parent is named twice. -/
theorem kahnOrder_perm_iff
    (hacyclic : ∀ txid, ¬Relation.TransGen (Spends chains) txid txid) :
    (kahnOrder localeLE (pendingOf (merged chains))).Perm (pendingOf (merged chains)) ↔
      ParentsNamedOnce chains := by
  have hedge : Kahn.Edge (·.txid) (·.spends) (pendingOf (merged chains)) = Spends chains := by
    funext parent child
    exact propext edge_iff
  rw [← parents_nodup_iff]
  exact Kahn.order_perm_of_acyclic byLocale_perm nodup_pending (hedge ▸ hacyclic)

theorem buildExitDag_complete_iff
    (hacyclic : ∀ txid, ¬Relation.TransGen (Spends chains) txid txid) :
    (∃ nodes, buildExitDag localeLE getTxStatus (answersOf chains) = .ok nodes ∧
      CompleteDag chains nodes) ↔ ParentsNamedOnce chains := by
  rw [← @kahnOrder_perm_iff localeLE chains hacyclic]
  by_cases hperm : (kahnOrder localeLE (pendingOf (merged chains))).Perm (pendingOf (merged chains))
  · rw [buildExitDag_ok hperm]
    exact iff_of_true ⟨_, rfl, completeDag_map hperm
      (Kahn.order_ordered byLocale_perm nodup_pending)⟩ hperm
  · rw [buildExitDag_error hperm]
    exact iff_of_false (fun h ↦ nomatch h.choose_spec.1) hperm

end Order

section Sample

theorem acyclic_of_rank (rank : String → ℕ)
    (h : ∀ parent child, Spends chains parent child → rank parent < rank child) (txid : String) :
    ¬Relation.TransGen (Spends chains) txid txid := by
  intro hcycle
  have hlt : ∀ child, Relation.TransGen (Spends chains) txid child → rank txid < rank child := by
    intro child hpath
    induction hpath with
    | single hedge => exact h _ _ hedge
    | tail _ hedge ih => exact ih.trans (h _ _ hedge)
  exact (hlt txid hcycle).false

/-- An output below a transaction that spends outputs of its parent, as often as `spends` says. -/
def dagChains (spends : List String) : List (Outpoint × List ChainTx) :=
  [(⟨"child", 0⟩, [⟨"child", "", .ark, spends⟩, ⟨"parent", "", .tree, ["root"]⟩,
    ⟨"root", "", .commitment, []⟩])]

theorem dagChains_spends {spends : List String} (hspends : ∀ p ∈ spends, p = "parent")
    {parent child : String} (h : Spends (dagChains spends) parent child) :
    parent = "parent" ∧ child = "child" := by
  obtain ⟨c, hc, hvirtual, hparent, c', hc', hvirtual'⟩ := h
  have hmem := List.mem_of_find?_eq_some hc
  have htxid : c.txid = child := by simpa using List.find?_some hc
  have hmem' := List.mem_of_find?_eq_some hc'
  have htxid' : c'.txid = parent := by simpa using List.find?_some hc'
  simp only [dagChains, List.flatMap_cons, List.flatMap_nil, List.append_nil, List.mem_cons,
    List.not_mem_nil, or_false] at hmem hmem'
  rcases hmem with rfl | rfl | rfl
  · exact ⟨hspends parent hparent, htxid.symm⟩
  · obtain rfl := List.mem_singleton.mp hparent
    rcases hmem' with rfl | rfl | rfl
    · exact absurd htxid' (by simp)
    · exact absurd htxid' (by simp)
    · exact nomatch hvirtual'
  · exact nomatch hvirtual

theorem dagChains_acyclic {spends : List String} (hspends : ∀ p ∈ spends, p = "parent")
    (txid : String) : ¬Relation.TransGen (Spends (dagChains spends)) txid txid := by
  refine acyclic_of_rank (fun t ↦ if t = "child" then 1 else 0) (fun parent child h ↦ ?_) txid
  obtain ⟨rfl, rfl⟩ := dagChains_spends hspends h
  decide

theorem dag_of_one_parent :
    (∃ nodes, buildExitDag (fun a b ↦ decide (a ≤ b)) (fun _ ↦ .error "not found")
      (answersOf (dagChains ["parent"])) = .ok nodes ∧
        CompleteDag (dagChains ["parent"]) nodes) ↔ ParentsNamedOnce (dagChains ["parent"]) :=
  buildExitDag_complete_iff (dagChains_acyclic (by simp))

/-- The chain has no cycle and is refused as one that has. -/
theorem two_outputs_refused :
    (∀ txid, ¬Relation.TransGen (Spends (dagChains ["parent", "parent"])) txid txid) ∧
      buildExitDag (fun a b ↦ decide (a ≤ b)) (fun _ ↦ .error "not found")
        (answersOf (dagChains ["parent", "parent"])) = .error cycleDetected := by
  have hspends : ∀ p ∈ ["parent", "parent"], p = "parent" := by simp
  refine ⟨dagChains_acyclic hspends, buildExitDag_error fun hperm ↦ ?_⟩
  have honce := (kahnOrder_perm_iff (dagChains_acyclic hspends)).mp hperm
  have hcount := honce "child" ⟨"child", "", .ark, ["parent", "parent"]⟩ (by decide) "parent"
    ⟨_, rfl, by decide, by simp, _, rfl, by decide⟩
  exact absurd hcount (by decide)

end Sample

end ArkadeSdk.Exit
