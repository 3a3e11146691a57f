import ArkadeSdk.Exit.VirtualTxRepository

/-! Both backends keep the records and the lists of ids that callers rely on. -/

namespace ArkadeSdk.Exit

@[simp] theorem VirtualTx.merge_none (t : VirtualTx) : t.merge none = t := by
  have htype : mergeChainedTxType t.type none = t.type := by
    unfold mergeChainedTxType
    split
    · rfl
    · rename_i h
      exact (not_not.mp h).symm
  simp [merge, htype]

theorem VirtualTx.mergeAll_cons (t : VirtualTx) (txs : List VirtualTx) (txid : String)
    (prev : Option VirtualTx) : mergeAll (t :: txs) txid prev =
      mergeAll txs txid (if t.txid = txid then some (t.merge prev) else prev) := by
  unfold mergeAll
  by_cases h : t.txid = txid
  · rw [List.filter_cons_of_pos (by simpa using h), if_pos h, List.foldl_cons]
  · rw [List.filter_cons_of_neg (by simpa using h), if_neg h]

theorem branchRows_virtualTxid (v : Outpoint) (txids : List String) :
    (branchRows v txids).map (·.virtualTxid) = txids := by
  refine List.ext_getElem (by simp [branchRows]) fun i _ _ ↦ ?_
  simp [branchRows]

theorem branchRows_sorted (v : Outpoint) (txids : List String) :
    (branchRows v txids).Pairwise fun a b ↦ a.position ≤ b.position := by
  refine List.pairwise_iff_getElem.mpr fun i j hi hj hij ↦ ?_
  simp only [branchRows, List.getElem_mapIdx]
  exact Nat.le_of_lt hij

theorem branchRows_insertionSort (v : Outpoint) (txids : List String) :
    (branchRows v txids).insertionSort (fun a b ↦ a.position ≤ b.position) = branchRows v txids :=
  (branchRows_sorted v txids).insertionSort_eq

namespace InMemoryVirtualTxRepository

def entries (s : InMemoryVirtualTxRepository) (v : Outpoint) : List String :=
  (s.rows v).map (·.virtualTxid)

theorem getVirtualTx_upsertVirtualTx (s : InMemoryVirtualTxRepository) (t : VirtualTx)
    (txid : String) : (s.upsertVirtualTx t).getVirtualTx txid =
      if t.txid = txid then some (t.merge (s.getVirtualTx txid)) else s.getVirtualTx txid := by
  unfold upsertVirtualTx getVirtualTx
  split
  · rename_i hget
    dsimp only
    rw [JsMap.get_set]
    split
    · rename_i heq
      rw [← heq, hget, VirtualTx.merge_none]
    · rfl
  · rename_i prev hget
    dsimp only
    rw [JsMap.get_set]
    split
    · rename_i heq
      rw [← heq, hget]
    · rfl

theorem getVirtualTx_upsertVirtualTxs (txs : List VirtualTx) (s : InMemoryVirtualTxRepository)
    (txid : String) : (upsertVirtualTxs txs s).getVirtualTx txid =
      VirtualTx.mergeAll txs txid (s.getVirtualTx txid) := by
  induction txs generalizing s with
  | nil => rfl
  | cons t txs ih =>
    rw [VirtualTx.mergeAll_cons, ← getVirtualTx_upsertVirtualTx]
    exact ih (s.upsertVirtualTx t)

theorem entries_upsertVirtualTxs (txs : List VirtualTx) (s : InMemoryVirtualTxRepository) :
    (upsertVirtualTxs txs s).entries = s.entries := by
  induction txs generalizing s with
  | nil => rfl
  | cons t txs ih =>
    refine (ih (s.upsertVirtualTx t)).trans ?_
    unfold upsertVirtualTx
    split <;> rfl

theorem entries_setBranch (v : Outpoint) (txids : List String) (s : InMemoryVirtualTxRepository)
    (u : Outpoint) : (setBranch v (branchRows v txids) s).entries u =
      if u = v then txids else s.entries u := by
  unfold entries rows setBranch
  rw [JsMap.get_set, branchRows_insertionSort]
  by_cases h : v = u
  · rw [if_pos h, if_pos h.symm]
    exact branchRows_virtualTxid v txids
  · rw [if_neg h, if_neg (Ne.symm h)]

theorem entries_pruneForSpentVtxo (v : Outpoint) (s : InMemoryVirtualTxRepository)
    (u : Outpoint) : (pruneForSpentVtxo v s).entries u = if u = v then [] else s.entries u := by
  unfold entries rows pruneForSpentVtxo
  rw [JsMap.get_erase]
  by_cases h : v = u
  · rw [if_pos h, if_pos h.symm]
    rfl
  · rw [if_neg h, if_neg (Ne.symm h)]

theorem mem_stillReferenced (v : Outpoint) (s : InMemoryVirtualTxRepository) (txid : String) :
    txid ∈ (JsMap.erase v s.branches).flatMap (fun b ↦ b.2.map (·.virtualTxid)) ↔
      ∃ u ≠ v, txid ∈ s.entries u := by
  rw [List.mem_flatMap]
  constructor
  · rintro ⟨⟨u, branch⟩, hmem, htxid⟩
    obtain ⟨hmem, hne⟩ := List.mem_filter.mp hmem
    refine ⟨u, of_decide_eq_true hne, ?_⟩
    unfold entries rows
    rw [JsMap.get_of_mem s.keys_unique hmem]
    exact htxid
  · rintro ⟨u, hne, htxid⟩
    unfold entries rows at htxid
    cases hget : JsMap.get s.branches u with
    | none =>
      rw [hget] at htxid
      cases htxid
    | some branch =>
      rw [hget] at htxid
      exact ⟨(u, branch), List.mem_filter.mpr ⟨JsMap.mem_of_get hget, decide_eq_true hne⟩, htxid⟩

theorem get_eraseAll (kept : List String) (removed : List VtxoBranch)
    (txs : JsMap.Entries String VirtualTx) (txid : String) :
    JsMap.get (removed.foldl (fun txs e ↦
      if e.virtualTxid ∉ kept then JsMap.erase e.virtualTxid txs else txs) txs) txid =
      if txid ∈ removed.map (·.virtualTxid) ∧ txid ∉ kept then none else JsMap.get txs txid := by
  induction removed generalizing txs with
  | nil => simp
  | cons e removed ih =>
    rw [List.foldl_cons, ih, List.map_cons]
    by_cases hkept : e.virtualTxid ∈ kept
    · rw [if_neg (not_not.mpr hkept)]
      by_cases htxid : txid = e.virtualTxid
      · simp [htxid, hkept]
      · simp [htxid]
    · rw [if_pos hkept, JsMap.get_erase]
      by_cases htxid : txid = e.virtualTxid
      · simp [htxid, hkept]
      · simp [htxid, Ne.symm htxid]

theorem getVirtualTx_pruneForSpentVtxo (v : Outpoint) (s : InMemoryVirtualTxRepository)
    (txid : String) : (pruneForSpentVtxo v s).getVirtualTx txid =
      if txid ∈ s.entries v ∧ txid ∉ (JsMap.erase v s.branches).flatMap
        (fun b ↦ b.2.map (·.virtualTxid)) then none else s.getVirtualTx txid :=
  get_eraseAll _ _ _ _

theorem getBranch_eq (s : InMemoryVirtualTxRepository) (v : Outpoint) :
    s.getBranch v = (s.entries v).filterMap s.getVirtualTx := by
  unfold entries
  rw [List.filterMap_map]
  rfl

theorem hasBranch_iff (s : InMemoryVirtualTxRepository) (v : Outpoint) :
    s.hasBranch v = true ↔ s.entries v ≠ [] := by
  unfold hasBranch entries
  rw [decide_eq_true_iff, List.length_pos_iff, ne_eq, ne_eq, List.map_eq_nil_iff]

theorem getVirtualTx_kept {v : Outpoint} {s : InMemoryVirtualTxRepository} {txid : String}
    (h : txid ∈ s.entries v → ∃ u ≠ v, txid ∈ s.entries u) :
    (pruneForSpentVtxo v s).getVirtualTx txid = s.getVirtualTx txid := by
  rw [getVirtualTx_pruneForSpentVtxo]
  exact if_neg fun ⟨hmem, hnot⟩ ↦ hnot ((mem_stillReferenced v s txid).mpr (h hmem))

theorem getVirtualTx_gone {v : Outpoint} {s : InMemoryVirtualTxRepository} {txid : String}
    (h : txid ∈ s.entries v) (hother : ∀ u ≠ v, txid ∉ s.entries u) :
    (pruneForSpentVtxo v s).getVirtualTx txid = none := by
  rw [getVirtualTx_pruneForSpentVtxo]
  refine if_pos ⟨h, fun hmem ↦ ?_⟩
  obtain ⟨u, hne, hmem⟩ := (mem_stillReferenced v s txid).mp hmem
  exact hother u hne hmem

def lawful : Backend.inMemory.repository.Lawful where
  entries := entries
  entries_empty _ := rfl
  getVirtualTx_empty _ := rfl
  getBranch_eq := getBranch_eq
  hasBranch_iff := hasBranch_iff
  getVirtualTx_upsert := getVirtualTx_upsertVirtualTxs
  entries_upsert := entries_upsertVirtualTxs
  getVirtualTx_setBranch _ _ _ := rfl
  entries_setBranch := entries_setBranch
  entries_prune := entries_pruneForSpentVtxo
  getVirtualTx_prune_kept _ _ _ := getVirtualTx_kept
  getVirtualTx_prune_gone _ _ _ := getVirtualTx_gone

end InMemoryVirtualTxRepository

section Table

variable {ρ κ : Type} [DecidableEq κ] {key : ρ → κ} {row : ρ} {table : List ρ}

theorem find_filter_ne {k j : κ} (h : k ≠ j) :
    (table.filter (key · ≠ j)).find? (key · = k) = table.find? (key · = k) := by
  rw [List.find?_filter]
  refine congrArg (fun p ↦ table.find? p) (funext fun x ↦ ?_)
  by_cases hx : key x = k
  · simp [hx, h]
  · simp [hx]

theorem find_insertOrReplace (k : κ) : (insertOrReplace key row table).find? (key · = k) =
    if key row = k then some row else table.find? (key · = k) := by
  unfold insertOrReplace
  rw [List.find?_append]
  by_cases h : key row = k
  · have hnone : (table.filter (key · ≠ key row)).find? (key · = k) = none :=
      List.find?_eq_none.mpr fun x hx heq ↦
        of_decide_eq_true (List.mem_filter.mp hx).2 ((of_decide_eq_true heq).trans h.symm)
    rw [hnone, if_pos h]
    simp [h]
  · rw [find_filter_ne (Ne.symm h), if_neg h]
    simp [h]

theorem insertOrReplace_new (h : ∀ x ∈ table, key x ≠ key row) :
    insertOrReplace key row table = table ++ [row] := by
  unfold insertOrReplace
  rw [List.filter_eq_self.mpr fun x hx ↦ decide_eq_true (h x hx)]

theorem foldl_insertOrReplace_new {rows : List ρ}
    (h : ∀ x ∈ table, ∀ y ∈ rows, key x ≠ key y) (hrows : (rows.map key).Nodup) :
    rows.foldl (fun table y ↦ insertOrReplace key y table) table = table ++ rows := by
  induction rows generalizing table with
  | nil => exact (List.append_nil table).symm
  | cons y rows ih =>
    obtain ⟨hy, hrows⟩ := List.nodup_cons.mp hrows
    rw [List.foldl_cons, insertOrReplace_new fun x hx ↦ h x hx y List.mem_cons_self, ih ?_ hrows,
      List.append_assoc, List.singleton_append]
    intro x hx z hz
    rcases List.mem_append.mp hx with hx | hx
    · exact h x hx z (List.mem_cons_of_mem _ hz)
    · obtain rfl := List.mem_singleton.mp hx
      exact fun heq ↦ hy (heq ▸ List.mem_map_of_mem hz)

theorem filter_eq_find (h : (table.map key).Nodup) (k : κ) :
    table.filter (key · = k) = (table.find? (key · = k)).toList := by
  induction table with
  | nil => rfl
  | cons x table ih =>
    obtain ⟨hx, htable⟩ := List.nodup_cons.mp h
    by_cases hk : key x = k
    · have hnil : table.filter (key · = k) = [] :=
        List.filter_eq_nil_iff.mpr fun y hy heq ↦
          hx (hk ▸ of_decide_eq_true heq ▸ List.mem_map_of_mem hy)
      simp [hk, hnil]
    · simp [hk, ih htable]

theorem find_filter_key {p : κ → Bool} (k : κ) :
    (table.filter fun x ↦ p (key x)).find? (key · = k) =
      if p k then table.find? (key · = k) else none := by
  rw [List.find?_filter]
  by_cases hk : p k = true
  · rw [if_pos hk]
    refine congrArg (fun q ↦ table.find? q) (funext fun x ↦ ?_)
    by_cases hx : key x = k
    · simp [hx, hk]
    · simp [hx]
  · rw [if_neg hk]
    refine List.find?_eq_none.mpr fun x _ heq ↦ ?_
    obtain ⟨hp, hx⟩ := of_decide_eq_true heq
    exact hk (of_decide_eq_true hx ▸ hp)

end Table

theorem branchRows_keys_nodup (v : Outpoint) (txids : List String) :
    ((branchRows v txids).map fun row ↦ (row.vtxo, row.position)).Nodup := by
  refine List.pairwise_iff_getElem.mpr fun i j hi hj hij ↦ ?_
  simp only [branchRows, List.getElem_map, List.getElem_mapIdx]
  exact fun heq ↦ absurd (Prod.mk.inj heq).2 (Nat.ne_of_lt hij)

theorem vtxo_of_mem_branchRows {v : Outpoint} {txids : List String} {b : VtxoBranch}
    (h : b ∈ branchRows v txids) : b.vtxo = v := by
  obtain ⟨i, hi, rfl⟩ := List.mem_mapIdx.mp h
  rfl

namespace SQLiteVirtualTxRepository

def entries (s : SQLiteVirtualTxRepository) (v : Outpoint) : List String :=
  ((s.rows v).insertionSort fun a b ↦ a.position ≤ b.position).map (·.virtualTxid)

theorem mem_entries {s : SQLiteVirtualTxRepository} {v : Outpoint} {txid : String} :
    txid ∈ s.entries v ↔ ∃ b ∈ s.vtxo_branches, b.vtxo = v ∧ b.virtualTxid = txid := by
  unfold entries rows
  simp only [List.mem_map, List.mem_insertionSort, List.mem_filter, decide_eq_true_iff, and_assoc]

theorem getVirtualTx_insertTx (row : VtxRow) (s : SQLiteVirtualTxRepository) (txid : String) :
    (s.insertTx row).getVirtualTx txid =
      if row.txid = txid then some (rowToTx row) else s.getVirtualTx txid := by
  unfold getVirtualTx insertTx
  rw [find_insertOrReplace]
  split <;> rfl

theorem get_prevByTxid {rows : List VtxRow} (h : (rows.map (·.txid)).Nodup)
    (m : JsMap.Entries String VtxRow) (k : String) :
    JsMap.get (rows.foldl (fun m r ↦ JsMap.set r.txid r m) m) k =
      (rows.find? (·.txid = k) <|> JsMap.get m k) := by
  induction rows generalizing m with
  | nil => simp
  | cons r rows ih =>
    obtain ⟨hr, hrows⟩ := List.nodup_cons.mp h
    rw [List.foldl_cons, ih hrows, JsMap.get_set]
    by_cases hk : r.txid = k
    · have hnone : rows.find? (·.txid = k) = none :=
        List.find?_eq_none.mpr fun x hx heq ↦
          hr (List.mem_map.mpr ⟨x, hx, (of_decide_eq_true heq).trans hk.symm⟩)
      simp [hk, hnone]
    · simp [hk]

/-- As long as the batch has seen the rows of what is still to come, it writes what reading before
each record would have written. -/
theorem getVirtualTx_foldl {txs : List VirtualTx} {s : SQLiteVirtualTxRepository}
    {m : JsMap.Entries String VtxRow}
    (h : ∀ k ∈ txs.map (·.txid), JsMap.get m k = s.virtual_txs.find? (·.txid = k))
    (txid : String) : (txs.foldl upsertVirtualTx (s, m)).1.getVirtualTx txid =
      VirtualTx.mergeAll txs txid (s.getVirtualTx txid) := by
  induction txs generalizing s m with
  | nil => rfl
  | cons t txs ih =>
    have hprev := h t.txid List.mem_cons_self
    rw [VirtualTx.mergeAll_cons, List.foldl_cons]
    refine (ih fun k hk ↦ ?_).trans (congrArg _ ?_)
    · dsimp only [insertTx]
      rw [JsMap.get_set, find_insertOrReplace, h k (List.mem_cons_of_mem _ hk)]
    · rw [getVirtualTx_insertTx]
      split
      · rename_i heq
        rw [hprev, ← heq]
        unfold getVirtualTx
        cases s.virtual_txs.find? (·.txid = t.txid) <;> rfl
      · rfl

theorem getVirtualTx_upsertVirtualTxs (txs : List VirtualTx) (s : SQLiteVirtualTxRepository)
    (txid : String) : (upsertVirtualTxs txs s).getVirtualTx txid =
      VirtualTx.mergeAll txs txid (s.getVirtualTx txid) := by
  refine getVirtualTx_foldl (fun k hk ↦ ?_) txid
  rw [get_prevByTxid ((List.filter_sublist.map _).nodup s.txid_unique),
    find_filter_key (p := fun k ↦ k ∈ txs.map (·.txid)), if_pos (decide_eq_true hk)]
  simp

theorem entries_upsertVirtualTxs (txs : List VirtualTx) (s : SQLiteVirtualTxRepository) :
    (upsertVirtualTxs txs s).entries = s.entries := by
  have hbranches : ∀ (acc : SQLiteVirtualTxRepository × JsMap.Entries String VtxRow),
      (txs.foldl upsertVirtualTx acc).1.vtxo_branches = acc.1.vtxo_branches := by
    induction txs with
    | nil => exact fun _ ↦ rfl
    | cons t txs ih => exact fun acc ↦ ih (upsertVirtualTx acc t)
  funext v
  unfold entries rows upsertVirtualTxs
  rw [hbranches]

theorem vtxo_branches_setBranch (v : Outpoint) (txids : List String)
    (s : SQLiteVirtualTxRepository) : (setBranch v (branchRows v txids) s).vtxo_branches =
      s.vtxo_branches.filter (·.vtxo ≠ v) ++ branchRows v txids := by
  refine foldl_insertOrReplace_new (fun x hx y hy heq ↦ ?_) (branchRows_keys_nodup v txids)
  have hne := of_decide_eq_true (List.mem_filter.mp hx).2
  exact hne ((Prod.mk.inj heq).1.trans (vtxo_of_mem_branchRows hy))

theorem filter_filter_ne {rows : List VtxoBranch} {u v : Outpoint} (h : u ≠ v) :
    (rows.filter (·.vtxo ≠ v)).filter (·.vtxo = u) = rows.filter (·.vtxo = u) := by
  rw [List.filter_filter]
  refine List.filter_congr fun b _ ↦ ?_
  by_cases hb : b.vtxo = u
  · simp [hb, h]
  · simp [hb]

theorem filter_filter_self (rows : List VtxoBranch) (v : Outpoint) :
    (rows.filter (·.vtxo ≠ v)).filter (·.vtxo = v) = [] :=
  List.filter_eq_nil_iff.mpr fun _ hb heq ↦
    of_decide_eq_true (List.mem_filter.mp hb).2 (of_decide_eq_true heq)

theorem entries_setBranch (v : Outpoint) (txids : List String) (s : SQLiteVirtualTxRepository)
    (u : Outpoint) : (setBranch v (branchRows v txids) s).entries u =
      if u = v then txids else s.entries u := by
  unfold entries rows
  rw [vtxo_branches_setBranch, List.filter_append]
  split
  · rename_i heq
    have hall : (branchRows v txids).filter (·.vtxo = v) = branchRows v txids :=
      List.filter_eq_self.mpr fun b hb ↦ decide_eq_true (vtxo_of_mem_branchRows hb)
    rw [heq, filter_filter_self, hall, List.nil_append, branchRows_insertionSort,
      branchRows_virtualTxid]
  · rename_i hne
    have hnil : (branchRows v txids).filter (·.vtxo = u) = [] :=
      List.filter_eq_nil_iff.mpr fun b hb heq ↦
        hne ((of_decide_eq_true heq).symm.trans (vtxo_of_mem_branchRows hb))
    rw [filter_filter_ne hne, hnil, List.append_nil]

theorem entries_pruneForSpentVtxo (v : Outpoint) (s : SQLiteVirtualTxRepository)
    (u : Outpoint) : (pruneForSpentVtxo v s).entries u = if u = v then [] else s.entries u := by
  unfold entries rows pruneForSpentVtxo
  split
  · rename_i heq
    rw [heq, filter_filter_self]
    rfl
  · rename_i hne
    rw [filter_filter_ne hne]

theorem getBranch_eq (s : SQLiteVirtualTxRepository) (v : Outpoint) :
    s.getBranch v = (s.entries v).filterMap s.getVirtualTx := by
  unfold getBranch entries
  rw [List.filterMap_map, List.filterMap_eq_flatMap_toList]
  refine List.flatMap_congr fun b _ ↦ ?_
  rw [filter_eq_find s.txid_unique, ← Option.toList_map]
  rfl

theorem hasBranch_iff (s : SQLiteVirtualTxRepository) (v : Outpoint) :
    s.hasBranch v = true ↔ s.entries v ≠ [] := by
  unfold hasBranch entries
  rw [decide_eq_true_iff, List.length_pos_iff, ne_eq, ne_eq, List.map_eq_nil_iff,
    ← List.length_eq_zero_iff, ← List.length_eq_zero_iff, List.length_insertionSort]

theorem orphaned_iff {s : SQLiteVirtualTxRepository} {v : Outpoint} {txid : String} :
    s.orphaned v txid = true ↔ txid ∈ s.entries v ∧ ∀ u ≠ v, txid ∉ s.entries u := by
  unfold orphaned rows
  simp only [Bool.and_eq_true, Bool.not_eq_true', List.any_eq_true, List.any_eq_false,
    List.mem_filter, decide_eq_true_iff, mem_entries, and_assoc]
  refine and_congr_right fun _ ↦ ⟨fun h u hne ⟨b, hb, hu, htxid⟩ ↦ ?_, fun h b ⟨hb, hne⟩ htxid ↦ ?_⟩
  · exact h b ⟨hb, hu ▸ hne⟩ htxid
  · exact h b.vtxo hne ⟨b, hb, rfl, htxid⟩

theorem getVirtualTx_pruneForSpentVtxo (v : Outpoint) (s : SQLiteVirtualTxRepository)
    (txid : String) : (pruneForSpentVtxo v s).getVirtualTx txid =
      if s.orphaned v txid then none else s.getVirtualTx txid := by
  unfold getVirtualTx pruneForSpentVtxo
  dsimp only
  rw [find_filter_key (p := fun k ↦ !s.orphaned v k)]
  cases s.orphaned v txid <;> rfl

theorem getVirtualTx_kept {v : Outpoint} {s : SQLiteVirtualTxRepository} {txid : String}
    (h : txid ∈ s.entries v → ∃ u ≠ v, txid ∈ s.entries u) :
    (pruneForSpentVtxo v s).getVirtualTx txid = s.getVirtualTx txid := by
  rw [getVirtualTx_pruneForSpentVtxo]
  refine if_neg fun horphan ↦ ?_
  obtain ⟨hmem, hnone⟩ := orphaned_iff.mp horphan
  obtain ⟨u, hne, hu⟩ := h hmem
  exact hnone u hne hu

theorem getVirtualTx_gone {v : Outpoint} {s : SQLiteVirtualTxRepository} {txid : String}
    (h : txid ∈ s.entries v) (hother : ∀ u ≠ v, txid ∉ s.entries u) :
    (pruneForSpentVtxo v s).getVirtualTx txid = none := by
  rw [getVirtualTx_pruneForSpentVtxo]
  exact if_pos (orphaned_iff.mpr ⟨h, hother⟩)

def lawful : Backend.sqlite.repository.Lawful where
  entries := entries
  entries_empty _ := rfl
  getVirtualTx_empty _ := rfl
  getBranch_eq := getBranch_eq
  hasBranch_iff := hasBranch_iff
  getVirtualTx_upsert := getVirtualTx_upsertVirtualTxs
  entries_upsert := entries_upsertVirtualTxs
  getVirtualTx_setBranch _ _ _ := rfl
  entries_setBranch := entries_setBranch
  entries_prune := entries_pruneForSpentVtxo
  getVirtualTx_prune_kept _ _ _ := getVirtualTx_kept
  getVirtualTx_prune_gone _ _ _ := getVirtualTx_gone

end SQLiteVirtualTxRepository

def Backend.lawful : (backend : Backend) → backend.repository.Lawful
  | .inMemory => InMemoryVirtualTxRepository.lawful
  | .sqlite => SQLiteVirtualTxRepository.lawful

end ArkadeSdk.Exit
