import ArkadeSdk.Exit.BackendLaws
import ArkadeSdk.Exit.Capture

/-! Which interleavings leave every stored exit branch complete. -/

namespace ArkadeSdk.Exit

open LabelledRun

namespace VirtualTx

/-- A later record of a transaction says at least as much. -/
structure Extends (t t' : VirtualTx) : Prop where
  type : t.type ≠ .unspecified → t'.type ≠ .unspecified
  psbt : t.psbt ≠ none → t'.psbt ≠ none

theorem Extends.refl (t : VirtualTx) : Extends t t := ⟨id, id⟩

theorem Extends.trans {t t' t'' : VirtualTx} (h : Extends t t') (h' : Extends t' t'') :
    Extends t t'' :=
  ⟨fun ht ↦ h'.type (h.type ht), fun ht ↦ h'.psbt (h.psbt ht)⟩

theorem extends_merge_left (t : VirtualTx) (prev : Option VirtualTx) :
    Extends t (t.merge prev) where
  type h := by
    change mergeChainedTxType t.type _ ≠ _
    rw [mergeChainedTxType, if_pos h]
    exact h
  psbt h := by
    obtain ⟨psbt, hpsbt⟩ := Option.ne_none_iff_exists'.mp h
    simp [merge, hpsbt]

theorem extends_merge_right (t prev : VirtualTx) : Extends prev (t.merge (some prev)) where
  type h := by
    change mergeChainedTxType t.type (some prev.type) ≠ _
    unfold mergeChainedTxType
    split
    · assumption
    · exact h
  psbt h := by
    obtain ⟨psbt, hpsbt⟩ := Option.ne_none_iff_exists'.mp h
    cases ht : t.psbt <;> simp [merge, hpsbt, ht]

variable {txs : List VirtualTx} {txid : String} {prev : Option VirtualTx} {t : VirtualTx}

theorem mergeAll_preserves {P : VirtualTx → Prop}
    (hmerge : ∀ x ∈ txs, x.txid = txid → ∀ prev, (∀ t, prev = some t → P t) → P (x.merge prev))
    (hprev : ∀ t, prev = some t → P t) (h : mergeAll txs txid prev = some t) : P t := by
  induction txs generalizing prev with
  | nil => exact hprev t h
  | cons x txs ih =>
    rw [mergeAll_cons] at h
    refine ih (fun y hy ↦ hmerge y (List.mem_cons_of_mem _ hy)) (fun t ht ↦ ?_) h
    split at ht
    · rename_i hx
      obtain rfl := Option.some.inj ht
      exact hmerge x List.mem_cons_self hx prev hprev
    · exact hprev t ht

theorem mergeAll_extends (h : prev = some t) :
    ∃ t', mergeAll txs txid prev = some t' ∧ Extends t t' := by
  induction txs generalizing prev t with
  | nil => exact ⟨t, h, .refl t⟩
  | cons x txs ih =>
    rw [mergeAll_cons, h]
    split
    · obtain ⟨t', ht', hext⟩ := ih rfl
      exact ⟨t', ht', (extends_merge_right x t).trans hext⟩
    · exact ih rfl

theorem mergeAll_mem {x : VirtualTx} (hx : x ∈ txs) (prev : Option VirtualTx) :
    ∃ t', mergeAll txs x.txid prev = some t' ∧ Extends x t' := by
  induction txs generalizing prev with
  | nil => cases hx
  | cons y txs ih =>
    rw [mergeAll_cons]
    rcases List.mem_cons.mp hx with rfl | hx
    · rw [if_pos rfl]
      obtain ⟨t', ht', hext⟩ : ∃ t', mergeAll txs x.txid (some (x.merge prev)) = some t' ∧
          Extends (x.merge prev) t' := mergeAll_extends rfl
      exact ⟨t', ht', (extends_merge_left x prev).trans hext⟩
    · exact ih hx _

theorem mergeAll_of_forall_ne (h : ∀ x ∈ txs, x.txid ≠ txid) (prev : Option VirtualTx) :
    mergeAll txs txid prev = prev := by
  unfold mergeAll
  rw [List.filter_eq_nil_iff.mpr fun x hx heq ↦ h x hx (of_decide_eq_true heq)]
  rfl

end VirtualTx

theorem get_foldl_psbts (net : Resolver) (psbts : List String) (m : JsMap.Entries String String)
    (txid : String) :
    (∀ psbt, JsMap.get (psbts.foldl (fun m psbt ↦ JsMap.set (net.psbtId psbt) psbt m) m) txid =
      some psbt → JsMap.get m txid = some psbt ∨ net.psbtId psbt = txid) ∧
    ((∃ psbt ∈ psbts, net.psbtId psbt = txid) ∨ JsMap.get m txid ≠ none →
      JsMap.get (psbts.foldl (fun m psbt ↦ JsMap.set (net.psbtId psbt) psbt m) m) txid ≠ none) := by
  induction psbts generalizing m with
  | nil => exact ⟨fun _ h ↦ .inl h, fun h ↦ h.resolve_left fun ⟨_, hmem, _⟩ ↦ nomatch hmem⟩
  | cons p psbts ih =>
    obtain ⟨hid, hsome⟩ := ih (JsMap.set (net.psbtId p) p m)
    refine ⟨fun psbt h ↦ ?_, fun h ↦ hsome ?_⟩
    · rcases hid psbt h with h | h
      · rw [JsMap.get_set] at h
        split at h
        · rename_i hp
          obtain rfl := Option.some.inj h
          exact .inr hp
        · exact .inl h
      · exact .inr h
    · rw [JsMap.get_set]
      rcases h with ⟨psbt, hmem, hpsbt⟩ | h
      · rcases List.mem_cons.mp hmem with rfl | hmem
        · exact .inr (by rw [if_pos hpsbt]; exact Option.some_ne_none _)
        · exact .inl ⟨psbt, hmem, hpsbt⟩
      · refine .inr ?_
        split
        · exact Option.some_ne_none _
        · exact h

section Psbts

variable {net : Resolver} {mode : ExitCaptureMode} {ordered : List ChainTx} {psbts : List String}
  {txid : String}

theorem psbtId_of_get {psbt : String}
    (h : JsMap.get (psbtByTxid net mode ordered psbts) txid = some psbt) :
    net.psbtId psbt = txid := by
  unfold psbtByTxid at h
  split at h
  · exact ((get_foldl_psbts net psbts [] txid).1 psbt h).resolve_left (by simp)
  · cases h

theorem get_psbtByTxid (hmode : mode = .full) (htxid : txid ∈ nonCommitment ordered)
    (h : ∃ psbt ∈ psbts, net.psbtId psbt = txid) :
    JsMap.get (psbtByTxid net mode ordered psbts) txid ≠ none := by
  unfold psbtByTxid
  rw [if_pos ⟨hmode, List.length_pos_of_mem htxid⟩]
  exact (get_foldl_psbts net psbts [] txid).2 (.inl h)

end Psbts

section Invariant

variable (net : Resolver) {r : VirtualTxRepository} (law : r.Lawful)

/-- A stored record names its transaction, carries a PSBT of it, and no type that was not
reported. -/
structure Genuine (txid : String) (t : VirtualTx) : Prop where
  id_eq : t.txid = txid
  psbt : ∀ psbt, t.psbt = some psbt → net.psbtId psbt = txid
  reported : t.type ≠ .unspecified →
    ∃ vtxo, ∃ c ∈ net.vtxoChain vtxo, c.txid = txid ∧ c.chainedType = t.type

/-- A transaction of a chain has a record that says what the chain said, with a PSBT when `full`
is so. -/
def Present (s : r.Store) (full : Prop) (c : ChainTx) : Prop :=
  ∃ t, r.getVirtualTx s c.txid = some t ∧ (c.chainedType ≠ .unspecified → t.type ≠ .unspecified) ∧
    (full → c.chainedType ≠ .commitment → t.psbt ≠ none)

def Capture.Working (c : Capture) (ordered : List ChainTx) : Prop :=
  c.phase = .ordered ordered ∨ c.phase = .published ordered

structure Inv (w : World r) : Prop where
  branches : ∀ v, law.entries w.store v = [] ∨
    ∃ ordered, orderAncestryFirst (net.vtxoChain v) = some ordered ∧
      law.entries w.store v = ordered.map (·.txid)
  full : ∀ v ∈ w.fullBranches, ∃ ordered, orderAncestryFirst (net.vtxoChain v) = some ordered ∧
    law.entries w.store v = ordered.map (·.txid)
  stored : ∀ v ordered, orderAncestryFirst (net.vtxoChain v) = some ordered →
    law.entries w.store v = ordered.map (·.txid) →
    ∀ x ∈ ordered, Present w.store (v ∈ w.fullBranches) x
  working : ∀ c ∈ w.captures, ∀ ordered, c.Working ordered →
    orderAncestryFirst (net.vtxoChain c.vtxo) = some ordered
  published : ∀ c ∈ w.captures, ∀ ordered, c.phase = .published ordered →
    ∀ x ∈ ordered, Present w.store (c.mode = .full) x
  genuine : ∀ txid t, r.getVirtualTx w.store txid = some t → Genuine net txid t
  listed : ∀ txid, r.getVirtualTx w.store txid ≠ none →
    (∃ v, txid ∈ law.entries w.store v) ∨
      ∃ c ∈ w.captures, ∃ ordered, c.Working ordered ∧ txid ∈ ordered.map (·.txid)

variable {net law}

theorem Genuine.merge {txid : String} {t : VirtualTx} {prev : Option VirtualTx}
    (h : Genuine net txid t) (hprev : ∀ t', prev = some t' → Genuine net txid t') :
    Genuine net txid (t.merge prev) where
  id_eq := h.id_eq
  psbt psbt hpsbt := by
    cases ht : t.psbt with
    | some p =>
      refine h.psbt psbt (ht.trans ?_)
      simpa [VirtualTx.merge, ht] using hpsbt
    | none =>
      have hbind : prev.bind (·.psbt) = some psbt := by
        simpa [VirtualTx.merge, ht] using hpsbt
      obtain ⟨t', ht', hpsbt'⟩ := Option.bind_eq_some_iff.mp hbind
      exact (hprev t' ht').psbt psbt hpsbt'
  reported htype := by
    change mergeChainedTxType t.type _ ≠ _ at htype
    change ∃ vtxo, ∃ c ∈ _, _ ∧ _ = mergeChainedTxType t.type _
    unfold mergeChainedTxType at htype ⊢
    split at htype
    · rename_i ht
      rw [if_pos ht]
      exact h.reported ht
    · rename_i ht
      rw [if_neg ht]
      cases prev with
      | none => exact absurd rfl htype
      | some t' => exact (hprev t' rfl).reported htype

theorem Present.mono {s : r.Store} {full full' : Prop} {c : ChainTx} (h : Present s full c)
    (himp : full' → full) : Present s full' c := by
  obtain ⟨t, hget, htype, hpsbt⟩ := h
  exact ⟨t, hget, htype, fun hfull ↦ hpsbt (himp hfull)⟩

theorem Present.upsert {s : r.Store} {full : Prop} {c : ChainTx} (law : r.Lawful)
    (h : Present s full c) (txs : List VirtualTx) : Present (r.upsertVirtualTxs txs s) full c := by
  obtain ⟨t, hget, htype, hpsbt⟩ := h
  obtain ⟨t', hget', hext⟩ : ∃ t', VirtualTx.mergeAll txs c.txid _ = some t' ∧ _ :=
    VirtualTx.mergeAll_extends hget
  exact ⟨t', (law.getVirtualTx_upsert txs s c.txid).trans hget', fun hc ↦ hext.type (htype hc),
    fun hfull hc ↦ hext.psbt (hpsbt hfull hc)⟩

theorem Present.congr {s s' : r.Store} {full : Prop} {c : ChainTx} (h : Present s full c)
    (heq : r.getVirtualTx s' c.txid = r.getVirtualTx s c.txid) : Present s' full c := by
  obtain ⟨t, hget, hrest⟩ := h
  exact ⟨t, heq.trans hget, hrest⟩

theorem inv_start : Inv net law (World.start r) where
  branches v := .inl (law.entries_empty v)
  full _ h := nomatch h
  stored v ordered _ heq x hx := by
    rw [show law.entries (World.start r).store v = [] from law.entries_empty v] at heq
    obtain rfl := List.map_eq_nil_iff.mp heq.symm
    cases hx
  working _ h := nomatch h
  published _ h := nomatch h
  genuine txid t h := nomatch (law.getVirtualTx_empty txid).symm.trans h
  listed txid h := absurd (law.getVirtualTx_empty txid) h

theorem Inv.captures {w : World r} (h : Inv net law w) {captures : List Capture}
    (hnew : ∀ c ∈ captures, ∀ ordered, c.Working ordered → c ∈ w.captures ∨
      orderAncestryFirst (net.vtxoChain c.vtxo) = some ordered ∧
        (c.phase = .published ordered → ∀ x ∈ ordered, Present w.store (c.mode = .full) x))
    (hold : ∀ c ∈ w.captures, ∀ ordered, c.Working ordered →
      ∃ c' ∈ captures, c'.Working ordered) :
    Inv net law { w with captures } where
  branches := h.branches
  full := h.full
  stored := h.stored
  working c hc ordered hwork := (hnew c hc ordered hwork).elim
    (fun hc ↦ h.working c hc ordered hwork) (fun hc ↦ hc.1)
  published c hc ordered hphase := (hnew c hc ordered (.inr hphase)).elim
    (fun hc ↦ h.published c hc ordered hphase) (fun hc ↦ hc.2 hphase)
  genuine := h.genuine
  listed txid hget := by
    rcases h.listed txid hget with hv | ⟨c, hc, ordered, hwork, htxid⟩
    · exact .inl hv
    · obtain ⟨c', hc', hwork'⟩ := hold c hc ordered hwork
      exact .inr ⟨c', hc', ordered, hwork', htxid⟩

theorem Inv.upsert {w : World r} (h : Inv net law w) {txs : List VirtualTx} {c : Capture}
    {ordered : List ChainTx} (hc : c ∈ w.captures) (hwork : c.Working ordered)
    (hgenuine : ∀ x ∈ txs, Genuine net x.txid x)
    (hids : ∀ x ∈ txs, x.txid ∈ ordered.map (·.txid)) :
    Inv net law { w with store := r.upsertVirtualTxs txs w.store } := by
  have hentries := law.entries_upsert txs w.store
  have hmerged := law.getVirtualTx_upsert txs w.store
  refine ⟨?_, ?_, ?_, h.working, ?_, ?_, ?_⟩
  · exact fun v ↦ hentries ▸ h.branches v
  · exact fun v hv ↦ hentries ▸ h.full v hv
  · exact fun v ordered horder heq x hx ↦
      (h.stored v ordered horder (hentries ▸ heq) x hx).upsert law txs
  · exact fun c hc ordered hphase x hx ↦ (h.published c hc ordered hphase x hx).upsert law txs
  · intro txid t ht
    rw [hmerged] at ht
    refine VirtualTx.mergeAll_preserves (fun x hx hid prev hprev ↦ ?_) (h.genuine txid) ht
    exact (hid ▸ hgenuine x hx).merge hprev
  · intro txid hget
    rw [hmerged] at hget
    by_cases hex : ∃ x ∈ txs, x.txid = txid
    · obtain ⟨x, hx, rfl⟩ := hex
      exact .inr ⟨c, hc, ordered, hwork, hids x hx⟩
    · push Not at hex
      rw [VirtualTx.mergeAll_of_forall_ne hex] at hget
      rcases h.listed txid hget with ⟨v, hv⟩ | hc
      · exact .inl ⟨v, hentries.symm ▸ hv⟩
      · exact .inr hc

section Captures

variable {captures : List Capture} {i : ℕ} {c c' d : Capture}

theorem mem_eraseIdx_or (h : captures[i]? = some c) (hd : d ∈ captures) :
    d = c ∨ d ∈ captures.eraseIdx i := by
  obtain ⟨j, hj⟩ := List.mem_iff_getElem?.mp hd
  by_cases hij : j = i
  · exact .inl (Option.some.inj (hj.symm.trans (hij ▸ h)))
  · exact .inr (List.mem_eraseIdx_iff_getElem?.mpr ⟨j, hij, hj⟩)

theorem mem_set_or (h : captures[i]? = some c) (hd : d ∈ captures) (c' : Capture) :
    d = c ∨ d ∈ captures.set i c' := by
  obtain ⟨j, hj⟩ := List.mem_iff_getElem?.mp hd
  by_cases hij : j = i
  · exact .inl (Option.some.inj (hj.symm.trans (hij ▸ h)))
  · exact .inr (List.mem_iff_getElem?.mpr ⟨j, (List.getElem?_set_ne (Ne.symm hij)).trans hj⟩)

theorem mem_set_self (h : captures[i]? = some c) (c' : Capture) : c' ∈ captures.set i c' := by
  obtain ⟨hi, _⟩ := List.getElem?_eq_some_iff.mp h
  exact List.mem_set hi c'

end Captures

theorem Capture.not_working_resolving {vtxo : Outpoint} {mode : ExitCaptureMode}
    {ordered : List ChainTx} : ¬Capture.Working ⟨vtxo, mode, .resolving⟩ ordered := by
  rintro (h | h) <;> cases h

theorem Capture.working_ordered {vtxo : Outpoint} {mode : ExitCaptureMode}
    {branch ordered : List ChainTx} (h : Capture.Working ⟨vtxo, mode, .ordered branch⟩ ordered) :
    branch = ordered := by
  rcases h with h | h
  · exact Phase.ordered.inj h
  · cases h

theorem Capture.working_published {vtxo : Outpoint} {mode : ExitCaptureMode}
    {branch ordered : List ChainTx} (h : Capture.Working ⟨vtxo, mode, .published branch⟩ ordered) :
    branch = ordered := by
  rcases h with h | h
  · cases h
  · exact Phase.published.inj h

section Steps

variable {w : World r} {i : ℕ} {vtxo : Outpoint} {mode : ExitCaptureMode} {ordered : List ChainTx}

theorem Inv.begin (h : Inv net law w) (vtxo : Outpoint) (value : ℚ) (mode : ExitCaptureMode)
    (minExitWorthSats : ℚ) : Inv net law (w.begin vtxo value mode minExitWorthSats) := by
  unfold World.begin
  split
  · exact h
  · split
    · exact h
    · refine h.captures (fun c hc ordered hwork ↦ .inl ?_) fun c hc ordered hwork ↦
        ⟨c, List.mem_append_left _ hc, hwork⟩
      rcases List.mem_append.mp hc with hc | hc
      · exact hc
      · obtain rfl := List.mem_singleton.mp hc
        exact absurd hwork Capture.not_working_resolving

theorem Inv.dropResolving (h : Inv net law w)
    (hi : w.captures[i]? = some ⟨vtxo, mode, .resolving⟩) :
    Inv net law { w with captures := w.captures.eraseIdx i } := by
  refine h.captures (fun c hc ordered _ ↦ .inl (List.mem_of_mem_eraseIdx hc))
    fun c hc ordered hwork ↦ ?_
  rcases mem_eraseIdx_or hi hc with rfl | hc
  · exact absurd hwork Capture.not_working_resolving
  · exact ⟨c, hc, hwork⟩

theorem Inv.chainAnswered (h : Inv net law w)
    (hi : w.captures[i]? = some ⟨vtxo, mode, .resolving⟩) :
    Inv net law (w.chainAnswered net i ⟨vtxo, mode, .resolving⟩) := by
  unfold World.chainAnswered
  split
  · exact h.dropResolving hi
  · rename_i ordered horder
    refine h.captures (fun c hc ordered' hwork ↦ ?_) fun c hc ordered' hwork ↦ ?_
    · rcases List.mem_or_eq_of_mem_set hc with hc | rfl
      · exact .inl hc
      · obtain rfl := Capture.working_ordered hwork
        exact .inr ⟨horder, nofun⟩
    · rcases mem_set_or hi hc ⟨vtxo, mode, .ordered ordered⟩ with rfl | hc
      · exact absurd hwork Capture.not_working_resolving
      · exact ⟨c, hc, hwork⟩

theorem Inv.readThrough (h : Inv net law w) {fresh : List String}
    (hi : w.captures[i]? = some ⟨vtxo, mode, .ordered ordered⟩)
    (hfresh : ∀ psbt ∈ fresh, net.psbtId psbt ∈ nonCommitment ordered) :
    Inv net law { w with store := r.upsertVirtualTxs (readThroughTxs net fresh) w.store } := by
  refine h.upsert (List.mem_of_getElem? hi) (.inl rfl) (fun x hx ↦ ?_) fun x hx ↦ ?_
  · obtain ⟨psbt, _, rfl⟩ := List.mem_map.mp hx
    exact ⟨rfl, fun p hp ↦ by rw [← Option.some.inj hp], fun hne ↦ absurd rfl hne⟩
  · obtain ⟨psbt, hpsbt, rfl⟩ := List.mem_map.mp hx
    obtain ⟨c, hc, hid⟩ := List.mem_map.mp (hfresh psbt hpsbt)
    exact List.mem_map.mpr ⟨c, List.mem_of_mem_filter hc, hid⟩

theorem genuine_virtualTxs {psbts : List String} {x : VirtualTx}
    (horder : orderAncestryFirst (net.vtxoChain vtxo) = some ordered)
    (hx : x ∈ virtualTxs (psbtByTxid net mode ordered psbts) ordered) : Genuine net x.txid x := by
  obtain ⟨c, hc, rfl⟩ := List.mem_map.mp hx
  exact ⟨rfl, fun _ hpsbt ↦ psbtId_of_get hpsbt,
    fun _ ↦ ⟨vtxo, c, (orderAncestryFirst_perm horder).mem_iff.mp hc, rfl, rfl⟩⟩

theorem present_upsert (law : r.Lawful) {s : r.Store} {psbts : List String} {x : ChainTx}
    (hx : x ∈ ordered) (hpsbts : mode = .full → ∀ txid ∈ nonCommitment ordered,
      ∃ psbt ∈ psbts, net.psbtId psbt = txid) :
    Present (r.upsertVirtualTxs (virtualTxs (psbtByTxid net mode ordered psbts) ordered) s)
      (mode = .full) x := by
  obtain ⟨t, ht, hext⟩ := VirtualTx.mergeAll_mem
    (List.mem_map_of_mem hx : _ ∈ virtualTxs (psbtByTxid net mode ordered psbts) ordered)
    (r.getVirtualTx s x.txid)
  refine ⟨t, (law.getVirtualTx_upsert _ s x.txid).trans ht, hext.type, fun hmode hc ↦
    hext.psbt ?_⟩
  have hmem : x.txid ∈ nonCommitment ordered :=
    List.mem_map.mpr ⟨x, List.mem_filter.mpr ⟨hx, decide_eq_true hc⟩, rfl⟩
  exact get_psbtByTxid hmode hmem (hpsbts hmode x.txid hmem)

theorem Inv.published_step (h : Inv net law w) {psbts : List String}
    (hi : w.captures[i]? = some ⟨vtxo, mode, .ordered ordered⟩)
    (hpsbts : mode = .full → ∀ txid ∈ nonCommitment ordered,
      ∃ psbt ∈ psbts, net.psbtId psbt = txid) :
    Inv net law (w.published net i ⟨vtxo, mode, .ordered ordered⟩ ordered psbts) := by
  have hc := List.mem_of_getElem? hi
  have horder := h.working _ hc ordered (.inl rfl)
  have hwritten : Inv net law { w with
      store := r.upsertVirtualTxs (virtualTxs (psbtByTxid net mode ordered psbts) ordered)
        w.store } :=
    h.upsert hc (.inl rfl) (fun x hx ↦ genuine_virtualTxs horder hx) fun x hx ↦ by
      obtain ⟨c, hc, rfl⟩ := List.mem_map.mp hx
      exact List.mem_map_of_mem hc
  refine hwritten.captures (fun c hc ordered' hwork ↦ ?_) fun c hc ordered' hwork ↦ ?_
  · rcases List.mem_or_eq_of_mem_set hc with hc | rfl
    · exact .inl hc
    · obtain rfl := Capture.working_published hwork
      exact .inr ⟨horder, fun _ x hx ↦ present_upsert law hx hpsbts⟩
  · rcases mem_set_or hi hc ⟨vtxo, mode, .published ordered⟩ with rfl | hc
    · obtain rfl := Capture.working_ordered hwork
      exact ⟨_, mem_set_self hi _, .inr rfl⟩
    · exact ⟨c, hc, hwork⟩

theorem Inv.finished (h : Inv net law w)
    (hi : w.captures[i]? = some ⟨vtxo, mode, .published ordered⟩) :
    Inv net law (w.finished i ⟨vtxo, mode, .published ordered⟩ ordered) := by
  have hc := List.mem_of_getElem? hi
  have horder := h.working _ hc ordered (.inr rfl)
  have hentries : ∀ u, law.entries (w.finished i ⟨vtxo, mode, .published ordered⟩ ordered).store u =
      if u = vtxo then ordered.map (·.txid) else law.entries w.store u :=
    law.entries_setBranch vtxo (ordered.map ChainTx.txid) w.store
  have hget : ∀ txid,
      r.getVirtualTx (w.finished i ⟨vtxo, mode, .published ordered⟩ ordered).store txid =
        r.getVirtualTx w.store txid :=
    congrFun (law.getVirtualTx_setBranch vtxo _ w.store)
  have hfull : ∀ u, u ∈ (w.finished i ⟨vtxo, mode, .published ordered⟩ ordered).fullBranches →
      u = vtxo ∧ mode = .full ∨ u ∈ w.fullBranches := by
    intro u hu
    unfold World.finished at hu
    dsimp only at hu
    split at hu
    · rename_i hmode
      exact (List.mem_cons.mp hu).imp_left fun heq ↦ ⟨heq, hmode⟩
    · exact .inr hu
  refine ⟨fun u ↦ ?_, fun u hu ↦ ?_, fun u ordered' horder' heq x hx ↦ ?_, ?_, ?_, ?_, ?_⟩
  · rw [hentries]
    split
    · rename_i heq
      exact .inr ⟨ordered, heq ▸ horder, rfl⟩
    · exact h.branches u
  · rw [hentries]
    split
    · rename_i heq
      exact ⟨ordered, heq ▸ horder, rfl⟩
    · rename_i hne
      exact h.full u ((hfull u hu).resolve_left fun heq ↦ hne heq.1)
  · refine Present.congr ?_ (hget x.txid)
    by_cases hu : u ∈ w.fullBranches
    · -- an earlier full capture has left the same branch and its PSBTs
      obtain ⟨before, hbefore, hstored⟩ := h.full u hu
      obtain rfl := Option.some.inj (hbefore.symm.trans horder')
      exact (h.stored u before hbefore hstored x hx).mono fun _ ↦ hu
    · rw [hentries] at heq
      split at heq
      · rename_i hv
        obtain rfl := Option.some.inj (horder.symm.trans (hv ▸ horder'))
        exact (h.published _ hc ordered rfl x hx).mono fun hfull' ↦
          ((hfull u hfull').resolve_right hu).2
      · exact (h.stored u ordered' horder' heq x hx).mono fun hfull' ↦
          (hfull u hfull').resolve_left fun hv ↦ by rename_i hne; exact hne hv.1
  · exact fun c hc ↦ h.working c (List.mem_of_mem_eraseIdx hc)
  · exact fun c hc ordered' hphase x hx ↦
      (h.published c (List.mem_of_mem_eraseIdx hc) ordered' hphase x hx).congr (hget x.txid)
  · exact fun txid t ht ↦ h.genuine txid t ((hget txid).symm.trans ht)
  · intro txid hsome
    rw [hget] at hsome
    rcases h.listed txid hsome with ⟨u, hu⟩ | ⟨c, hc, ordered', hwork, htxid⟩
    · refine .inl ⟨u, ?_⟩
      rw [hentries]
      split
      · rename_i heq
        rcases h.branches u with hnil | ⟨before, hbefore, hstored⟩
        · rw [hnil] at hu
          cases hu
        · obtain rfl := Option.some.inj ((heq ▸ hbefore).symm.trans horder)
          exact hstored ▸ hu
      · exact hu
    · rcases mem_eraseIdx_or hi hc with rfl | hc
      · obtain rfl := Capture.working_published hwork
        exact .inl ⟨vtxo, by rw [hentries, if_pos rfl]; exact htxid⟩
      · exact .inr ⟨c, hc, ordered', hwork, htxid⟩

/-- Nothing that the branches of `ordered` list is without a record. -/
theorem filterMap_records {R : ChainTx → VirtualTx → Prop} {get : String → Option VirtualTx}
    (h : ∀ x ∈ ordered, ∃ t, get x.txid = some t ∧ R x t) :
    List.Forall₂ R ordered ((ordered.map (·.txid)).filterMap get) := by
  induction ordered with
  | nil => exact .nil
  | cons x ordered ih =>
    obtain ⟨t, ht, hR⟩ := h x List.mem_cons_self
    rw [List.map_cons, List.filterMap_cons_some ht]
    exact .cons hR (ih fun y hy ↦ h y (List.mem_cons_of_mem _ hy))

theorem Inv.records (h : Inv net law w) {full : Prop} {x : ChainTx}
    (hchain : ∃ v, x ∈ net.vtxoChain v) (hx : Present w.store full x) :
    ∃ t, r.getVirtualTx w.store x.txid = some t ∧ Records net full x t := by
  obtain ⟨t, ht, htype, hpsbt⟩ := hx
  have hgenuine := h.genuine x.txid t ht
  refine ⟨t, ht, hgenuine.id_eq, htype, ?_, fun hfull hc ↦ ?_⟩
  · by_cases hunspecified : t.type = .unspecified
    · obtain ⟨v, hv⟩ := hchain
      have hreported : x.chainedType = .unspecified :=
        not_not.mp fun hne ↦ htype hne hunspecified
      exact ⟨v, x, hv, rfl, hreported.trans hunspecified.symm⟩
    · exact hgenuine.reported hunspecified
  · obtain ⟨psbt, hsome⟩ := Option.ne_none_iff_exists'.mp (hpsbt hfull hc)
    exact ⟨psbt, hsome, hgenuine.psbt psbt hsome⟩

theorem Inv.forall₂_getBranch (h : Inv net law w) {v : Outpoint}
    (horder : orderAncestryFirst (net.vtxoChain v) = some ordered)
    (hstored : law.entries w.store v = ordered.map (·.txid)) :
    List.Forall₂ (Records net (v ∈ w.fullBranches)) ordered (r.getBranch w.store v) := by
  rw [law.getBranch_eq, hstored]
  exact filterMap_records fun x hx ↦
    h.records ⟨v, (orderAncestryFirst_perm horder).mem_iff.mp hx⟩
      (h.stored v ordered horder hstored x hx)

theorem map_txid_of_records {full : Prop} {ts : List VirtualTx}
    (h : List.Forall₂ (Records net full) ordered ts) : ts.map (·.txid) = ordered.map (·.txid) := by
  induction h with
  | nil => rfl
  | cons hrec _ ih => rw [List.map_cons, List.map_cons, hrec.txid, ih]

theorem Inv.references_iff (h : Inv net law w) {v : Outpoint} {txid : String} :
    References w v txid ↔ txid ∈ law.entries w.store v := by
  unfold References
  rcases h.branches v with hnil | ⟨ordered, horder, hstored⟩
  · rw [law.getBranch_eq, hnil]
    rfl
  · rw [map_txid_of_records (h.forall₂_getBranch horder hstored), hstored]

theorem Inv.pruned (h : Inv net law w) (hsafe : Safe net w (.prune vtxo)) :
    Inv net law (w.pruned vtxo) := by
  have hentries : ∀ u, law.entries (w.pruned vtxo).store u =
      if u = vtxo then [] else law.entries w.store u := law.entries_prune vtxo w.store
  have hkept : ∀ txid, (txid ∈ law.entries w.store vtxo →
      ∃ u ≠ vtxo, txid ∈ law.entries w.store u) →
      r.getVirtualTx (w.pruned vtxo).store txid = r.getVirtualTx w.store txid :=
    law.getVirtualTx_prune_kept vtxo w.store
  have hfull : ∀ u ∈ (w.pruned vtxo).fullBranches, u ∈ w.fullBranches ∧ u ≠ vtxo :=
    fun u hu ↦ (List.mem_filter.mp hu).imp_right of_decide_eq_true
  refine ⟨fun u ↦ ?_, fun u hu ↦ ?_, fun u ordered' horder' heq x hx ↦ ?_, h.working, ?_, ?_, ?_⟩
  · rw [hentries]
    split
    · exact .inl rfl
    · exact h.branches u
  · rw [hentries, if_neg (hfull u hu).2]
    exact h.full u (hfull u hu).1
  · rw [hentries] at heq
    split at heq
    · obtain rfl := List.map_eq_nil_iff.mp heq.symm
      cases hx
    · rename_i hne
      have hx' := (h.stored u ordered' horder' heq x hx).mono fun hu ↦ (hfull u hu).1
      exact hx'.congr (hkept x.txid fun _ ↦ ⟨u, hne, heq ▸ List.mem_map_of_mem hx⟩)
  · intro c hc ordered' hphase x hx
    refine (h.published c hc ordered' hphase x hx).congr (hkept x.txid fun hmem ↦ ?_)
    obtain ⟨u, hne, hu⟩ := hsafe c hc ordered' hphase x hx (h.references_iff.mpr hmem)
    exact ⟨u, hne, h.references_iff.mp hu⟩
  · intro txid t ht
    by_cases hgone : txid ∈ law.entries w.store vtxo ∧
        ∀ u ≠ vtxo, txid ∉ law.entries w.store u
    · rw [show r.getVirtualTx (w.pruned vtxo).store txid = none from
        law.getVirtualTx_prune_gone vtxo w.store txid hgone.1 hgone.2] at ht
      cases ht
    · push Not at hgone
      exact h.genuine txid t ((hkept txid hgone).symm.trans ht)
  · intro txid hsome
    by_cases hgone : txid ∈ law.entries w.store vtxo ∧
        ∀ u ≠ vtxo, txid ∉ law.entries w.store u
    · exact absurd (law.getVirtualTx_prune_gone vtxo w.store txid hgone.1 hgone.2) hsome
    · push Not at hgone
      rw [hkept txid hgone] at hsome
      refine (h.listed txid hsome).imp_left fun ⟨u, hu⟩ ↦ ?_
      by_cases heq : u = vtxo
      · obtain ⟨u', hne, hu'⟩ := hgone (heq ▸ hu)
        exact ⟨u', by rw [hentries, if_neg hne]; exact hu'⟩
      · exact ⟨u, by rw [hentries, if_neg heq]; exact hu⟩

end Steps

theorem inv_step {w w' : World r} {a : Action} (h : Inv net law w) (hsafe : Safe net w a)
    (hstep : step net w a = some w') : Inv net law w' := by
  cases a with
  | capture vtxo value mode minExitWorthSats =>
    obtain rfl := Option.some.inj hstep
    exact h.begin vtxo value mode minExitWorthSats
  | chainFails i =>
    dsimp only [step] at hstep
    split at hstep
    · rename_i hi
      obtain rfl := Option.some.inj hstep
      exact h.dropResolving hi
    · cases hstep
  | chainAnswers i =>
    dsimp only [step] at hstep
    split at hstep
    · rename_i hi
      obtain rfl := Option.some.inj hstep
      exact h.chainAnswered hi
    · cases hstep
  | readThrough i fresh =>
    dsimp only [step] at hstep
    split at hstep
    · rename_i hi
      split at hstep
      · rename_i hall
        obtain rfl := Option.some.inj hstep
        exact h.readThrough hi fun psbt hpsbt ↦
          of_decide_eq_true (List.all_eq_true.mp hall psbt hpsbt)
      · cases hstep
    · cases hstep
  | upsert i psbts =>
    dsimp only [step] at hstep
    split at hstep
    · rename_i vtxo mode ordered hi
      obtain rfl := Option.some.inj hstep
      exact h.published_step hi fun hmode ↦ hsafe _ ordered hi hmode rfl
    · cases hstep
  | setBranch i =>
    dsimp only [step] at hstep
    split at hstep
    · rename_i hi
      obtain rfl := Option.some.inj hstep
      exact h.finished hi
    · cases hstep
  | prune vtxo =>
    obtain rfl := Option.some.inj hstep
    exact h.pruned hsafe

theorem Inv.exitDataKept {w : World r} (h : Inv net law w) : ExitDataKept net w where
  complete vtxo hbranch := by
    rcases h.branches vtxo with hnil | ⟨ordered, horder, hstored⟩
    · exact absurd hnil ((law.hasBranch_iff w.store vtxo).mp hbranch)
    · exact ⟨ordered, orderAncestryFirst_perm horder, orderAncestryFirst_ancestorsFirst horder,
        h.forall₂_getBranch horder hstored⟩
  needed c hc ordered hphase x hx :=
    h.records ⟨c.vtxo, (orderAncestryFirst_perm (h.working c hc ordered (.inr hphase))).mem_iff.mp
      hx⟩ (h.published c hc ordered hphase x hx)
  pruned vtxo other hne txid href := law.getVirtualTx_prune_kept vtxo w.store txid fun _ ↦
    ⟨other, hne, h.references_iff.mp href⟩
  collected txid hget := by
    rcases h.listed txid hget with ⟨v, hv⟩ | ⟨c, hc, ordered, hwork, htxid⟩
    · exact .inl ⟨v, h.references_iff.mpr hv⟩
    · exact .inr ⟨c, hc,
        ((orderAncestryFirst_perm (h.working c hc ordered hwork)).map _).mem_iff.mp htxid⟩

end Invariant

/-- Runs without a prune between the two writes of a capture that loses by it, and without a
missing PSBT, keep every stored branch complete. -/
theorem exitData_kept (backend : Backend) (net : Resolver) {w : World backend.repository}
    (h : Run (step net) (Safe net) (World.start backend.repository) w) : ExitDataKept net w :=
  (h.invariant (P := Inv net backend.lawful) (fun _ _ _ hinv hsafe hstep ↦
    inv_step hinv hsafe hstep) inv_start).exitDataKept

section Sample

/-- Prunes while no capture stands between its writes are safe. -/
def checkSafe {r : VirtualTxRepository} (net : Resolver) (w : World r) : Action → Bool
  | .prune _ => w.captures.all fun c ↦ match c.phase with
    | .published _ => false
    | _ => true
  | .upsert i psbts => match w.captures[i]? with
    | some ⟨_, .full, .ordered ordered⟩ =>
      (nonCommitment ordered).all fun txid ↦ psbts.any (net.psbtId · = txid)
    | _ => true
  | _ => true

theorem safe_of_check {r : VirtualTxRepository} {net : Resolver} (w : World r) (a : Action)
    (h : checkSafe net w a = true) : Safe net w a := by
  cases a with
  | prune vtxo =>
    intro c hc ordered hphase
    have := List.all_eq_true.mp h c hc
    rw [hphase] at this
    cases this
  | upsert i psbts =>
    rintro ⟨vtxo, mode, phase⟩ ordered hi rfl rfl txid htxid
    dsimp only [checkSafe] at h
    rw [hi] at h
    obtain ⟨psbt, hmem, hpsbt⟩ := List.any_eq_true.mp (List.all_eq_true.mp h txid htxid)
    exact ⟨psbt, hmem, of_decide_eq_true hpsbt⟩
  | _ => trivial

/-- The second output is captured while the first is pruned, and keeps the shared tree. -/
def gentleRun : List Action :=
  [.capture ⟨"a", 0⟩ 5000 .full 1000, .chainAnswers 0, .upsert 0 ["tree", "a"], .setBranch 0,
    .capture ⟨"b", 0⟩ 5000 .full 1000, .chainAnswers 0, .prune ⟨"a", 0⟩,
    .upsert 0 ["tree", "b"], .setBranch 0]

theorem exitData_kept_sample : ∃ w,
    exec (step sampleResolver) (World.start Backend.sqlite.repository) gentleRun = some w ∧
      Backend.sqlite.repository.hasBranch w.store ⟨"b", 0⟩ = true ∧
      ExitDataKept sampleResolver w := by
  refine ⟨_, rfl, rfl, exitData_kept .sqlite sampleResolver ?_⟩
  exact run_of_exec (rfl : exec _ _ gentleRun = some _) (along_of_check safe_of_check rfl)

end Sample

end ArkadeSdk.Exit
