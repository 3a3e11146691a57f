import ArkadeSdk.Wallet.PendingTx

namespace ArkadeSdk.PendingTx

open LabelledRun

/-- Not finalized, and accepted by the server or still able to be: its submission is on its way,
or goes out next. -/
def Outstanding (s : State) (arkTxid : Txid) : Prop :=
  arkTxid ∉ s.finalized ∧ (arkTxid ∈ s.requests ∨ arkTxid ∈ s.accepted ∨
    ∃ tx, s.send = some (.marked arkTxid tx))

/-- Nothing is outstanding but what the writer saw through itself: the transaction of the send, or
the ones that the pass found. -/
def Alone (s : State) : Owner → Prop
  | .send => ∀ arkTxid, Outstanding s arkTxid → s.send = some (.clearing arkTxid)
  | .pass k => ∀ arkTxid, Outstanding s arkTxid → ∃ finalized pending,
      s.passes[k]? = some (.clearing finalized pending) ∧ arkTxid ∈ pending

def Condition (s : State) : Input → Prop
  | .writeLands => ∀ w rest, s.writes = w :: rest → w.value = false → Alone s w.owner
  | _ => True

def expected : Option Send → List Write
  | some (.marking _ _) => [⟨.send, true⟩]
  | some (.clearing _) => [⟨.send, false⟩]
  | _ => []

/-- A batch has finalized a part of what it found, in the same order. -/
def Batch.Kept (done : List Txid) (batch : Batch) : Prop :=
  (∀ arkTxid ∈ batch.finalized, arkTxid ∈ done) ∧
    match batch.work with
    | .signing arkTxid _ | .finalizing arkTxid _ =>
      ∃ earlier, batch.pending = earlier ++ [arkTxid] ∧ batch.finalized.Sublist earlier
    | _ => batch.finalized.Sublist batch.pending

def Pass.Kept (done : List Txid) : Pass → Prop
  | .running _ batches => ∀ batch ∈ batches, batch.Kept done
  | .clearing _ pending => ∀ arkTxid ∈ pending, arkTxid ∈ done
  | _ => True

structure Inv (s : State) : Prop where
  flagged : ∀ arkTxid, Outstanding s arkTxid → s.hasPendingTx = true
  queued : s.writes.filter (·.owner = .send) = expected s.send
  ended : ∀ arkTxid, s.send = some (.clearing arkTxid) → arkTxid ∈ s.finalized
  passes : ∀ pass ∈ s.passes, pass.Kept s.finalized

theorem Batch.Kept.sublist {done : List Txid} {batch : Batch} (h : batch.Kept done) :
    batch.finalized.Sublist batch.pending := by
  obtain ⟨-, h⟩ := h
  split at h
  · obtain ⟨earlier, hpending, hsub⟩ := h
    rw [hpending]
    exact hsub.trans (List.sublist_append_left _ _)
  · obtain ⟨earlier, hpending, hsub⟩ := h
    rw [hpending]
    exact hsub.trans (List.sublist_append_left _ _)
  · exact h

theorem Batch.Kept.mono {done done' : List Txid} {batch : Batch} (h : batch.Kept done)
    (hdone : done ⊆ done') : batch.Kept done' :=
  ⟨fun arkTxid ha ↦ hdone (h.1 arkTxid ha), h.2⟩

theorem Pass.Kept.mono {done done' : List Txid} {pass : Pass} (h : pass.Kept done)
    (hdone : done ⊆ done') : pass.Kept done' := by
  cases pass with
  | running seen batches => exact fun batch hb ↦ (h batch hb).mono hdone
  | clearing finalized pending => exact fun arkTxid ha ↦ hdone (h arkTxid ha)
  | reading => trivial
  | gathering => trivial
  | done => trivial

theorem Batch.next_kept {done : List Txid} {batch : Batch} (seen rest : List Txid)
    (hdone : ∀ arkTxid ∈ batch.finalized, arkTxid ∈ done)
    (hsub : batch.finalized.Sublist batch.pending) : (batch.next seen rest).2.Kept done := by
  induction rest with
  | nil => exact ⟨hdone, hsub⟩
  | cons arkTxid rest ih =>
    unfold Batch.next
    split
    · exact ih
    · exact ⟨hdone, batch.pending, rfl, hsub⟩

theorem Pass.turn_kept {done : List Txid} {f : List Txid → Batch → Option (List Txid × Batch)}
    {b : ℕ} {pass pass' : Pass} (hpass : pass.Kept done) (h : pass.turn f b = some pass')
    (hf : ∀ seen batch seen' batch', batch.Kept done → f seen batch = some (seen', batch') →
      batch'.Kept done) : pass'.Kept done := by
  cases pass with
  | running seen batches =>
    obtain ⟨batch, hbatch, h⟩ := Option.bind_eq_some_iff.mp h
    obtain ⟨⟨seen', batch'⟩, hturn, h⟩ := Option.bind_eq_some_iff.mp h
    cases h
    intro other hother
    rcases List.mem_or_eq_of_mem_set hother with hold | rfl
    · exact hpass other hold
    · exact hf _ _ _ _ (hpass batch (List.mem_of_getElem? hbatch)) hturn
  | reading => cases h
  | gathering => cases h
  | clearing finalized pending => cases h
  | done => cases h

theorem State.onPass_eq {s t : State} {k : ℕ} {f : Pass → Option Pass}
    (h : s.onPass k f = some t) : ∃ pass pass', pass ∈ s.passes ∧ f pass = some pass' ∧
      t = { s with passes := s.passes.set k pass' } := by
  obtain ⟨pass, hpass, h⟩ := Option.bind_eq_some_iff.mp h
  obtain ⟨pass', hf, h⟩ := Option.bind_eq_some_iff.mp h
  cases h
  exact ⟨pass, pass', List.mem_of_getElem? hpass, hf, rfl⟩

theorem Inv.onPass {s t : State} {k : ℕ} {f : Pass → Option Pass} (h : Inv s)
    (ht : s.onPass k f = some t)
    (hf : ∀ pass pass', pass.Kept s.finalized → f pass = some pass' → pass'.Kept s.finalized) :
    Inv t := by
  obtain ⟨pass, pass', hpass, hstep, rfl⟩ := State.onPass_eq ht
  refine { h with passes := ?_ }
  intro other hother
  rcases List.mem_or_eq_of_mem_set hother with hold | rfl
  · exact h.passes other hold
  · exact hf pass other (h.passes pass hpass) hstep

theorem Inv.onBatch {s t : State} {k b : ℕ} {f : List Txid → Batch → Option (List Txid × Batch)}
    (h : Inv s) (ht : s.onPass k (Pass.turn f b) = some t)
    (hf : ∀ seen batch seen' batch', batch.Kept s.finalized → f seen batch = some (seen', batch') →
      batch'.Kept s.finalized) : Inv t :=
  h.onPass ht fun _ _ hpass hturn ↦ Pass.turn_kept hpass hturn hf

theorem flatMap_sublist {done : List Txid} {batches : List Batch}
    (h : ∀ batch ∈ batches, batch.Kept done) :
    (batches.flatMap (·.finalized)).Sublist (batches.flatMap (·.pending)) := by
  induction batches with
  | nil => exact .slnil
  | cons batch batches ih =>
    obtain ⟨hbatch, hrest⟩ := List.forall_mem_cons.mp h
    exact hbatch.sublist.append (ih hrest)

theorem all_finalized {done : List Txid} {batches : List Batch}
    (h : ∀ batch ∈ batches, batch.Kept done)
    (hlength : (batches.flatMap (·.finalized)).length = (batches.flatMap (·.pending)).length) :
    ∀ arkTxid ∈ batches.flatMap (·.pending), arkTxid ∈ done := by
  rw [← (flatMap_sublist h).eq_of_length hlength]
  intro arkTxid ha
  obtain ⟨batch, hbatch, ha⟩ := List.mem_flatMap.mp ha
  exact (h batch hbatch).1 arkTxid ha

theorem Inv.of_subset {s t : State} (h : Inv s) (hflag : t.hasPendingTx = s.hasPendingTx)
    (hout : ∀ arkTxid, Outstanding t arkTxid → Outstanding s arkTxid)
    (hqueued : t.writes.filter (·.owner = .send) = expected t.send)
    (hended : ∀ arkTxid, t.send = some (.clearing arkTxid) → arkTxid ∈ t.finalized)
    (hpasses : ∀ pass ∈ t.passes, pass.Kept t.finalized) : Inv t where
  flagged arkTxid ha := by
    rw [hflag]
    exact h.flagged arkTxid (hout arkTxid ha)
  queued := hqueued
  ended := hended
  passes := hpasses

theorem Inv.alone {s : State} {owner : Owner} (h : Inv s) (halone : Alone s owner) (arkTxid : Txid) :
    ¬Outstanding s arkTxid := by
  intro hout
  cases owner with
  | send => exact hout.1 (h.ended arkTxid (halone arkTxid hout))
  | pass k =>
    obtain ⟨finalized, pending, hpass, ha⟩ := halone arkTxid hout
    exact hout.1 (h.passes _ (List.mem_of_getElem? hpass) arkTxid ha)

/-- The send waits for no write of its own, and has marked nothing. -/
structure Idle (send : Option Send) : Prop where
  expected : expected send = []
  clearing : ∀ arkTxid, send ≠ some (.clearing arkTxid)
  marked : ∀ arkTxid tx, send ≠ some (.marked arkTxid tx)

/-- The send moves between two places where it waits for no write of its own. -/
theorem Inv.move {s : State} {send : Option Send} (h : Inv s)
    (hfrom : PendingTx.expected s.send = []) (hto : Idle send) : Inv { s with send := send } := by
  refine h.of_subset rfl ?_ ?_ ?_ h.passes
  · rintro arkTxid ⟨hnot, hreq | hacc | ⟨tx, htx⟩⟩
    · exact ⟨hnot, .inl hreq⟩
    · exact ⟨hnot, .inr (.inl hacc)⟩
    · exact absurd htx (hto.marked arkTxid tx)
  · exact h.queued.trans (hfrom.trans hto.expected.symm)
  · intro arkTxid ha
    exact absurd ha (hto.clearing arkTxid)

theorem idle_none : Idle none := ⟨rfl, by simp, by simp⟩

theorem queued_head {s : State} {w : Write} {rest : List Write} (h : Inv s)
    (hw : s.writes = w :: rest) (howner : w.owner = .send) :
    rest.filter (·.owner = .send) = [] ∧ expected s.send = [w] := by
  have hqueued := h.queued
  rw [hw, List.filter_cons_of_pos (by simpa using howner)] at hqueued
  cases hs : s.send with
  | none =>
    rw [hs] at hqueued
    cases hqueued
  | some send =>
    rw [hs] at hqueued
    cases send <;> first
      | cases hqueued
      | (simp only [expected, List.cons.injEq] at hqueued ⊢
         exact ⟨hqueued.2, hqueued.1.symm, trivial⟩)

theorem queued_pass {s : State} {w : Write} {rest : List Write} (h : Inv s)
    (hw : s.writes = w :: rest) {k : ℕ} (howner : w.owner = .pass k) :
    rest.filter (·.owner = .send) = expected s.send := by
  have hqueued := h.queued
  rwa [hw, List.filter_cons_of_neg (by simp [howner])] at hqueued

theorem passes_done {s : State} (h : Inv s) (k : ℕ) :
    ∀ pass ∈ s.passes.set k .done, pass.Kept s.finalized := by
  intro pass hpass
  rcases List.mem_or_eq_of_mem_set hpass with hold | rfl
  · exact h.passes pass hold
  · trivial

theorem of_expected {send : Option Send} {w : Write} (h : expected send = [w]) :
    (∃ arkTx tx, send = some (.marking arkTx tx) ∧ w = ⟨.send, true⟩) ∨
      ∃ arkTxid, send = some (.clearing arkTxid) ∧ w = ⟨.send, false⟩ := by
  cases send with
  | none => cases h
  | some send =>
    cases send with
    | marking arkTx tx =>
      cases h
      exact .inl ⟨arkTx, tx, rfl, rfl⟩
    | clearing arkTxid =>
      cases h
      exact .inr ⟨arkTxid, rfl, rfl⟩
    | signing tx => cases h
    | marked arkTx tx => cases h
    | submitting arkTx tx => cases h
    | signingCheckpoints arkTxid => cases h
    | finalizing arkTxid => cases h
    | cleared arkTxid => cases h

theorem Inv.writeLands {s : State} {w : Write} {rest : List Write} (h : Inv s)
    (hw : s.writes = w :: rest) (halone : w.value = false → Alone s w.owner) :
    Inv ({ s with writes := rest, hasPendingTx := w.value }.resume w.owner true) := by
  cases howner : w.owner with
  | pass k =>
    have hqueued := queued_pass h hw howner
    refine ⟨?_, hqueued, h.ended, passes_done h k⟩
    intro arkTxid hout
    cases hvalue : w.value with
    | true => rfl
    | false => exact absurd hout (h.alone (halone hvalue) arkTxid)
  | send =>
    obtain ⟨hrest, hexpected⟩ := queued_head h hw howner
    rcases of_expected hexpected with ⟨arkTx, tx, hsend, rfl⟩ | ⟨arkTxid, hsend, rfl⟩
    · have hstate : ({ s with writes := rest, hasPendingTx := true }.resume .send true) =
          { s with writes := rest, hasPendingTx := true, send := some (.marked arkTx tx) } := by
        simp only [State.resume, hsend, if_true]
      rw [hstate]
      exact ⟨fun _ _ ↦ rfl, hrest, fun _ hclear ↦ (by cases hclear), h.passes⟩
    · have hstate : ({ s with writes := rest, hasPendingTx := false }.resume .send true) =
          { s with writes := rest, hasPendingTx := false, send := some (.cleared arkTxid) } := by
        simp only [State.resume, hsend]
      rw [hstate]
      refine ⟨?_, hrest, fun _ hclear ↦ (by cases hclear), h.passes⟩
      rintro other ⟨hnot, hreq | hacc | ⟨tx, htx⟩⟩
      · exact absurd ⟨hnot, .inl hreq⟩ (h.alone (halone rfl) other)
      · exact absurd ⟨hnot, .inr (.inl hacc)⟩ (h.alone (halone rfl) other)
      · cases htx

theorem Inv.writeFails {s : State} {w : Write} {rest : List Write} (h : Inv s)
    (hw : s.writes = w :: rest) : Inv ({ s with writes := rest }.resume w.owner false) := by
  cases howner : w.owner with
  | pass k =>
    have hqueued := queued_pass h hw howner
    exact ⟨h.flagged, hqueued, h.ended, passes_done h k⟩
  | send =>
    obtain ⟨hrest, hexpected⟩ := queued_head h hw howner
    have hgone (send : Option Send) (hsend : Idle send) : Inv { s with writes := rest, send := send } := by
      refine h.of_subset rfl ?_ ?_ ?_ h.passes
      · rintro arkTxid ⟨hnot, hreq | hacc | ⟨tx, htx⟩⟩
        · exact ⟨hnot, .inl hreq⟩
        · exact ⟨hnot, .inr (.inl hacc)⟩
        · exact absurd htx (hsend.marked arkTxid tx)
      · exact hrest.trans hsend.expected.symm
      · intro arkTxid ha
        exact absurd ha (hsend.clearing arkTxid)
    rcases of_expected hexpected with ⟨arkTx, tx, hsend, rfl⟩ | ⟨arkTxid, hsend, rfl⟩
    · have hstate : ({ s with writes := rest }.resume .send false) =
          { s with writes := rest, send := none } := by
        simp [State.resume, hsend]
      rw [hstate]
      exact hgone none idle_none
    · have hstate : ({ s with writes := rest }.resume .send false) =
          { s with writes := rest, send := some (.cleared arkTxid) } := by
        simp only [State.resume, hsend]
      rw [hstate]
      exact hgone _ ⟨rfl, by simp, by simp⟩

theorem queued_append {s : State} {w : Write} {send : Option Send} (h : Inv s)
    (hfrom : expected s.send = []) (hto : expected send = [w]) (howner : w.owner = .send) :
    (s.writes ++ [w]).filter (·.owner = .send) = expected send := by
  rw [List.filter_append, h.queued, hfrom, hto, List.nil_append,
    List.filter_cons_of_pos (by simpa using howner), List.filter_nil]

theorem inv_step {s t : State} {i : Input} (h : Inv s) (hok : Condition s i)
    (ht : step s i = some t) : Inv t := by
  cases i with
  | buildAndSubmitOffchainTx tx =>
    simp only [step] at ht
    split at ht
    · rename_i hsend
      cases ht
      exact h.move (by rw [hsend]; rfl) ⟨rfl, by simp, by simp⟩
    · cases ht
  | arkTxSigned signed =>
    simp only [step] at ht
    split at ht
    · rename_i tx hsend
      have hfrom : expected s.send = [] := by
        rw [hsend]
        rfl
      split at ht
      · cases ht
        refine h.of_subset rfl ?_ (queued_append h hfrom rfl rfl) (by simp) h.passes
        rintro arkTxid ⟨hnot, hreq | hacc | ⟨tx, htx⟩⟩
        · exact ⟨hnot, .inl hreq⟩
        · exact ⟨hnot, .inr (.inl hacc)⟩
        · cases htx
      · cases ht
        exact h.move hfrom idle_none
    · cases ht
  | writeLands =>
    simp only [step] at ht
    split at ht
    · cases ht
    · rename_i w rest hw
      cases ht
      exact h.writeLands hw (hok w rest hw)
  | writeFails =>
    simp only [step] at ht
    split at ht
    · cases ht
    · rename_i w rest hw
      cases ht
      exact h.writeFails hw
  | submitTx =>
    simp only [step] at ht
    split at ht
    · rename_i arkTx tx hsend
      cases ht
      have hqueued := h.queued
      rw [hsend] at hqueued
      refine h.of_subset rfl ?_ hqueued (by simp) h.passes
      rintro arkTxid ⟨hnot, hreq | hacc | ⟨other, hother⟩⟩
      · rcases List.mem_cons.mp hreq with rfl | hreq
        · exact ⟨hnot, .inr (.inr ⟨tx, hsend⟩)⟩
        · exact ⟨hnot, .inl hreq⟩
      · exact ⟨hnot, .inr (.inl hacc)⟩
      · cases hother
    · cases ht
  | accept arkTxid =>
    simp only [step] at ht
    split at ht
    · rename_i hrequested
      cases ht
      refine h.of_subset rfl ?_ h.queued h.ended h.passes
      rintro other ⟨hnot, hreq | hacc | hmarked⟩
      · exact ⟨hnot, .inl (List.mem_of_mem_erase hreq)⟩
      · rcases List.mem_cons.mp hacc with rfl | hacc
        · exact ⟨hnot, .inl hrequested⟩
        · exact ⟨hnot, .inr (.inl hacc)⟩
      · exact ⟨hnot, .inr (.inr hmarked)⟩
    · cases ht
  | refuse arkTxid =>
    simp only [step] at ht
    split at ht
    · cases ht
      refine h.of_subset rfl ?_ h.queued h.ended h.passes
      rintro other ⟨hnot, hreq | hrest⟩
      · exact ⟨hnot, .inl (List.mem_of_mem_erase hreq)⟩
      · exact ⟨hnot, .inr hrest⟩
    · cases ht
  | submitted response =>
    simp only [step] at ht
    split at ht
    · rename_i arkTx tx hsend
      have hfrom : expected s.send = [] := by
        rw [hsend]
        rfl
      split at ht
      · cases ht
        exact h.move hfrom ⟨rfl, by simp, by simp⟩
      · cases ht
        exact h.move hfrom idle_none
    · cases ht
  | checkpointsSigned =>
    simp only [step] at ht
    split at ht
    · rename_i arkTxid hsend
      cases ht
      have hmoved : Inv { s with send := some (.finalizing arkTxid) } :=
        h.move (by rw [hsend]; rfl) ⟨rfl, by simp, by simp⟩
      exact ⟨hmoved.flagged, hmoved.queued, hmoved.ended, hmoved.passes⟩
    · cases ht
  | finalize arkTxid =>
    simp only [step] at ht
    split at ht
    · cases ht
      have hsub : s.finalized ⊆ arkTxid :: s.finalized := List.subset_cons_self _ _
      refine h.of_subset rfl ?_ h.queued (fun tx htx ↦ hsub (h.ended tx htx))
        fun pass hpass ↦ (h.passes pass hpass).mono hsub
      rintro other ⟨hnot, hrest⟩
      exact ⟨fun hother ↦ hnot (hsub hother), hrest⟩
    · cases ht
  | finalized =>
    simp only [step] at ht
    split at ht
    · rename_i arkTxid hsend
      split at ht
      · rename_i hdone
        cases ht
        have hfrom : expected s.send = [] := by
          rw [hsend]
          rfl
        refine h.of_subset rfl ?_ (queued_append h hfrom rfl rfl) ?_ h.passes
        · rintro other ⟨hnot, hreq | hacc | ⟨tx, htx⟩⟩
          · exact ⟨hnot, .inl hreq⟩
          · exact ⟨hnot, .inr (.inl hacc)⟩
          · cases htx
        · rintro other ⟨⟩
          exact hdone
      · cases ht
    · cases ht
  | sendFails =>
    simp only [step] at ht
    split at ht
    all_goals first
      | cases ht
        rename_i hsend
        exact h.move (by rw [hsend]; rfl) idle_none
      | cases ht
  | sendReturns =>
    simp only [step] at ht
    split at ht
    · rename_i arkTxid hsend
      cases ht
      exact h.move (by rw [hsend]; rfl) idle_none
    · cases ht
  | finalizePendingTxs =>
    cases ht
    refine { h with passes := ?_ }
    intro pass hpass
    rcases List.mem_append.mp hpass with hpass | hpass
    · exact h.passes pass hpass
    · rw [List.mem_singleton.mp hpass]
      trivial
  | flagRead k =>
    refine h.onPass ht ?_
    intro pass pass' hpass hstep
    split at hstep
    · cases hstep
      split <;> trivial
    · cases hstep
  | gathered k coins =>
    refine h.onPass ht ?_
    intro pass pass' hpass hstep
    split at hstep
    · cases hstep
      split
      · trivial
      · intro batch hbatch
        rw [List.eq_of_mem_replicate hbatch]
        exact ⟨by simp, .slnil⟩
    · cases hstep
  | passFails k =>
    refine h.onPass ht ?_
    intro pass pass' hpass hstep
    split at hstep
    · cases hstep
      trivial
    · cases hstep
      trivial
    · cases hstep
  | answered k b pendingTxs =>
    refine h.onBatch ht ?_
    intro seen batch seen' batch' hbatch hturn
    split at hturn
    · have hnext := Option.some.inj hturn
      have hkept := Batch.next_kept seen pendingTxs hbatch.1 hbatch.sublist
      rwa [hnext] at hkept
    · cases hturn
  | pendingSigned k b =>
    obtain ⟨arkTxid, -, ht⟩ := Option.bind_eq_some_iff.mp ht
    obtain ⟨u, hu, ht⟩ := Option.bind_eq_some_iff.mp ht
    cases ht
    have hkept : Inv u := by
      refine h.onBatch hu ?_
      intro seen batch seen' batch' hbatch hturn
      split at hturn
      · rename_i tx rest hwork
        cases hturn
        obtain ⟨hdone, hrest⟩ := hbatch
        rw [hwork] at hrest
        exact ⟨hdone, hrest⟩
      · cases hturn
    exact ⟨hkept.flagged, hkept.queued, hkept.ended, hkept.passes⟩
  | pendingFinalized k b =>
    refine h.onBatch ht ?_
    intro seen batch seen' batch' hbatch hturn
    split at hturn
    · rename_i arkTxid rest hwork
      split at hturn
      · rename_i hfinal
        have hnext := Option.some.inj hturn
        obtain ⟨hdone, hrest⟩ := hbatch
        rw [hwork] at hrest
        obtain ⟨earlier, hpending, hsub⟩ := hrest
        have hkept : (Batch.next seen { batch with finalized := batch.finalized ++ [arkTxid] }
            rest).2.Kept s.finalized := by
          apply Batch.next_kept
          · intro other hother
            rcases List.mem_append.mp hother with hother | hother
            · exact hdone other hother
            · rw [List.mem_singleton.mp hother]
              exact hfinal
          · rw [hpending]
            exact hsub.append (.refl _)
        rwa [hnext] at hkept
      · cases hturn
    · cases hturn
  | pendingFails k b =>
    refine h.onBatch ht ?_
    intro seen batch seen' batch' hbatch hturn
    split at hturn
    · rename_i rest _
      have hnext := Option.some.inj hturn
      have hkept := Batch.next_kept seen rest hbatch.1 hbatch.sublist
      rwa [hnext] at hkept
    · rename_i rest _
      have hnext := Option.some.inj hturn
      have hkept := Batch.next_kept seen rest hbatch.1 hbatch.sublist
      rwa [hnext] at hkept
    · cases hturn
  | batchFails k b =>
    refine h.onBatch ht ?_
    intro seen batch seen' batch' hbatch hturn
    split at hturn
    · cases hturn
      exact ⟨hbatch.1, hbatch.sublist⟩
    · cases hturn
  | allSettled k =>
    simp only [step] at ht
    split at ht
    · rename_i seen batches hpass
      split at ht
      · split at ht
        · rename_i hlength
          cases ht
          have hkept := h.passes _ (List.mem_of_getElem? hpass)
          refine h.of_subset rfl (fun _ hout ↦ hout) ?_ h.ended ?_
          · rw [List.filter_append, h.queued, List.filter_cons_of_neg (by simp), List.filter_nil,
              List.append_nil]
          · intro pass hmem
            rcases List.mem_or_eq_of_mem_set hmem with hold | rfl
            · exact h.passes pass hold
            · exact all_finalized hkept hlength
        · cases ht
          exact { h with passes := passes_done h k }
      · cases ht
    · cases ht
  | crash =>
    cases ht
    refine h.of_subset rfl ?_ rfl (by simp) (by simp)
    rintro arkTxid ⟨hnot, hreq | hacc | ⟨tx, htx⟩⟩
    · exact ⟨hnot, .inl hreq⟩
    · exact ⟨hnot, .inr (.inl hacc)⟩
    · cases htx

def initial : State := ⟨false, [], none, [], [], [], [], []⟩

theorem inv_initial : Inv initial where
  flagged := by
    rintro arkTxid ⟨-, hreq | hacc | ⟨tx, htx⟩⟩
    · cases hreq
    · cases hacc
    · cases htx
  queued := rfl
  ended := by
    rintro arkTxid ⟨⟩
  passes := by
    rintro pass ⟨⟩

theorem flagRead_gathers {s t : State} {k : ℕ} (hflag : s.hasPendingTx = true)
    (ht : step s (.flagRead k) = some t) : t.passes[k]? = some .gathering := by
  obtain ⟨pass, hpass, ht⟩ := Option.bind_eq_some_iff.mp ht
  obtain ⟨pass', hread, ht⟩ := Option.bind_eq_some_iff.mp ht
  cases ht
  obtain ⟨hk, -⟩ := List.getElem?_eq_some_iff.mp hpass
  rw [List.getElem?_set_self hk]
  simp only [hflag, if_true] at hread
  cases pass with
  | reading => exact hread.symm
  | gathering => cases hread
  | running seen batches => cases hread
  | clearing finalized pending => cases hread
  | done => cases hread

/-- While every clear stands alone, a transaction that the server has accepted and not finalized
has the setting, so that recovery looks for it. -/
theorem pending_flagged {s : State} (h : Run step Condition initial s) {arkTxid : Txid}
    (haccepted : arkTxid ∈ s.accepted) (hpending : arkTxid ∉ s.finalized) :
    s.hasPendingTx = true ∧
      ∀ k t, step s (.flagRead k) = some t → t.passes[k]? = some .gathering := by
  have hflag := (h.invariant (fun _ _ _ ↦ inv_step) inv_initial).flagged arkTxid
    ⟨hpending, .inr (.inl haccepted)⟩
  exact ⟨hflag, fun k t ↦ flagRead_gathers hflag⟩

/-- A send from its start to the server's answer. -/
def submission (arkTxid : Txid) : List Input :=
  [.buildAndSubmitOffchainTx ⟨arkTxid, ["c"]⟩, .arkTxSigned ⟨arkTxid, none⟩, .writeLands, .submitTx,
    .accept arkTxid]

/-- The rest of it. -/
def completion (arkTxid : Txid) : List Input :=
  [.submitted ⟨arkTxid, none, [some "c"]⟩, .checkpointsSigned, .finalize arkTxid, .finalized,
    .writeLands, .sendReturns]

/-- A condition to compute with. -/
def alone (s : State) : Bool :=
  (s.requests ++ s.accepted).all (· ∈ s.finalized) &&
    match s.send with
    | some (.marked _ _) => false
    | _ => true

def check (s : State) : Input → Bool
  | .writeLands => s.writes.all fun w ↦ w.value || alone s
  | _ => true

theorem condition_of_check (s : State) (i : Input) (h : check s i = true) : Condition s i := by
  cases i with
  | writeLands =>
    intro w rest hw hvalue
    have halone : alone s = true := by
      have hall := List.all_eq_true.mp h w (by simp [hw])
      simpa [hvalue] using hall
    have hnone (arkTxid : Txid) : ¬Outstanding s arkTxid := by
      obtain ⟨hall, hsend⟩ := (Bool.and_eq_true _ _).mp halone
      rintro ⟨hnot, hout⟩
      have hmem (hin : arkTxid ∈ s.requests ++ s.accepted) : False :=
        hnot (by simpa using List.all_eq_true.mp hall arkTxid hin)
      rcases hout with hreq | hacc | ⟨tx, htx⟩
      · exact hmem (List.mem_append_left _ hreq)
      · exact hmem (List.mem_append_right _ hacc)
      · rw [htx] at hsend
        cases hsend
    cases howner : w.owner with
    | send => exact fun arkTxid hout ↦ absurd hout (hnone arkTxid)
    | pass k => exact fun arkTxid hout ↦ absurd hout (hnone arkTxid)
  | _ => trivial

theorem run_of_check {is : List Input} {s : State} (h : exec step initial is = some s)
    (hcheck : checkAlong step check initial is = true) : Run step Condition initial s :=
  run_of_exec h (along_of_check condition_of_check hcheck)

/-- One send after the other, the second one not over. -/
theorem pending_flagged_sample : ∃ s, exec step initial
    (submission "a" ++ completion "a" ++ submission "b") = some s ∧ s.hasPendingTx = true := by
  obtain ⟨s, hs, hb, ha⟩ : ∃ s, exec step initial
      (submission "a" ++ completion "a" ++ submission "b") = some s ∧ "b" ∈ s.accepted ∧
        "b" ∉ s.finalized := ⟨_, rfl, by decide, by decide⟩
  exact ⟨s, hs, (pending_flagged (run_of_check hs (by decide)) hb ha).1⟩

/-- A send that the signer leaves unfinished, and a later one that succeeds. -/
theorem later_send_clears : ¬ ∀ s, Run step (fun _ _ ↦ True) initial s →
    ∀ arkTxid ∈ s.accepted, arkTxid ∉ s.finalized → s.hasPendingTx = true := by
  intro h
  have hrun : exec step initial (submission "a" ++
      [Input.submitted ⟨"a", none, [some "c"]⟩, .sendFails] ++ submission "b" ++ completion "b") =
    some ⟨false, [], none, [], [], ["b"], ["b", "a"], ["b"]⟩ := by decide
  have hrun := run_of_exec hrun (along_of_check (p := fun _ _ ↦ true) (fun _ _ _ ↦ trivial)
    (by decide))
  have hflag := h _ hrun "a" (by decide) (by decide)
  cases hflag

end ArkadeSdk.PendingTx
