import ArkadeSdk.Boltz.ClaimGuardSafe

/-! When a signature over the other lockup comes after the own claim only. -/

namespace ArkadeSdk.ClaimGuard

open WireFormat BatchTree Batch LabelledRun

def tookOf (log : List Entry) : List (Outpoint × ℕ) :=
  log.filterMap fun
    | .took outpoint value => some (outpoint, value)
    | _ => none

def takenAmount (log : List Entry) : ℕ := ((tookOf log).map Prod.snd).sum

/-- A signature is posted only when the own claims have taken the agreed amount. -/
def SignedAfterClaim (agreed : ℕ) : Entry → List Entry → Prop
  | .signed, before => agreed ≤ takenAmount before
  | _, _ => True

/-- Outputs told of once are told of again, and a spend that is not an own claim looks like a
refund wherever the amount or the record does not settle the question. -/
def SpendsTold (w : World) : Input → Prop
  | .look _ a => (∀ p ∈ w.seen, p ∈ a.vtxos.map (·.outpoint)) ∧
      (covered w.stored.agreed a.vtxos = false →
        (∃ vtxo ∈ spentOf a.vtxos, w.TakenByUs vtxo.outpoint = false) →
          ShownAsRefund w a (spentOf a.vtxos))
  | .sign pending a => ∀ stored, w.stored = .btcToArk stored →
      VirtualFacts.nonEmpty pending.claimTxid = false →
      VirtualFacts.nonEmpty stored.claimTxid = false →
        (∀ p ∈ w.seen, p ∈ a.vtxos.map (·.outpoint)) ∧
        ((∀ vtxo ∈ a.vtxos, vtxo.isSpent = some true) →
          (∃ vtxo ∈ a.vtxos, w.TakenByUs vtxo.outpoint = false) → ShownAsRefund w a a.vtxos)
  | _ => True

section Taken

variable {S : List (Outpoint × ℕ)} {log : List Entry} {p : Outpoint × ℕ}

theorem mem_tookOf : p ∈ tookOf log ↔ .took p.1 p.2 ∈ log := by
  unfold tookOf
  rw [List.mem_filterMap]
  constructor
  · rintro ⟨entry, hentry, heq⟩
    cases entry with
    | took outpoint value =>
      obtain rfl := Option.some.inj heq
      exact hentry
    | _ => cases heq
  · exact fun h ↦ ⟨_, h, rfl⟩

theorem sum_le_takenAmount (hnodup : (S.map Prod.fst).Nodup) (h : S ⊆ tookOf log) :
    (S.map Prod.snd).sum ≤ takenAmount log := by
  obtain ⟨l, hperm, hsub⟩ := List.subperm_of_subset (List.Nodup.of_map _ hnodup) h
  calc (S.map Prod.snd).sum = (l.map Prod.snd).sum := ((hperm.map Prod.snd).sum_eq).symm
    _ ≤ takenAmount log := (hsub.map Prod.snd).sum_le_sum fun _ _ ↦ Nat.zero_le _

theorem takenAmount_append (entries : List Entry) :
    takenAmount log ≤ takenAmount (entries ++ log) := by
  unfold takenAmount tookOf
  rw [List.filterMap_append, List.map_append, List.sum_append]
  exact Nat.le_add_left _ _

end Taken

/-- The outputs of a lockup that covered the agreed amount when the indexer told of it. -/
structure Enough (agreed : ℕ) (w : World) (S : List (Outpoint × ℕ)) : Prop where
  nodup : (S.map Prod.fst).Nodup
  seen : ∀ p ∈ S, p.1 ∈ w.seen
  real : ∀ p ∈ S, ∃ o ∈ w.outputs, o.outpoint = p.1 ∧ o.value = p.2
  whole : agreed ≤ (S.map Prod.snd).sum

section Enough

variable {agreed : ℕ} {w t : World} {S : List (Outpoint × ℕ)}

theorem Enough.mono (h : Enough agreed w S) (houtputs : Preserved w.outputs t.outputs)
    (hseen : w.seen ⊆ t.seen) : Enough agreed t S where
  nodup := h.nodup
  seen p hp := hseen (h.seen p hp)
  real p hp := by
    obtain ⟨o, ho, houtpoint, hvalue⟩ := h.real p hp
    obtain ⟨o', ho', heq, heq', -⟩ := houtputs o ho
    exact ⟨o', ho', heq.trans houtpoint, heq'.trans hvalue⟩
  whole := h.whole

theorem takenByUs_iff {p : Outpoint} : w.TakenByUs p = true ↔
    ∃ o ∈ w.outputs, o.outpoint = p ∧ o.spend.any (·.byWallet) = true := by
  simp [World.TakenByUs]

theorem takenByUs_mono (houtputs : Preserved w.outputs t.outputs) {p : Outpoint}
    (h : w.TakenByUs p = true) : t.TakenByUs p = true := by
  obtain ⟨o, ho, rfl, hown⟩ := takenByUs_iff.mp h
  obtain ⟨o', ho', heq, -, hown'⟩ := houtputs o ho
  exact takenByUs_iff.mpr ⟨o', ho', heq, hown' hown⟩

theorem Output.tookBy_outpoint (o : Output) (outpoints : List Outpoint) (spend : Spend) :
    (o.tookBy outpoints spend).outpoint = o.outpoint := by
  unfold Output.tookBy
  split <;> rfl

theorem Output.tookBy_value (o : Output) (outpoints : List Outpoint) (spend : Spend) :
    (o.tookBy outpoints spend).value = o.value := by
  unfold Output.tookBy
  split <;> rfl

theorem outpoints_tookBy (outputs : List Output) (outpoints : List Outpoint) (spend : Spend) :
    (outputs.map (·.tookBy outpoints spend)).map (·.outpoint) = outputs.map (·.outpoint) := by
  rw [List.map_map]
  exact List.map_congr_left fun o _ ↦ o.tookBy_outpoint outpoints spend

theorem Preserved.tookBy (outputs : List Output) (outpoints : List Outpoint) {spend : Spend}
    (hspend : spend.byWallet = true) :
    Preserved outputs (outputs.map (·.tookBy outpoints spend)) := by
  refine fun o ho ↦ ⟨_, List.mem_map_of_mem ho, o.tookBy_outpoint _ _, o.tookBy_value _ _, ?_⟩
  unfold Output.tookBy
  split
  · exact fun _ ↦ hspend
  · exact id

/-- What is still to be claimed makes the own claims take the agreed amount. -/
def Backed (agreed : ℕ) (w : World) (todo : List (List VirtualCoin)) : Prop :=
  ∃ S, Enough agreed w S ∧
    ∀ p ∈ S, w.TakenByUs p.1 = true ∨ ∃ claimTx ∈ todo, p.1 ∈ claimTx.map (·.outpoint)

theorem Backed.mono {todo : List (List VirtualCoin)} (h : Backed agreed w todo)
    (houtputs : Preserved w.outputs t.outputs) (hseen : w.seen ⊆ t.seen) :
    Backed agreed t todo := by
  obtain ⟨S, hS, hback⟩ := h
  exact ⟨S, hS.mono houtputs hseen, fun p hp ↦ (hback p hp).imp_left (takenByUs_mono houtputs)⟩

theorem Backed.tail {claimTx : List VirtualCoin} {todo : List (List VirtualCoin)}
    (h : Backed agreed w (claimTx :: todo))
    (hlanded : ∀ vtxo ∈ claimTx, w.TakenByUs vtxo.outpoint = true) : Backed agreed w todo := by
  obtain ⟨S, hS, hback⟩ := h
  refine ⟨S, hS, fun p hp ↦ ?_⟩
  rcases hback p hp with hown | ⟨claimTx', hmem, hp⟩
  · exact .inl hown
  rcases List.mem_cons.mp hmem with rfl | hmem
  · obtain ⟨vtxo, hvtxo, heq⟩ := List.mem_map.mp hp
    exact .inl (heq ▸ hlanded vtxo hvtxo)
  · exact .inr ⟨claimTx', hmem, hp⟩

theorem mem_claimTxs {vtxos : List VirtualCoin} {vtxo : VirtualCoin} (h : vtxo ∈ vtxos) :
    ∃ claimTx ∈ claimTxs .claimArk vtxos, vtxo ∈ claimTx := by
  unfold claimTxs
  cases hr : isRecoverable vtxo with
  | true =>
    refine ⟨[vtxo], List.mem_append_right _ (List.mem_map.mpr ⟨vtxo, ?_, rfl⟩),
      List.mem_singleton_self vtxo⟩
    exact List.mem_filter.mpr ⟨h, hr⟩
  | false =>
    have hlive : vtxo ∈ vtxos.filter (!isRecoverable ·) := List.mem_filter.mpr ⟨h, by simp [hr]⟩
    refine ⟨_, List.mem_append_left _ ?_, hlive⟩
    rw [if_neg (List.ne_nil_of_mem hlive)]
    exact List.mem_singleton_self _

theorem Enough.ofCovered {a : Answers} {decode : String → Option Bytes}
    (htruthful : w.Truthful decode a = true) (hcovered : covered (some agreed) a.vtxos = true)
    (houtputs : Preserved w.outputs t.outputs) (hseen : a.vtxos.map (·.outpoint) ⊆ t.seen) :
    Enough agreed t ((spendableOf a.vtxos).map fun vtxo ↦ (vtxo.outpoint, vtxo.value)) := by
  simp only [World.Truthful, Bool.and_eq_true, decide_eq_true_eq, List.all_eq_true,
    List.any_eq_true] at htruthful
  obtain ⟨⟨⟨⟨htold, hnodup⟩, -⟩, -⟩, -⟩ := htruthful
  refine ⟨?_, fun p hp ↦ ?_, fun p hp ↦ ?_, ?_⟩
  · rw [List.map_map]
    exact hnodup.sublist (List.filter_sublist.map _)
  · obtain ⟨vtxo, hvtxo, rfl⟩ := List.mem_map.mp hp
    exact hseen (List.mem_map_of_mem (List.mem_filter.mp hvtxo).1)
  · obtain ⟨vtxo, hvtxo, rfl⟩ := List.mem_map.mp hp
    obtain ⟨o, ho, htells⟩ := htold vtxo (List.mem_filter.mp hvtxo).1
    simp only [Output.Tells, Bool.and_eq_true, decide_eq_true_eq] at htells
    obtain ⟨o', ho', heq, heq', -⟩ := houtputs o ho
    exact ⟨o', ho', heq.trans htells.1.1, heq'.trans htells.1.2⟩
  · rw [List.map_map]
    exact of_decide_eq_true hcovered

end Enough

section Sign

variable {decode : String → Option Bytes} {swap : ChainSwap} {delay : RelativeTimelock}
  {agreed : ℕ} {w t : World} {input : Input}

/-- Whatever is claimed or was claimed goes back to a lockup that covered the agreed amount. -/
structure SignInv (agreed : ℕ) (w : World) : Prop where
  btcToArk : ∃ swap, w.stored = .btcToArk swap
  agreed_eq : w.stored.agreed = some agreed
  nodup : (w.outputs.map (·.outpoint)).Nodup
  call : ∀ call ∈ w.calls, call.method = .claimArk ∧ call.expected = some agreed
  claiming : ∀ call ∈ w.calls, ∀ vtxos todo failed txid,
    call.phase = .claiming vtxos todo failed txid → Backed agreed w todo
  submitted : w.submitted ≠ [] → ∃ S, Enough agreed w S
  taken : ∀ o ∈ w.outputs, o.spend.any (·.byWallet) →
    .took o.outpoint o.value ∈ w.log ∧ ∃ S, Enough agreed w S
  claimTxid : ∀ swap, w.stored = .btcToArk swap → VirtualFacts.nonEmpty swap.claimTxid = true →
    agreed ≤ takenAmount w.log
  log : Chronicle (SignedAfterClaim agreed) w.log

theorem signInv_start (h : (Swap.btcToArk swap).agreed = some agreed)
    (hfresh : swap.claimTxid = none) : SignInv agreed (.start (.btcToArk swap) delay) where
  btcToArk := ⟨swap, rfl⟩
  agreed_eq := h
  nodup := .nil
  call _ hcall := nomatch hcall
  claiming _ hcall := nomatch hcall
  submitted hne := absurd rfl hne
  taken _ ho := nomatch ho
  claimTxid swap' heq hsome := by
    obtain rfl := Swap.btcToArk.inj heq
    rw [hfresh] at hsome
    cases hsome
  log := trivial

theorem SignInv.whole (h : SignInv agreed w) {S : List (Outpoint × ℕ)} (hS : Enough agreed w S)
    (htaken : ∀ p ∈ S, w.TakenByUs p.1 = true) : agreed ≤ takenAmount w.log := by
  refine hS.whole.trans (sum_le_takenAmount hS.nodup fun p hp ↦ mem_tookOf.mpr ?_)
  obtain ⟨o, ho, houtpoint, hvalue⟩ := hS.real p hp
  obtain ⟨o', ho', heq, hown⟩ := takenByUs_iff.mp (htaken p hp)
  obtain rfl := List.inj_on_of_nodup_map h.nodup ho ho' (houtpoint.trans heq.symm)
  rw [← houtpoint, ← hvalue]
  exact (h.taken o ho hown).1

theorem SignInv.enough (h : SignInv agreed w) {vtxos : List VirtualCoin} (hne : vtxos ≠ [])
    (hown : ∀ vtxo ∈ vtxos, w.TakenByUs vtxo.outpoint = true) : ∃ S, Enough agreed w S := by
  obtain ⟨vtxo, hvtxo⟩ := List.exists_mem_of_ne_nil _ hne
  obtain ⟨o, ho, -, hspend⟩ := takenByUs_iff.mp (hown vtxo hvtxo)
  exact (h.taken o ho hspend).2

theorem SignInv.into (h : SignInv agreed w) (hstored : t.stored = w.stored)
    (hnodup : (t.outputs.map (·.outpoint)).Nodup) (houtputs : Preserved w.outputs t.outputs)
    (hseen : w.seen ⊆ t.seen)
    (hcalls : ∀ call ∈ t.calls, call ∈ w.calls ∨
      (call.method = .claimArk ∧ call.expected = some agreed) ∧ ∀ vtxos todo failed txid,
        call.phase = .claiming vtxos todo failed txid → Backed agreed t todo)
    (hsubmitted : t.submitted ≠ [] → ∃ S, Enough agreed t S)
    (htaken : ∀ o ∈ t.outputs, o.spend.any (·.byWallet) →
      .took o.outpoint o.value ∈ t.log ∧ ∃ S, Enough agreed t S)
    (htook : takenAmount w.log ≤ takenAmount t.log)
    (hlog : Chronicle (SignedAfterClaim agreed) t.log) : SignInv agreed t where
  btcToArk := hstored ▸ h.btcToArk
  agreed_eq := hstored ▸ h.agreed_eq
  nodup := hnodup
  call c hc := (hcalls c hc).elim (h.call c) And.left
  claiming c hc vtxos todo failed txid hphase := (hcalls c hc).elim
    (fun hc ↦ (h.claiming c hc vtxos todo failed txid hphase).mono houtputs hseen)
    fun hnew ↦ hnew.2 vtxos todo failed txid hphase
  submitted := hsubmitted
  taken := htaken
  claimTxid swap heq hsome := (h.claimTxid swap (hstored ▸ heq) hsome).trans htook
  log := hlog

theorem SignInv.withCalls (h : SignInv agreed w) {calls : List Call}
    (hcalls : ∀ call ∈ calls, call ∈ w.calls ∨
      (call.method = .claimArk ∧ call.expected = some agreed) ∧ ∀ vtxos todo failed txid,
        call.phase = .claiming vtxos todo failed txid → Backed agreed w todo) :
    SignInv agreed { w with calls } := by
  have hmono : ∀ S, Enough agreed w S → Enough agreed { w with calls } S :=
    fun S hS ↦ hS.mono (.refl _) (List.Subset.refl _)
  refine h.into rfl h.nodup (.refl _) (List.Subset.refl _) (fun call hcall ↦ ?_)
    (fun hne ↦ (h.submitted hne).imp hmono)
    (fun o ho hown ↦ (h.taken o ho hown).imp_right fun hS ↦ hS.imp hmono) le_rfl h.log
  refine (hcalls call hcall).imp_right fun hnew ↦ ⟨hnew.1, fun vtxos todo failed txid hphase ↦ ?_⟩
  exact (hnew.2 vtxos todo failed txid hphase).mono (.refl _) (List.Subset.refl _)

theorem SignInv.asked (h : SignInv agreed w) (seen : List Outpoint) :
    SignInv agreed { w with seen := seen ++ w.seen } := by
  have hmono : ∀ S, Enough agreed w S → Enough agreed { w with seen := seen ++ w.seen } S :=
    fun S hS ↦ hS.mono (.refl _) (List.subset_append_right _ _)
  exact h.into rfl h.nodup (.refl _) (List.subset_append_right _ _) (fun call hcall ↦ .inl hcall)
    (fun hne ↦ (h.submitted hne).imp hmono)
    (fun o ho hown ↦ (h.taken o ho hown).imp_right fun hS ↦ hS.imp hmono) le_rfl h.log

theorem SignInv.logged (h : SignInv agreed w) {entry : Entry} {submitted : List (List Outpoint)}
    (hentry : SignedAfterClaim agreed entry w.log)
    (hsubmitted : submitted ≠ [] → ∃ S, Enough agreed w S) :
    SignInv agreed { w with submitted, log := entry :: w.log } := by
  have hmono : ∀ S, Enough agreed w S →
      Enough agreed { w with submitted, log := entry :: w.log } S :=
    fun S hS ↦ hS.mono (.refl _) (List.Subset.refl _)
  exact h.into rfl h.nodup (.refl _) (List.Subset.refl _) (fun call hcall ↦ .inl hcall)
    (fun hne ↦ (hsubmitted hne).imp hmono)
    (fun o ho hown ↦ (h.taken o ho hown).imp (List.mem_cons_of_mem _) fun hS ↦ hS.imp hmono)
    (takenAmount_append [entry]) ⟨hentry, h.log⟩

theorem SignInv.looked (h : SignInv agreed w) (a : Answers) (expected : Option ℕ) :
    SignInv agreed (w.looked decode a expected) := by
  have hasked := h.asked (a.vtxos.map (·.outpoint))
  unfold World.looked
  split
  · have hentry : SignedAfterClaim agreed .attributed w.log := trivial
    exact hasked.logged hentry hasked.submitted
  · exact hasked

theorem allTaken {a : Answers} {spent : List VirtualCoin}
    (hok : (∃ vtxo ∈ spent, w.TakenByUs vtxo.outpoint = false) → ShownAsRefund w a spent)
    (hrefund : ¬ShownAsRefund w a spent) : ∀ vtxo ∈ spent, w.TakenByUs vtxo.outpoint = true := by
  intro vtxo hvtxo
  by_contra hforeign
  exact hrefund (hok ⟨vtxo, hvtxo, Bool.eq_false_of_not_eq_true hforeign⟩)

theorem SignInv.backed (h : SignInv agreed w) {i : ℕ} {a : Answers}
    (htruthful : w.Truthful decode a = true) (hok : SpendsTold w (.look i a))
    (hclaim : covered (some agreed) a.vtxos ∨
      partiallyClaimed decode (some agreed) w.stored.toAddress w.stored.refund w.now a) :
    Backed agreed (w.looked decode a (some agreed))
      (claimTxs .claimArk (spendableOf a.vtxos)) := by
  have htx : ∀ vtxo ∈ spendableOf a.vtxos, ∃ claimTx ∈ claimTxs .claimArk (spendableOf a.vtxos),
      vtxo.outpoint ∈ claimTx.map (·.outpoint) := fun vtxo hvtxo ↦ by
    obtain ⟨claimTx, hmem, hvtxo⟩ := mem_claimTxs hvtxo
    exact ⟨claimTx, hmem, List.mem_map_of_mem hvtxo⟩
  rcases hclaim with hcovered | hpartially
  · refine ⟨_, .ofCovered htruthful hcovered (.refl _) (List.subset_append_left _ _), ?_⟩
    intro p hp
    obtain ⟨vtxo, hvtxo, rfl⟩ := List.mem_map.mp hp
    exact .inr (htx vtxo hvtxo)
  · obtain ⟨hcovered, hclaimed⟩ := partiallyClaimed_iff.mp hpartially
    have hown : ∀ vtxo ∈ spentOf a.vtxos, w.TakenByUs vtxo.outpoint = true := by
      refine allTaken (hok.2 (h.agreed_eq ▸ hcovered)) fun hrefund ↦ ?_
      rw [hrefund.notClaimedByUs] at hclaimed
      cases hclaimed
    obtain ⟨S, hS⟩ := h.enough (ne_nil_of_claimedByUs hclaimed) hown
    refine ⟨S, hS.mono (.refl _) (List.subset_append_right _ _), fun p hp ↦ ?_⟩
    obtain ⟨vtxo, hvtxo, heq⟩ := List.mem_map.mp (hok.1 p.1 (hS.seen p hp))
    cases hspent : vtxo.hasTerminalSpend with
    | true => exact .inl (heq ▸ hown vtxo (List.mem_filter.mpr ⟨hvtxo, hspent⟩))
    | false => exact .inr (heq ▸ htx vtxo (List.mem_filter.mpr ⟨hvtxo, by simp [hspent]⟩))

theorem SignInv.established (h : SignInv agreed w) {pending stored : ChainSwap} {a : Answers}
    (hstored : w.stored = .btcToArk stored) (hcopy : pending.CopyOf stored)
    (hok : SpendsTold w (.sign pending a))
    (hassert : assertClaimSideClaimed decode (some stored) pending w.now a = true) :
    agreed ≤ takenAmount w.log := by
  cases hrecord : VirtualFacts.nonEmpty stored.claimTxid with
  | true => exact h.claimTxid stored hstored hrecord
  | false =>
    have hpending : VirtualFacts.nonEmpty pending.claimTxid = false := by
      rcases hcopy.claimTxid with hnone | heq
      · rw [hnone]
        rfl
      · rw [heq, hrecord]
    obtain ⟨hshown, hok⟩ := hok stored hstored hpending hrecord
    have hspent : lockupSpentByUs decode pending.toAddress pending.refund w.now a = true := by
      simpa [assertClaimSideClaimed, hpending, hrecord] using hassert
    unfold lockupSpentByUs at hspent
    dsimp only at hspent
    split at hspent
    · rename_i hall
      have hspentAll : ∀ vtxo ∈ a.vtxos, vtxo.isSpent = some true := fun vtxo hvtxo ↦
        of_decide_eq_true (List.length_filter_eq_length_iff.mp hall.2 vtxo hvtxo)
      rw [List.filter_eq_self.mpr fun vtxo hvtxo ↦ decide_eq_true (hspentAll vtxo hvtxo),
        hcopy.refund] at hspent
      have hown : ∀ vtxo ∈ a.vtxos, w.TakenByUs vtxo.outpoint = true := by
        refine allTaken (hok hspentAll) fun hrefund ↦ ?_
        have hreached := hrefund.reached
        rw [hstored, Swap.refund] at hreached
        rw [hrefund.notIntoOurWallet, hreached] at hspent
        cases hspent
      obtain ⟨S, hS⟩ := h.enough hall.1 hown
      refine h.whole hS fun p hp ↦ ?_
      obtain ⟨vtxo, hvtxo, heq⟩ := List.mem_map.mp (hshown p.1 (hS.seen p hp))
      exact heq ▸ hown vtxo hvtxo
    · cases hspent

theorem SignInv.landed (h : SignInv agreed w) {outpoints : List Outpoint} {txid : Txid}
    {offchain : Bool} {pays : List Receipt} (hmem : outpoints ∈ w.submitted) :
    SignInv agreed { w.taking outpoints ⟨true, txid, offchain⟩ pays with
      log := w.tookEntries outpoints ++ w.log } := by
  have houtputs : Preserved w.outputs (w.outputs.map (·.tookBy outpoints ⟨true, txid, offchain⟩)) :=
    .tookBy _ _ rfl
  obtain ⟨S, hS⟩ := h.submitted (List.ne_nil_of_mem hmem)
  refine h.into rfl ?_ houtputs (List.Subset.refl _) (fun call hcall ↦ .inl hcall)
    (fun _ ↦ ⟨S, hS.mono houtputs (List.Subset.refl _)⟩) (fun o' ho' hown ↦ ?_)
    (takenAmount_append _) ?_
  · change ((w.outputs.map _).map _).Nodup
    rw [outpoints_tookBy]
    exact h.nodup
  · refine ⟨List.mem_append.mpr ?_, S, hS.mono houtputs (List.Subset.refl _)⟩
    obtain ⟨o, ho, rfl⟩ := List.mem_map.mp ho'
    rw [o.tookBy_outpoint, o.tookBy_value]
    by_cases htaken : o.outpoint ∈ outpoints
    · exact .inl (List.mem_map.mpr ⟨o, List.mem_filter.mpr ⟨ho, decide_eq_true htaken⟩, rfl⟩)
    · rw [Output.tookBy, if_neg htaken] at hown
      exact .inr (h.taken o ho hown).1
  · refine Chronicle.append (fun entry hentry _ ↦ ?_) h.log
    obtain ⟨o, -, rfl⟩ := List.mem_map.mp hentry
    trivial

theorem SignInv.finished (h : SignInv agreed w) {txid : Option Txid}
    (hwhole : agreed ≤ takenAmount w.log) : SignInv agreed (w.claimed txid) := by
  obtain ⟨swap, hswap⟩ := h.btcToArk
  have hclaimed : (w.claimed txid).stored = .btcToArk { swap with claimTxid := txid } := by
    unfold World.claimed
    rw [hswap]
  have hmono : ∀ S, Enough agreed w S → Enough agreed (w.claimed txid) S :=
    fun S hS ↦ hS.mono (.refl _) (List.Subset.refl _)
  exact {
    btcToArk := ⟨_, hclaimed⟩
    agreed_eq := by
      have hagreed := h.agreed_eq
      rw [hswap] at hagreed
      rw [hclaimed]
      exact hagreed
    nodup := h.nodup
    call := h.call
    claiming call hcall vtxos todo failed txid hphase :=
      (h.claiming call hcall vtxos todo failed txid hphase).mono (.refl _) (List.Subset.refl _)
    submitted hne := (h.submitted hne).imp hmono
    taken o ho hown := (h.taken o ho hown).imp_right fun hS ↦ hS.imp hmono
    claimTxid _ _ _ := hwhole
    log := h.log }

theorem sign_step (h : SignInv agreed w) (hok : SpendsTold w input)
    (hstep : step decode w input = some t) : SignInv agreed t := by
  cases step_cases hstep with
  | @around _ now height receipts outputs hkept _ _ _ =>
    have hkept := hkept h.nodup
    have hmono : ∀ S, Enough agreed w S →
        Enough agreed { w with now, height, outputs, receipts } S :=
      fun S hS ↦ hS.mono hkept.kept (List.Subset.refl _)
    refine h.into rfl (hkept.nodup h.nodup) hkept.kept (List.Subset.refl _)
      (fun call hcall ↦ .inl hcall) (fun hne ↦ (h.submitted hne).imp hmono)
      (fun o ho hown ↦ ?_) le_rfl h.log
    obtain ⟨o', ho', houtpoint, hvalue, hown'⟩ := hkept.taken o ho hown
    rw [← houtpoint, ← hvalue]
    exact (h.taken o' ho' hown').imp_right fun hS ↦ hS.imp hmono
  | stands => exact h
  | starts hexpected hmethod =>
    refine h.withCalls fun call hcall ↦ (List.mem_append.mp hcall).imp_right fun hnew ↦ ?_
    obtain rfl := List.mem_singleton.mp hnew
    obtain ⟨swap, hswap⟩ := h.btcToArk
    exact ⟨⟨hmethod swap hswap, hexpected agreed h.agreed_eq⟩, nofun⟩
  | discloses hswap =>
    obtain ⟨swap, heq⟩ := h.btcToArk
    exact absurd heq (hswap swap)
  | @looks i count a method expected calls hcall htruthful hcalls =>
    obtain ⟨rfl, rfl⟩ : method = .claimArk ∧ expected = some agreed :=
      h.call _ (List.mem_of_getElem? hcall)
    refine (h.looked a _).withCalls fun call hmem ↦ (hcalls call hmem).imp_right ?_
    rintro ⟨count, rfl | ⟨rfl, hclaim⟩⟩
    · exact ⟨⟨rfl, rfl⟩, nofun⟩
    · refine ⟨⟨rfl, rfl⟩, fun vtxos todo failed txid hphase ↦ ?_⟩
      cases hphase
      exact h.backed htruthful hok hclaim
  | submits hcall =>
    obtain ⟨S, hS, -⟩ := h.claiming _ hcall _ _ _ _ rfl
    exact h.logged (show SignedAfterClaim agreed (.disclosed _) _ from trivial) fun _ ↦ ⟨S, hS⟩
  | lands hmem _ => exact h.landed hmem
  | answered hcall htaken =>
    refine h.withCalls fun call hmem ↦ (mem_set_call hmem).imp_right ?_
    rintro rfl
    have hold := h.call _ hcall
    refine ⟨hold, fun vtxos todo failed txid hphase ↦ ?_⟩
    cases hphase
    refine (h.claiming _ hcall _ _ _ _ rfl).tail fun vtxo hvtxo ↦ ?_
    rcases htaken with htaken | rfl
    · exact List.all_eq_true.mp htaken vtxo hvtxo
    · cases hold.1
  | drops => exact h.withCalls fun call hmem ↦ .inl (List.mem_of_mem_eraseIdx hmem)
  | finishes hcall =>
    obtain ⟨S, hS, hback⟩ := h.claiming _ hcall _ _ _ _ rfl
    have hwhole : agreed ≤ takenAmount w.log :=
      h.whole hS fun p hp ↦ (hback p hp).resolve_right fun ⟨_, hmem, _⟩ ↦ nomatch hmem
    exact (h.withCalls fun call hmem ↦ .inl (List.mem_of_mem_eraseIdx hmem)).finished hwhole
  | @signs _ _ a hstored hcopy _ hassert =>
    have hasked := h.asked (a.vtxos.map (·.outpoint))
    exact hasked.logged (show SignedAfterClaim agreed .signed _ from
      h.established hstored hcopy hok hassert) hasked.submitted
  | asks => exact h.asked _

theorem signed_after_claim (hagreed : (Swap.btcToArk swap).agreed = some agreed)
    (hfresh : swap.claimTxid = none)
    (h : Run (step decode) SpendsTold (.start (.btcToArk swap) delay) w) :
    Chronicle (SignedAfterClaim agreed) w.log :=
  (h.invariant (fun _ _ _ ↦ sign_step) (signInv_start hagreed hfresh)).log

end Sign

/-- The counterparty refunds at the absolute locktime, and not to the wallet; the wallet is told
the current state, and all of it. -/
def ToldRight (w : World) : Input → Prop
  | .refund leaf _ _ _ _ => leaf = .refundWithoutReceiver
  | .look _ a => (∀ p ∈ w.seen, p ∈ a.vtxos.map (·.outpoint)) ∧ w.RefundsElsewhere ∧
      a.Current w (spentOf a.vtxos)
  | .sign _ a => (∀ p ∈ w.seen, p ∈ a.vtxos.map (·.outpoint)) ∧ w.RefundsElsewhere ∧
      a.Current w a.vtxos
  | _ => True

section Told

variable {decode : String → Option Bytes} {swap : Swap} {delay : RelativeTimelock} {w t : World}

theorem sign_truthful {pending : ChainSwap} {a : Answers}
    (h : step decode w (.sign pending a) = some t) : w.Truthful decode a = true := by
  simp only [step] at h
  split at h
  · exact (Option.ite_none_right_eq_some.mp h).1.2
  · cases h

theorem foreign_of_notTaken {p : Outpoint} (h : w.TakenByUs p = false) :
    ∀ o ∈ w.outputs, o.outpoint = p → ∀ spend, o.spend = some spend → spend.byWallet = false := by
  intro o ho houtpoint spend hspend
  by_contra hown
  rw [takenByUs_iff.mpr ⟨o, ho, houtpoint, by simpa [hspend] using hown⟩] at h
  cases h

/-- Where the counterparty refunds in time and to itself, spends that are told and are not own
claims look like refunds. -/
theorem run_spendsTold (h : Run (step decode) ToldRight (.start swap delay) w) :
    Run (step decode) SpendsTold (.start swap delay) w := by
  refine h.strengthen (P := OnlyRefunds) (fun w input t hrefunds hok hstep ↦ ?_)
    (fun w input t hrefunds hok hstep ↦ ?_) ⟨nofun, nofun⟩
  · exact onlyRefunds_step (fun leaf _ _ _ _ heq ↦ by subst heq; exact hok) hrefunds hstep
  · cases input with
    | look i a =>
      obtain ⟨hseen, helsewhere, hcurrent⟩ := hok
      refine ⟨hseen, fun _ ⟨vtxo, hvtxo, hforeign⟩ ↦ ?_⟩
      obtain ⟨hmem, hterminal⟩ := List.mem_filter.mp hvtxo
      exact hrefunds.shown (look_truthful hstep) helsewhere hcurrent hvtxo hmem hterminal
        (foreign_of_notTaken hforeign)
    | sign pending a =>
      obtain ⟨hseen, helsewhere, hcurrent⟩ := hok
      intro stored _ _ _
      refine ⟨hseen, fun hspent ⟨vtxo, hvtxo, hforeign⟩ ↦ ?_⟩
      have hterminal : vtxo.hasTerminalSpend = true := by
        simp [VirtualFacts.hasTerminalSpend, VirtualFacts.spent, hspent vtxo hvtxo]
      exact hrefunds.shown (sign_truthful hstep) helsewhere hcurrent hvtxo hvtxo hterminal
        (foreign_of_notTaken hforeign)
    | _ => trivial

end Told

section Sample

def sampleChain : ChainSwap := ⟨none, some 100000, some "ark1wallet", some 800, none⟩

/-- The counterparty funds dust, refunds it to the wallet after the locktime and asks for the
signature. -/
def refundedRun : List Input :=
  [.wait 0 800, .fund ⟨"a", 0⟩ 330,
    .refund .refundWithoutReceiver [⟨"a", 0⟩] "refund" true [⟨[1], "refund", 0, 330⟩],
    .sign sampleChain ⟨[sampleCoin "a" 330 false (some "refund")], "ark1wallet",
      [⟨[1], "refund", 0, 330⟩], some 800⟩]

theorem refunded_lockup_signed : ∃ w,
    exec (step sampleDecode) (.start (.btcToArk sampleChain) sampleDelay) refundedRun = some w ∧
      w.log = [.signed] ∧ ¬Chronicle (SignedAfterClaim 100000) w.log := by
  refine ⟨_, rfl, rfl, fun h ↦ ?_⟩
  have hle : 100000 ≤ takenAmount [] := h.1
  exact absurd hle (by decide)

/-- A split lockup: the claim fails between the live and the swept output, the rest is claimed
by a second call, and the signature goes by the spends, then by the record. -/
def claimedRun : List Input :=
  [.fund ⟨"a", 0⟩ 60000, .fund ⟨"b", 0⟩ 40000, .claimArk sampleChain,
    .look 0 ⟨[sampleCoin "a" 60000 false none, sampleCoin "b" 40000 true none], "ark1wallet", [],
      some 0⟩,
    .submit 0, .land [⟨"a", 0⟩] "claim" true [⟨[1], "claim", 0, 60000⟩], .answer 0 (some "claim"),
    .submit 0, .answer 0 none,
    .sign sampleChain ⟨[sampleCoin "a" 60000 false (some "claim"), sampleCoin "b" 40000 true none],
      "ark1wallet", [⟨[1], "claim", 0, 60000⟩], some 0⟩,
    .claimArk sampleChain,
    .look 0 ⟨[sampleCoin "a" 60000 false (some "claim"), sampleCoin "b" 40000 true none],
      "ark1wallet", [⟨[1], "claim", 0, 60000⟩], some 0⟩,
    .submit 0, .land [⟨"b", 0⟩] "batch" true [⟨[1], "batch", 0, 40000⟩], .answer 0 (some "batch"),
    .sign sampleChain ⟨[sampleCoin "a" 60000 false (some "claim"),
      sampleCoin "b" 40000 true (some "batch")], "ark1wallet",
      [⟨[1], "claim", 0, 60000⟩, ⟨[1], "batch", 0, 40000⟩], some 0⟩,
    .finish 0, .sign sampleChain ⟨[], "ark1wallet", [], none⟩]

def spendsTold (w : World) : Input → Bool
  | .look _ a => (w.seen.all fun p ↦ p ∈ a.vtxos.map (·.outpoint)) &&
      (spentOf a.vtxos).all fun vtxo ↦ w.TakenByUs vtxo.outpoint
  | .sign _ a => match w.stored with
    | .btcToArk stored => VirtualFacts.nonEmpty stored.claimTxid ||
        (w.seen.all fun p ↦ p ∈ a.vtxos.map (·.outpoint)) &&
          ((a.vtxos.any fun vtxo ↦ vtxo.isSpent != some true) ||
            a.vtxos.all fun vtxo ↦ w.TakenByUs vtxo.outpoint)
    | _ => true
  | _ => true

theorem spendsTold_of_check (w : World) (input : Input) (h : spendsTold w input = true) :
    SpendsTold w input := by
  cases input with
  | look i a =>
    simp only [spendsTold, Bool.and_eq_true, List.all_eq_true, decide_eq_true_eq] at h
    refine ⟨h.1, fun _ ⟨vtxo, hvtxo, hforeign⟩ ↦ ?_⟩
    rw [h.2 vtxo hvtxo] at hforeign
    cases hforeign
  | sign pending a =>
    intro stored hstored _ hrecord
    simp only [spendsTold, hstored, hrecord, Bool.false_or, Bool.and_eq_true, Bool.or_eq_true,
      List.all_eq_true, List.any_eq_true, decide_eq_true_eq] at h
    refine ⟨h.1, fun hall ⟨vtxo, hvtxo, hforeign⟩ ↦ ?_⟩
    rcases h.2 with ⟨other, hother, hunspent⟩ | hown
    · rw [hall other hother] at hunspent
      cases hunspent
    · rw [hown vtxo hvtxo] at hforeign
      cases hforeign
  | _ => trivial

theorem signed_after_claim_split : ∃ w,
    exec (step sampleDecode) (.start (.btcToArk sampleChain) sampleDelay) claimedRun = some w ∧
      w.log = [.signed, .signed, .took ⟨"b", 0⟩ 40000, .disclosed 40000, .attributed,
        .disclosed 100000, .took ⟨"a", 0⟩ 60000, .disclosed 100000] ∧
      Chronicle (SignedAfterClaim 100000) w.log := by
  obtain ⟨w, hw, hlog⟩ : ∃ w,
      exec (step sampleDecode) (.start (.btcToArk sampleChain) sampleDelay) claimedRun = some w ∧
        w.log = [.signed, .signed, .took ⟨"b", 0⟩ 40000, .disclosed 40000, .attributed,
          .disclosed 100000, .took ⟨"a", 0⟩ 60000, .disclosed 100000] := ⟨_, rfl, rfl⟩
  have hrun : Run (step sampleDecode) SpendsTold (.start (.btcToArk sampleChain) sampleDelay) w :=
    run_of_exec hw (along_of_check spendsTold_of_check rfl)
  exact ⟨w, hw, hlog, signed_after_claim rfl rfl hrun⟩

end Sample

end ArkadeSdk.ClaimGuard
