import ArkadeSdk.Swap.Pass

/-! What no block of a pass takes back: the terms of the swap, the transactions it has recorded,
an unsaved change, and what has been seen. -/

namespace ArkadeSdk.Rfq

open WireFormat JsNumber HexCodec Work

variable {env : Env}

structure Kept (w w' : Work) : Prop where
  terms : w'.swap.toRfqSwapTerms = w.swap.toRfqSwapTerms
  funding : w.swap.funding.isSome → w'.swap.funding.isSome
  claimTxid : w.swap.claimTxid.isSome → w'.swap.claimTxid.isSome
  claimArkTxid : w.swap.claimArkTxid.isSome → w'.swap.claimArkTxid.isSome
  dirty : w.memory.dirty = true → w'.memory.dirty = true
  log : ∃ events, w'.log = events ++ w.log

namespace Kept

theorem refl (w : Work) : Kept w w := ⟨rfl, id, id, id, id, [], rfl⟩

theorem trans {w₁ w₂ w₃ : Work} (h₁ : Kept w₁ w₂) (h₂ : Kept w₂ w₃) : Kept w₁ w₃ := by
  obtain ⟨events, hevents⟩ := h₁.log
  obtain ⟨later, hlater⟩ := h₂.log
  exact ⟨h₂.terms.trans h₁.terms, h₂.funding ∘ h₁.funding, h₂.claimTxid ∘ h₁.claimTxid,
    h₂.claimArkTxid ∘ h₁.claimArkTxid, h₂.dirty ∘ h₁.dirty, later ++ events, by
      rw [hlater, hevents, List.append_assoc]⟩

theorem say (e : Event) (w : Work) : Kept w (w.say e) := ⟨rfl, id, id, id, id, [e], rfl⟩

theorem touch (w : Work) : Kept w (w.touch env) := ⟨rfl, id, id, id, fun _ ↦ rfl, [], rfl⟩

theorem setState (state : RfqSwapState) (w : Work) : Kept w (w.setState env state) := by
  unfold Work.setState
  split
  · exact refl w
  · exact ⟨rfl, id, id, id, fun _ ↦ rfl, [_], rfl⟩

theorem fail (error : Message) (w : Work) : Kept w (w.fail env error) := by
  refine trans ?_ (setState .failed _)
  exact ⟨rfl, id, id, id, id, [], rfl⟩

theorem block (reason : Message) (w : Work) : Kept w (w.block env reason) := by
  unfold Work.block
  refine trans ?_ (setState .needs_counterparty _)
  split
  · exact refl w
  · refine trans ?_ (touch _)
    exact ⟨rfl, id, id, id, id, [], rfl⟩

theorem unblock (w : Work) : Kept w (w.unblock env) := by
  unfold Work.unblock
  split
  · exact setState _ w
  · exact refl w

theorem setOnchainState (state : RfqSwapState) (w : Work) :
    Kept w (w.setOnchainState env state) := by
  unfold Work.setOnchainState
  split
  · exact refl w
  · exact setState state w

theorem stampLockupSpends (spends : List (Option String)) (w : Work) :
    Kept w (w.stampLockupSpends env spends) := by
  unfold Work.stampLockupSpends
  split
  · exact refl w
  · refine trans ?_ (touch _)
    exact ⟨rfl, id, id, id, id, [], rfl⟩

theorem memory {m : Memory} (w : Work) (h : w.memory.dirty = true → m.dirty = true) :
    Kept w { w with memory := m } := ⟨rfl, id, id, id, h, [], rfl⟩

theorem call {w w' : Work} (h : Kept w w') (c : Call) (await : Await) :
    Kept w (w'.call env c await).1 := h.trans (say _ w')

end Kept

open Kept

theorem kept_afterGetContracts (existing : Except String Bool) (w : Work) :
    Kept w (afterGetContracts env existing w).1 := by
  match existing with
  | .ok true => exact memory w id
  | .ok false =>
    refine Kept.trans ?_ (say _ _)
    exact memory w id
  | .error error => exact say _ w

theorem kept_afterRegisterLockup (row : Except String Unit) (w : Work) :
    Kept w (afterRegisterLockup env row w).1 := by
  match row with
  | .ok () => exact memory w id
  | .error error => exact say _ w

theorem kept_driveReceiveClaim (w : Work) : Kept w (driveReceiveClaim env w).1 := by
  unfold driveReceiveClaim
  split
  · exact refl w
  · split
    · split
      · exact refl w
      · exact block _ w
    · split
      · split
        · exact fail _ w
        · exact setState .refunded w
      · exact setState .refunded w

theorem kept_claimIfFunded (vtxos : List LockupVtxo) (w : Work) :
    Kept w (claimIfFunded env vtxos w).1 := by
  unfold claimIfFunded
  dsimp only
  split
  · exact unblock w
  split
  · exact refl w
  split
  · exact block _ w
  split
  · exact block _ w
  split
  · exact block _ w
  · split
    · exact block _ w
    split
    · exact setState .claimable w
    · exact (setState .claimable w).call _ _

theorem kept_afterLockupVtxos (lists : Except String (List IndexedVtxo × List IndexedVtxo))
    (w : Work) : Kept w (afterLockupVtxos env lists w).1 := by
  match lists with
  | .error error => exact say _ w
  | .ok (spendable, recoverable) => exact kept_claimIfFunded _ w

theorem kept_afterClaimLockup (vtxos : List LockupVtxo) (txid : Except String String) (w : Work) :
    Kept w (afterClaimLockup env vtxos txid w).1 := by
  match txid with
  | .ok arkTxid =>
    have hsubmitted : Kept w { (rememberClaimed vtxos { w with memory :=
        { w.memory with lastClaimError := none } }) with
          swap := { w.swap with claimArkTxid := some arkTxid } } :=
      ⟨rfl, id, id, fun _ ↦ rfl, id, [], rfl⟩
    exact ((hsubmitted.trans (touch _)).trans (setState .claimed _)).trans (say _ _)
  | .error error =>
    refine Kept.trans ?_ (say _ _)
    exact memory w id

theorem kept_driveOnchain (w : Work) : Kept w (driveOnchain env w).1 := by
  unfold driveOnchain
  split
  · exact refl w
  · exact fail _ w

theorem kept_rememberFunding (phase : OnchainHtlcPhase) (w : Work) :
    Kept w (rememberFunding env phase w) := by
  unfold rememberFunding
  split
  · refine Kept.trans ?_ (touch _)
    exact ⟨rfl, fun _ ↦ rfl, id, id, id, [], rfl⟩
  · exact refl w

theorem kept_claimFill (utxo : ChainUtxo) (w : Work) : Kept w (claimFill env utxo w).1 := by
  unfold claimFill
  split
  · exact refl w
  split
  · exact setOnchainState .claimable w
  · split
    · exact block _ w
    split
    · exact setOnchainState .claimable w
    · exact (setOnchainState .claimable w).call _ _

theorem kept_recoverClaim (txid : String) (w : Work) : Kept w (recoverClaim env txid w) := by
  unfold recoverClaim
  refine Kept.trans ?_ (setOnchainState .claimed _)
  split
  · exact refl w
  · refine Kept.trans ?_ (touch _)
    exact ⟨rfl, id, fun _ ↦ rfl, id, id, [], rfl⟩

theorem kept_afterOnchainHtlc (view : Except String ChainView) (w : Work) :
    Kept w (afterOnchainHtlc env view w).1 := by
  unfold afterOnchainHtlc
  split
  · exact refl w
  · dsimp only
    split
    · exact (kept_rememberFunding _ w).trans (kept_claimFill _ _)
    · exact (kept_rememberFunding _ w).trans (kept_recoverClaim _ _)
    · exact kept_rememberFunding _ w

theorem kept_afterClaimOnchain (txid : Except String String) (w : Work) :
    Kept w (afterClaimOnchain env txid w).1 := by
  match txid with
  | .ok txid =>
    have hpublished : Kept w { w with swap := { w.swap with claimTxid := some txid } } :=
      ⟨rfl, id, fun _ ↦ rfl, id, id, [], rfl⟩
    exact (hpublished.trans (setOnchainState .claimed _)).trans (say _ _)
  | .error error => exact say _ w

theorem kept_afterCanRefundArkade (now : ℤ) (refusal : Option String) (w : Work) :
    Kept w (afterCanRefundArkade env now refusal w).1 := by
  unfold afterCanRefundArkade
  dsimp only
  have hreprobed : Kept w { w with memory := { w.memory with refundRefused := false } } :=
    memory w id
  split
  · split
    · exact refl w
    · exact block _ w
  split
  · exact refl w
  split
  · exact hreprobed.trans (unblock _)
  split
  · exact hreprobed.trans (block _ _)
  · split
    · exact hreprobed.trans (block _ _)
    · exact (hreprobed.trans (unblock _)).call _ _

theorem kept_afterRefundArkade (arkTxid : Option String) (w : Work) :
    Kept w (afterRefundArkade env arkTxid w).1 := by
  unfold afterRefundArkade
  refine ((Kept.trans ?_ (setState .refunded _))).trans (say _ _)
  split
  · refine Kept.trans ?_ (touch _)
    exact ⟨rfl, id, id, id, id, [], rfl⟩
  · exact refl w

theorem kept_afterRefundNotLocallyPossible (reason : String) (w : Work) :
    Kept w (afterRefundNotLocallyPossible env reason w).1 := by
  refine Kept.trans ?_ (block _ _)
  exact memory w id

theorem kept_afterRefundFailed (now : ℤ) (error : String) (w : Work) :
    Kept w (afterRefundFailed env now error w).1 := by
  unfold afterRefundFailed
  dsimp only
  split
  · exact (say _ w).trans (fail _ _)
  · exact say _ w

theorem kept_afterLockupFate (fate : Except String LockupFate) (w : Work) :
    Kept w (afterLockupFate env fate w).1 := by
  unfold afterLockupFate
  dsimp only
  split
  · exact (stampLockupSpends _ w).trans (setState _ _)
  · split
    · exact kept_driveReceiveClaim w
    · split
      · exact refl w
      · exact kept_driveOnchain w
    · exact refl w

theorem kept_saveProjection (w : Work) : Kept w (saveProjection env w).1 := by
  unfold saveProjection
  split <;> exact refl w

theorem kept_afterDriven (w : Work) : Kept w (afterDriven env w).1 := by
  unfold afterDriven save
  split
  · split
    · exact refl w
    · exact kept_saveProjection w
  · exact refl w

theorem kept_afterGetRfqSwap (record : Except String (Option RfqSwapOrigin)) (w : Work) :
    Kept w (afterGetRfqSwap env record w).1 := by
  unfold afterGetRfqSwap
  split
  · exact say _ w
  · split
    · exact say _ w
    · split
      · exact say _ w
      · exact refl w

theorem kept_afterSaveRfqSwap (done : Except String Unit) (w : Work) :
    Kept w (afterSaveRfqSwap env done w).1 := by
  match done with
  | .error error => exact say _ w
  | .ok () => exact kept_saveProjection w

theorem kept_afterSaveSwap (done : Except String Unit) (w : Work) :
    Kept w (afterSaveSwap env done w).1 := by
  match done with
  | .error error => exact say _ w
  | .ok () => exact refl w

theorem resume_kept {w w' : Work} {await : Await} {answer : Answer} {next : Next}
    (h : resume env w await answer = some (w', next)) : Kept w w' := by
  unfold resume at h
  split at h
  case h_18 => cases h
  all_goals
    obtain rfl := congrArg Prod.fst (Option.some.inj h)
  · exact kept_afterGetContracts _ w
  · exact kept_afterRegisterLockup _ w
  · exact kept_afterLockupFate _ w
  · exact kept_afterLockupVtxos _ w
  · exact kept_afterClaimLockup _ _ w
  · exact kept_afterOnchainHtlc _ w
  · exact kept_afterClaimOnchain _ w
  · exact refl w
  · exact kept_afterCanRefundArkade _ _ w
  · exact kept_afterCanRefundArkade _ _ w
  · exact kept_afterRefundArkade _ w
  · exact kept_afterRefundNotLocallyPossible _ w
  · exact kept_afterRefundFailed _ _ w
  · exact kept_afterDriven w
  · exact kept_afterGetRfqSwap _ w
  · exact kept_afterSaveRfqSwap _ w
  · exact kept_afterSaveSwap _ w

end ArkadeSdk.Rfq
