import ArkadeSdk.Boltz.ClaimGuard
import Mathlib.Algebra.Order.BigOperators.Group.List
import Mathlib.Data.List.Perm.Subperm

/-! When the preimage of a swap is not disclosed for less than was agreed. -/

namespace ArkadeSdk.ClaimGuard

open WireFormat BatchTree Batch LabelledRun

section Stepped

/-- Every output is still there, and the wallet keeps what it took. -/
def Preserved (outputs outputs' : List Output) : Prop :=
  ∀ o ∈ outputs, ∃ o' ∈ outputs', o'.outpoint = o.outpoint ∧ o'.value = o.value ∧
    (o.spend.any (·.byWallet) → o'.spend.any (·.byWallet))

theorem Preserved.refl (outputs : List Output) : Preserved outputs outputs :=
  fun o ho ↦ ⟨o, ho, rfl, rfl, id⟩

/-- What anyone but the wallet does to the outputs: none is lost, none becomes one the wallet
took. -/
structure Kept (outputs outputs' : List Output) : Prop where
  nodup : (outputs.map (·.outpoint)).Nodup → (outputs'.map (·.outpoint)).Nodup
  kept : Preserved outputs outputs'
  taken : ∀ o' ∈ outputs', o'.spend.any (·.byWallet) →
    ∃ o ∈ outputs, o.outpoint = o'.outpoint ∧ o.value = o'.value ∧ o.spend.any (·.byWallet)

theorem Kept.refl (outputs : List Output) : Kept outputs outputs :=
  ⟨id, .refl outputs, fun o ho h ↦ ⟨o, ho, rfl, rfl, h⟩⟩

theorem Kept.append {outputs : List Output} {outpoint : Outpoint} (value : ℕ)
    (h : outputs.all (·.outpoint ≠ outpoint)) :
    Kept outputs (outputs ++ [⟨outpoint, value, none, none⟩]) where
  nodup hnodup := by
    rw [List.map_append, List.nodup_append]
    refine ⟨hnodup, List.nodup_singleton _, fun p hp q hq ↦ ?_⟩
    obtain ⟨o, ho, rfl⟩ := List.mem_map.mp hp
    obtain rfl := List.mem_singleton.mp hq
    exact of_decide_eq_true (List.all_eq_true.mp h o ho)
  kept o ho := ⟨o, List.mem_append_left _ ho, rfl, rfl, id⟩
  taken o ho hspend := by
    rcases List.mem_append.mp ho with ho | ho
    · exact ⟨o, ho, rfl, rfl, hspend⟩
    · obtain rfl := List.mem_singleton.mp ho
      cases hspend

theorem Kept.map {outputs : List Output} {f : Output → Output}
    (hf : ∀ o ∈ outputs, (f o).outpoint = o.outpoint ∧ (f o).value = o.value ∧
      ((f o).spend.any (·.byWallet) ↔ o.spend.any (·.byWallet))) :
    Kept outputs (outputs.map f) where
  nodup hnodup := by
    have heq : (outputs.map f).map (·.outpoint) = outputs.map (·.outpoint) := by
      rw [List.map_map]
      exact List.map_congr_left fun o ho ↦ (hf o ho).1
    rwa [heq]
  kept o ho := ⟨f o, List.mem_map_of_mem ho, (hf o ho).1, (hf o ho).2.1, (hf o ho).2.2.mpr⟩
  taken o' ho' hspend := by
    obtain ⟨o, ho, rfl⟩ := List.mem_map.mp ho'
    exact ⟨o, ho, (hf o ho).1.symm, (hf o ho).2.1.symm, (hf o ho).2.2.mp hspend⟩

theorem Kept.refund {w : World} {outpoints : List Outpoint} {spend : Spend}
    (hnodup : (w.outputs.map (·.outpoint)).Nodup) (h : w.Unspent outpoints = true)
    (hspend : spend.byWallet = false) :
    Kept w.outputs (w.outputs.map (·.tookBy outpoints spend)) := by
  refine .map fun o ho ↦ ?_
  unfold Output.tookBy
  split
  · rename_i hmem
    obtain ⟨o', ho', heq⟩ := List.any_eq_true.mp (List.all_eq_true.mp h _ hmem)
    obtain ⟨heq, hnone⟩ := (Bool.and_eq_true _ _).mp heq
    obtain rfl := List.inj_on_of_nodup_map hnodup ho' ho (of_decide_eq_true heq)
    refine ⟨rfl, rfl, ?_⟩
    simp [hspend, Option.isNone_iff_eq_none.mp hnone]
  · exact ⟨rfl, rfl, .rfl⟩

theorem Output.tookBy_spend {o : Output} {outpoints : List Outpoint} {spend spend' : Spend}
    (h : (o.tookBy outpoints spend).spend = some spend') :
    o.spend = some spend' ∨ o.outpoint ∈ outpoints ∧ spend' = spend := by
  unfold Output.tookBy at h
  split at h
  · rename_i hmem
    exact .inr ⟨hmem, (Option.some.inj h).symm⟩
  · exact .inl h

variable (decode : String → Option Bytes) (w : World)

/-- A spend that the input makes, through a leaf that has matured. -/
def World.Refunds (input : Input) (spend : Spend) : Prop :=
  ∃ leaf outpoints txid offchain pays, input = .refund leaf outpoints txid offchain pays ∧
    spend.byWallet = false ∧ ∃ p, w.Matured leaf p = true

inductive Stepped : Input → World → Prop
  | around {input : Input} {now height : ℕ} (receipts : List Receipt) {outputs : List Output} :
      ((w.outputs.map (·.outpoint)).Nodup → Kept w.outputs outputs) →
      (∀ o ∈ outputs, ∀ spend, o.spend = some spend →
        (∃ o ∈ w.outputs, o.spend = some spend) ∨ w.Refunds input spend) →
      w.now ≤ now → w.height ≤ height →
      Stepped input { w with now, height, outputs, receipts }
  | stands {input : Input} : Stepped input w
  | starts {input : Input} {method : Method} {expected : Option ℕ} :
      (∀ agreed, w.stored.agreed = some agreed → expected = some agreed) →
      (∀ swap, w.stored = .btcToArk swap → method = .claimArk) →
      Stepped input (w.startCall method expected)
  | discloses {input : Input} {lockedAmount : ℕ} : (∀ swap, w.stored ≠ .btcToArk swap) →
      (∀ agreed, w.stored.agreed = some agreed → agreed ≤ lockedAmount) →
      Stepped input { w with log := .disclosed lockedAmount :: w.log }
  | looks {i count : ℕ} {a : Answers} {method : Method} {expected : Option ℕ} {calls : List Call} :
      w.calls[i]? = some ⟨method, expected, .looking count⟩ → w.Truthful decode a = true →
      (∀ call ∈ calls, call ∈ w.calls ∨ ∃ count, call = ⟨method, expected, .looking count⟩ ∨
        call = ⟨method, expected, .claiming (spendableOf a.vtxos)
          (claimTxs method (spendableOf a.vtxos)) false none⟩ ∧ (covered expected a.vtxos ∨
            partiallyClaimed decode expected w.stored.toAddress w.stored.refund w.now a)) →
      Stepped (.look i a) { w.looked decode a expected with calls }
  | submits {i : ℕ} {method : Method} {expected : Option ℕ} {vtxos claimTx : List VirtualCoin}
      {todo : List (List VirtualCoin)} {failed : Bool} {txid : Option Txid} :
      ⟨method, expected, .claiming vtxos (claimTx :: todo) failed txid⟩ ∈ w.calls →
      Stepped (.submit i) { w with
        submitted := claimTx.map (·.outpoint) :: w.submitted
        log := .disclosed (total vtxos) :: w.log }
  | lands {outpoints : List Outpoint} {txid : Txid} {offchain : Bool} {pays : List Receipt} :
      outpoints ∈ w.submitted → w.Unspent outpoints = true →
      Stepped (.land outpoints txid offchain pays)
        { w.taking outpoints ⟨true, txid, offchain⟩ pays with
          log := w.tookEntries outpoints ++ w.log }
  | answered {i : ℕ} {method : Method} {expected : Option ℕ} {vtxos claimTx : List VirtualCoin}
      {todo : List (List VirtualCoin)} {failed failed' : Bool} {txid txid' first : Option Txid} :
      ⟨method, expected, .claiming vtxos (claimTx :: todo) failed txid⟩ ∈ w.calls →
      ((claimTx.all fun vtxo ↦ w.TakenByUs vtxo.outpoint) = true ∨ method = .claimVHTLC) →
      Stepped (.answer i first)
        (w.setCall i ⟨method, expected, .claiming vtxos todo failed' txid'⟩)
  | drops {input : Input} {i : ℕ} : Stepped input (w.dropCall i)
  | finishes {i : ℕ} {expected : Option ℕ} {vtxos : List VirtualCoin} {failed : Bool}
      {txid : Option Txid} :
      ⟨.claimArk, expected, .claiming vtxos [] failed txid⟩ ∈ w.calls →
      Stepped (.finish i) ((w.dropCall i).claimed txid)
  | signs {pending stored : ChainSwap} {a : Answers} : w.stored = .btcToArk stored →
      pending.CopyOf stored → w.Truthful decode a = true →
      assertClaimSideClaimed decode (some stored) pending w.now a = true →
      Stepped (.sign pending a) { w with
        seen := a.vtxos.map (·.outpoint) ++ w.seen
        log := .signed :: w.log }
  | asks {input : Input} {a : Answers} : w.Truthful decode a = true →
      Stepped input { w with seen := a.vtxos.map (·.outpoint) ++ w.seen }

variable {decode w}

theorem afterAttempts_claim {method : Method} {expected : Option ℕ} {partially : Bool}
    {vtxos vtxos' : List VirtualCoin}
    (h : afterAttempts method expected partially vtxos = .claim vtxos') :
    vtxos' = spendableOf vtxos ∧ (covered expected vtxos ∨ partially) := by
  unfold afterAttempts at h
  split at h
  · cases h
  · cases expected with
    | none =>
      cases h
      exact ⟨rfl, .inl rfl⟩
    | some expected =>
      dsimp only at h
      split at h <;> cases h
      rename_i hguard
      refine ⟨rfl, ?_⟩
      by_contra hneither
      obtain ⟨hcovered, hpartially⟩ := not_or.mp hneither
      refine hguard ((Bool.and_eq_true _ _).mpr ⟨?_, ?_⟩)
      · simpa using hpartially
      · simpa [covered] using hcovered

theorem attempt_claim {method : Method} {expected : Option ℕ} {toAddress : Option String}
    {refundLocktime : Option ℕ} {now count : ℕ} {a : Answers} {vtxos : List VirtualCoin}
    (h : attempt decode method expected toAddress refundLocktime now count a = .claim vtxos) :
    vtxos = spendableOf a.vtxos ∧ (covered expected a.vtxos ∨
      partiallyClaimed decode expected toAddress refundLocktime now a) := by
  unfold attempt at h
  dsimp only at h
  split at h
  · exact afterAttempts_claim h
  · cases h

theorem expectedReverse_eq {pending stored : ReverseSwap} (h : pending.CopyOf stored)
    (reread : Bool) :
    expectedReverseClaimAmount (if reread then some stored else none) pending =
      stored.onchainAmount := by
  unfold expectedReverseClaimAmount
  rw [h.onchainAmount]
  cases reread with
  | false => rfl
  | true => exact Option.or_self

theorem expectedClaim_eq {pending stored : ChainSwap} (h : pending.CopyOf stored) :
    expectedClaimAmount (some stored) pending = stored.acceptedQuoteAmount.or stored.amount := by
  unfold expectedClaimAmount
  rw [h.amount]
  cases hquote : stored.acceptedQuoteAmount with
  | some quote => simp [hquote]
  | none =>
    rw [h.acceptedQuoteAmount.resolve_right fun hne ↦ hne hquote]
    cases hamount : stored.amount <;> simp [hquote, hamount]

theorem mem_set_call {calls : List Call} {i : ℕ} {c call : Call} (h : call ∈ calls.set i c) :
    call ∈ calls ∨ call = c := List.mem_or_eq_of_mem_set h

theorem step_cases {w' : World} {input : Input} (h : step decode w input = some w') :
    Stepped decode w input w' := by
  cases input with
  | fund outpoint value =>
    obtain ⟨hfresh, h⟩ := Option.ite_none_right_eq_some.mp h
    cases h
    refine .around w.receipts (fun _ ↦ Kept.append value hfresh) (fun o ho spend hspend ↦ ?_)
      le_rfl le_rfl
    rcases List.mem_append.mp ho with ho | ho
    · exact .inl ⟨o, ho, hspend⟩
    · obtain rfl := List.mem_singleton.mp ho
      cases hspend
  | wait seconds blocks =>
    cases h
    exact .around w.receipts (fun _ ↦ .refl w.outputs) (fun o ho _ hspend ↦ .inl ⟨o, ho, hspend⟩)
      (Nat.le_add_right _ _) (Nat.le_add_right _ _)
  | unroll outpoint =>
    cases h
    refine .around w.receipts (fun _ ↦ Kept.map fun o _ ↦ ?_) (fun o' ho' spend hspend ↦ ?_)
      le_rfl le_rfl
    · split <;> exact ⟨rfl, rfl, .rfl⟩
    · obtain ⟨o, ho, rfl⟩ := List.mem_map.mp ho'
      refine .inl ⟨o, ho, ?_⟩
      split at hspend <;> exact hspend
  | refund leaf outpoints txid offchain pays =>
    obtain ⟨hguard, h⟩ := Option.ite_none_right_eq_some.mp h
    cases h
    obtain ⟨hunspent, hmatured⟩ := (Bool.and_eq_true _ _).mp ((Bool.and_eq_true _ _).mp hguard).1
    refine .around _ (fun hnodup ↦ .refund hnodup hunspent rfl) (fun o' ho' spend hspend ↦ ?_)
      le_rfl le_rfl
    obtain ⟨o, ho, rfl⟩ := List.mem_map.mp ho'
    rcases Output.tookBy_spend hspend with hspend | ⟨hmem, rfl⟩
    · exact .inl ⟨o, ho, hspend⟩
    · exact .inr ⟨leaf, outpoints, txid, offchain, pays, rfl, rfl, o.outpoint,
        List.all_eq_true.mp hmatured _ hmem⟩
  | pay receipt =>
    cases h
    exact .around _ (fun _ ↦ .refl w.outputs) (fun o ho _ hspend ↦ .inl ⟨o, ho, hspend⟩) le_rfl
      le_rfl
  | claimVHTLC pending reread =>
    simp only [step] at h
    split at h
    · rename_i stored hstored
      obtain ⟨hcopy, h⟩ := Option.ite_none_right_eq_some.mp h
      cases h
      refine .starts (fun agreed hagreed ↦ ?_) fun swap heq ↦ by rw [hstored] at heq; cases heq
      rw [expectedReverse_eq hcopy, ← hagreed, hstored]
      rfl
    · cases h
  | claimArk pending =>
    simp only [step] at h
    split at h
    · rename_i stored hstored
      obtain ⟨hcopy, h⟩ := Option.ite_none_right_eq_some.mp h
      split at h <;> cases h
      · refine .starts (fun agreed hagreed ↦ ?_) fun _ _ ↦ rfl
        rw [expectedClaim_eq hcopy, ← hagreed, hstored]
        rfl
      · exact .stands
    · cases h
  | claimBtc pending lockedAmount =>
    simp only [step] at h
    split at h
    · rename_i stored hstored
      obtain ⟨hcopy, h⟩ := Option.ite_none_right_eq_some.mp h
      split at h <;> cases h
      · rename_i hguard
        refine .discloses (fun swap heq ↦ by rw [hstored] at heq; cases heq) fun agreed hagreed ↦ ?_
        rw [expectedClaim_eq hcopy] at hguard
        rw [hstored] at hagreed
        simpa [show stored.acceptedQuoteAmount.or stored.amount = some agreed from hagreed]
          using hguard.2
      · exact .stands
    · cases h
  | look i a =>
    simp only [step] at h
    split at h
    · rename_i method expected count hcall
      obtain ⟨htruthful, h⟩ := Option.ite_none_right_eq_some.mp h
      split at h <;> cases h
      · exact .looks hcall htruthful fun call hmem ↦
          (mem_set_call hmem).imp_right fun heq ↦ ⟨_, .inl heq⟩
      · exact .looks hcall htruthful fun call hmem ↦ .inl (List.mem_of_mem_eraseIdx hmem)
      · rename_i vtxos hclaim
        obtain ⟨rfl, hcovered⟩ := attempt_claim hclaim
        exact .looks hcall htruthful fun call hmem ↦
          (mem_set_call hmem).imp_right fun heq ↦ ⟨0, .inr ⟨heq, hcovered⟩⟩
    · cases h
  | submit i =>
    simp only [step] at h
    split at h
    · rename_i hcall
      cases h
      exact .submits (List.mem_of_getElem? hcall)
    · cases h
  | land outpoints txid offchain pays =>
    obtain ⟨⟨hmem, hunspent⟩, h⟩ := Option.ite_none_right_eq_some.mp h
    cases h
    exact .lands hmem hunspent
  | answer i txid =>
    simp only [step] at h
    split at h
    · rename_i hcall
      obtain ⟨htaken, h⟩ := Option.ite_none_right_eq_some.mp h
      cases h
      exact .answered (List.mem_of_getElem? hcall) (.inl htaken)
    · rename_i hcall
      cases h
      exact .answered (List.mem_of_getElem? hcall) (.inr rfl)
    · cases h
      exact .drops
    · cases h
  | finish i =>
    simp only [step] at h
    split at h
    · cases h
      exact .drops
    · rename_i hcall
      cases h
      exact .finishes (List.mem_of_getElem? hcall)
    · cases h
  | drop i =>
    cases h
    exact .drops
  | sign pending a =>
    simp only [step] at h
    split at h
    · rename_i stored hstored
      obtain ⟨⟨hcopy, htruthful⟩, h⟩ := Option.ite_none_right_eq_some.mp h
      split at h <;> cases h
      · rename_i hassert
        exact .signs hstored hcopy htruthful hassert
      · exact .asks htruthful
    · cases h

end Stepped

/-- The spends told of look like refunds: the locktime is reached on the clock and at the height
told, and one of them has no ark tx, or one that paid the wallet less than it took. -/
structure ShownAsRefund (w : World) (a : Answers) (spent : List VirtualCoin) : Prop where
  reached : refundLocktimeReached w.stored.refund w.now a.height = true
  short : ∃ vtxo ∈ spent, ∀ txid, vtxo.arkTxId = some txid →
    txid = "" ∨ receivedByTx a.received txid < takenByTx spent txid

section Inferred

variable {decode : String → Option Bytes} {w : World} {a : Answers} {spent : List VirtualCoin}

theorem ShownAsRefund.notIntoOurWallet (h : ShownAsRefund w a spent) (toAddress : Option String) :
    spentIntoOurWallet decode toAddress a spent = false := by
  obtain ⟨vtxo, hmem, hshort⟩ := h.short
  unfold spentIntoOurWallet
  split
  · rfl
  rename_i hids
  split
  · rfl
  refine List.all_eq_false.mpr ?_
  have hid : VirtualFacts.nonEmpty vtxo.arkTxId = true := by
    by_contra hempty
    exact hids (List.any_eq_true.mpr ⟨vtxo, hmem, by simp [hempty]⟩)
  cases htxid : vtxo.arkTxId with
  | none => simp [htxid, VirtualFacts.nonEmpty] at hid
  | some txid =>
    refine ⟨txid, List.mem_filterMap.mpr ⟨vtxo, hmem, htxid⟩, ?_⟩
    have hne : txid ≠ "" := by simpa [htxid, VirtualFacts.nonEmpty] using hid
    simpa using (hshort txid htxid).resolve_left hne

theorem ShownAsRefund.notClaimedByUs (h : ShownAsRefund w a spent) (toAddress : Option String) :
    lockupClaimedByUs decode toAddress w.stored.refund w.now a spent = false := by
  unfold lockupClaimedByUs
  rw [h.notIntoOurWallet, h.reached]
  simp

theorem partiallyClaimed_iff {expected : Option ℕ} {toAddress : Option String}
    {refundLocktime : Option ℕ} {now : ℕ} :
    partiallyClaimed decode expected toAddress refundLocktime now a = true ↔
      covered expected a.vtxos = false ∧
        lockupClaimedByUs decode toAddress refundLocktime now a (spentOf a.vtxos) = true := by
  unfold partiallyClaimed
  split <;> simp_all

theorem ne_nil_of_claimedByUs {toAddress : Option String} {refundLocktime : Option ℕ} {now : ℕ}
    (h : lockupClaimedByUs decode toAddress refundLocktime now a spent = true) : spent ≠ [] := by
  rintro rfl
  cases h

end Inferred

def Disclosed (log : List Entry) : Prop := ∃ lockedAmount, .disclosed lockedAmount ∈ log

/-- Spends are taken for own claims after a disclosure only, and the first disclosure is for
outputs worth the agreed amount. -/
def DisclosedWhole (agreed : ℕ) : Entry → List Entry → Prop
  | .attributed, before => Disclosed before
  | .disclosed lockedAmount, before => Disclosed before ∨ agreed ≤ lockedAmount
  | _, _ => True

/-- As long as no claim was handed over, spends shown beside less than the agreed amount look like
refunds. -/
def RefundsShown (w : World) : Input → Prop
  | .look _ a => covered w.stored.agreed a.vtxos = false → spentOf a.vtxos ≠ [] →
      w.submitted = [] → ShownAsRefund w a (spentOf a.vtxos)
  | _ => True

section Preimage

variable {decode : String → Option Bytes} {stored : Swap} {delay : RelativeTimelock}
  {agreed : ℕ} {w t : World} {input : Input}

structure Inv (agreed : ℕ) (w : World) : Prop where
  agreed_eq : w.stored.agreed = some agreed
  expected : ∀ call ∈ w.calls, call.expected = some agreed
  claiming : ∀ call ∈ w.calls, ∀ vtxos todo failed txid,
    call.phase = .claiming vtxos todo failed txid → Disclosed w.log ∨ agreed ≤ total vtxos
  submitted : w.submitted ≠ [] → Disclosed w.log
  log : Chronicle (DisclosedWhole agreed) w.log

theorem inv_start (h : stored.agreed = some agreed) : Inv agreed (.start stored delay) where
  agreed_eq := h
  expected _ hcall := nomatch hcall
  claiming _ hcall := nomatch hcall
  submitted hne := absurd rfl hne
  log := trivial

theorem Disclosed.cons {log : List Entry} (h : Disclosed log) (entry : Entry) :
    Disclosed (entry :: log) := h.imp fun _ ↦ List.mem_cons_of_mem _

theorem Disclosed.append {log : List Entry} (h : Disclosed log) (entries : List Entry) :
    Disclosed (entries ++ log) := h.imp fun _ ↦ List.mem_append_right _

theorem Inv.disclosed (h : Inv agreed w) {lockedAmount : ℕ} {submitted : List (List Outpoint)}
    (hwhole : Disclosed w.log ∨ agreed ≤ lockedAmount) :
    Inv agreed { w with submitted, log := .disclosed lockedAmount :: w.log } where
  agreed_eq := h.agreed_eq
  expected := h.expected
  claiming _ _ _ _ _ _ _ := .inl ⟨lockedAmount, List.mem_cons_self⟩
  submitted _ := ⟨lockedAmount, List.mem_cons_self⟩
  log := ⟨hwhole, h.log⟩

/-- Calls come and go, as long as each that claims has enough or comes late. -/
theorem Inv.withCalls (h : Inv agreed w) {calls : List Call}
    (hcalls : ∀ call ∈ calls, call ∈ w.calls ∨ call.expected = some agreed ∧
      ∀ vtxos todo failed txid, call.phase = .claiming vtxos todo failed txid →
        Disclosed w.log ∨ agreed ≤ total vtxos) : Inv agreed { w with calls } where
  agreed_eq := h.agreed_eq
  expected call hcall := (hcalls call hcall).elim (h.expected call) And.left
  claiming call hcall := (hcalls call hcall).elim (h.claiming call) And.right
  submitted := h.submitted
  log := h.log

theorem Inv.attributed (h : Inv agreed w) {i : ℕ} {a : Answers}
    (hok : RefundsShown w (.look i a))
    (hpartially : partiallyClaimed decode (some agreed) w.stored.toAddress w.stored.refund w.now
      a = true) : Disclosed w.log := by
  obtain ⟨hcovered, hclaimed⟩ := partiallyClaimed_iff.mp hpartially
  by_contra hnone
  have hfirst : w.submitted = [] := by
    by_contra hne
    exact hnone (h.submitted hne)
  have hrefund : ShownAsRefund w a (spentOf a.vtxos) :=
    hok (h.agreed_eq ▸ hcovered) (ne_nil_of_claimedByUs hclaimed) hfirst
  rw [hrefund.notClaimedByUs] at hclaimed
  cases hclaimed

theorem Inv.looked (h : Inv agreed w) {i : ℕ} {a : Answers} (hok : RefundsShown w (.look i a)) :
    Inv agreed (w.looked decode a (some agreed)) := by
  unfold World.looked
  split
  · rename_i hpartially
    have hdisclosed : Disclosed w.log := h.attributed hok hpartially
    exact {
      agreed_eq := h.agreed_eq
      expected := h.expected
      claiming _ _ _ _ _ _ _ := .inl (hdisclosed.cons _)
      submitted _ := hdisclosed.cons _
      log := ⟨hdisclosed, h.log⟩ }
  · exact { h with }

theorem inv_step (h : Inv agreed w) (hok : RefundsShown w input)
    (hstep : step decode w input = some t) : Inv agreed t := by
  cases step_cases hstep with
  | around => exact { h with }
  | stands => exact h
  | starts hexpected _ =>
    refine h.withCalls fun call hcall ↦ (List.mem_append.mp hcall).imp_right fun hnew ↦ ?_
    obtain rfl := List.mem_singleton.mp hnew
    exact ⟨hexpected agreed h.agreed_eq, nofun⟩
  | discloses _ hwhole => exact h.disclosed (.inr (hwhole agreed h.agreed_eq))
  | @looks i count a method expected calls hcall _ hcalls =>
    obtain rfl : expected = some agreed := h.expected _ (List.mem_of_getElem? hcall)
    refine (h.looked hok).withCalls fun call hmem ↦ (hcalls call hmem).imp_right ?_
    rintro ⟨count, rfl | ⟨rfl, hcovered⟩⟩
    · exact ⟨rfl, nofun⟩
    · refine ⟨rfl, fun vtxos todo failed txid hphase ↦ ?_⟩
      cases hphase
      rcases hcovered with hcovered | hpartially
      · exact .inr (of_decide_eq_true hcovered)
      · refine .inl ?_
        rw [World.looked, if_pos hpartially]
        exact (h.attributed hok hpartially).cons _
  | submits hcall => exact h.disclosed (h.claiming _ hcall _ _ _ _ rfl)
  | lands hmem _ =>
    have hdisclosed : Disclosed w.log := h.submitted (List.ne_nil_of_mem hmem)
    exact {
      agreed_eq := h.agreed_eq
      expected := h.expected
      claiming _ _ _ _ _ _ _ := .inl (hdisclosed.append _)
      submitted _ := hdisclosed.append _
      log := Chronicle.append (fun e he _ ↦ by
        obtain ⟨o, -, rfl⟩ := List.mem_map.mp he
        trivial) h.log }
  | answered hcall _ =>
    refine h.withCalls fun call hmem ↦ (mem_set_call hmem).imp_right ?_
    rintro rfl
    have hexpected := h.expected _ hcall
    refine ⟨hexpected, fun vtxos todo failed txid hphase ↦ ?_⟩
    cases hphase
    exact h.claiming _ hcall _ _ _ _ rfl
  | drops => exact h.withCalls fun call hmem ↦ .inl (List.mem_of_mem_eraseIdx hmem)
  | finishes =>
    refine { h.withCalls fun call hmem ↦ .inl (List.mem_of_mem_eraseIdx hmem) with
      agreed_eq := ?_ }
    have hagreed := h.agreed_eq
    unfold World.claimed World.dropCall
    cases hswap : w.stored <;> rw [hswap] at hagreed <;> exact hagreed
  | signs =>
    exact {
      agreed_eq := h.agreed_eq
      expected := h.expected
      claiming call hcall vtxos todo failed txid hphase :=
        (h.claiming call hcall vtxos todo failed txid hphase).imp_left (·.cons _)
      submitted hne := (h.submitted hne).cons _
      log := ⟨trivial, h.log⟩ }
  | asks => exact { h with }

theorem preimage_guarded (hagreed : stored.agreed = some agreed)
    (h : Run (step decode) RefundsShown (.start stored delay) w) :
    Chronicle (DisclosedWhole agreed) w.log :=
  (h.invariant (fun _ _ _ ↦ inv_step) (inv_start hagreed)).log

end Preimage

/-- What a transaction took from the lockup. -/
def World.takenBy (w : World) (txid : Txid) : ℕ :=
  ((w.outputs.filter fun o ↦ o.spend.any fun s ↦ s.offchain && s.txid = txid).map (·.value)).sum

/-- What the scripts of the wallet got from a transaction. -/
def World.paidBy (w : World) (txid : Txid) : ℕ :=
  ((w.receipts.filter (·.txid = txid)).map (·.value)).sum

/-- The refunds made offchain paid the wallet less than they took. -/
def World.RefundsElsewhere (w : World) : Prop :=
  ∀ o ∈ w.outputs, ∀ spend, o.spend = some spend → spend.byWallet = false →
    spend.offchain = true → w.paidBy spend.txid < w.takenBy spend.txid

/-- Of a transaction that spent an output the answers tell all that it took, and the chain tip
told is the current one. -/
structure Answers.Current (a : Answers) (w : World) (spent : List VirtualCoin) : Prop where
  whole : ∀ vtxo ∈ spent, ∀ txid, vtxo.arkTxId = some txid → w.takenBy txid ≤ takenByTx spent txid
  tip : ∀ height, a.height = some height → height = w.height

/-- The counterparty refunds at the absolute locktime, and not to the wallet; until it hands over
a claim, the wallet is told the current state. -/
def RefundsRight (w : World) : Input → Prop
  | .refund leaf _ _ _ _ => leaf = .refundWithoutReceiver
  | .look _ a => w.submitted = [] → w.RefundsElsewhere ∧ a.Current w (spentOf a.vtxos)
  | _ => True

/-- Until a claim is handed over all spends are refunds, and refunds were made when the locktime
was reached. -/
structure OnlyRefunds (w : World) : Prop where
  refunds : w.submitted = [] → ∀ o ∈ w.outputs, ∀ spend, o.spend = some spend →
    spend.byWallet = false
  reached : ∀ o ∈ w.outputs, ∀ spend, o.spend = some spend → spend.byWallet = false →
    refundLocktimeReached w.stored.refund w.now (some w.height) = true

section Refunds

variable {decode : String → Option Bytes} {stored : Swap} {delay : RelativeTimelock}
  {w t : World} {input : Input} {a : Answers}

theorem refundLocktimeReached_some {locktime : Option ℕ} {now height : ℕ} :
    refundLocktimeReached locktime now (some height) = true ↔
      ∀ n, locktime = some n → if isBlockHeightLocktime n then n ≤ height else n ≤ now := by
  cases locktime with
  | none => simp [refundLocktimeReached]
  | some n =>
    simp only [refundLocktimeReached, isRefundLocktimeReached, Option.isNone_some, Bool.and_false,
      Bool.false_eq_true, if_false, Option.any_some, Option.some.injEq, forall_eq']
    split <;> simp

theorem refundLocktimeReached_mono {locktime : Option ℕ} {now now' height height' : ℕ}
    (hnow : now ≤ now') (hheight : height ≤ height')
    (h : refundLocktimeReached locktime now (some height) = true) :
    refundLocktimeReached locktime now' (some height') = true := by
  refine refundLocktimeReached_some.mpr fun n hn ↦ ?_
  have hreached := refundLocktimeReached_some.mp h n hn
  split at hreached
  · rename_i hblocks
    rw [if_pos hblocks]
    exact hreached.trans hheight
  · rename_i hseconds
    rw [if_neg hseconds]
    exact hreached.trans hnow

/-- A chain tip that could not be read leaves a locktime in blocks reached. -/
theorem refundLocktimeReached_tip {locktime height : Option ℕ} {now tip : ℕ}
    (htip : ∀ n, height = some n → n = tip)
    (h : refundLocktimeReached locktime now (some tip) = true) :
    refundLocktimeReached locktime now height = true := by
  cases height with
  | some n => rwa [htip n rfl]
  | none =>
    cases locktime with
    | none => rfl
    | some n =>
      have hreached := refundLocktimeReached_some.mp h n rfl
      cases hblocks : isBlockHeightLocktime n with
      | true => simp [refundLocktimeReached, hblocks]
      | false => simpa [refundLocktimeReached, isRefundLocktimeReached, hblocks] using hreached

theorem receivedByTx_le (htruthful : w.Truthful decode a = true) (txid : Txid) :
    receivedByTx a.received txid ≤ w.paidBy txid := by
  simp only [World.Truthful, Bool.and_eq_true, decide_eq_true_eq] at htruthful
  obtain ⟨⟨⟨-, hreceived⟩, hnodup⟩, -⟩ := htruthful
  have hsub : a.received ⊆ w.receipts := fun r hr ↦ by
    have hr := List.all_eq_true.mp hreceived r hr
    simp only [Bool.and_eq_true, decide_eq_true_eq] at hr
    exact hr.1
  obtain ⟨l, hperm, hl⟩ := List.subperm_of_subset hnodup hsub
  calc receivedByTx a.received txid
      = ((l.filter (·.txid = txid)).map (·.value)).sum :=
        ((hperm.filter _).map _).sum_eq.symm
    _ ≤ w.paidBy txid :=
        ((hl.filter _).map _).sum_le_sum fun _ _ ↦ Nat.zero_le _

/-- A refund that is told of whole looks like one. -/
theorem OnlyRefunds.shown (h : OnlyRefunds w) (htruthful : w.Truthful decode a = true)
    (helsewhere : w.RefundsElsewhere) {spent : List VirtualCoin} (hcurrent : a.Current w spent)
    {vtxo : VirtualCoin} (hvtxo : vtxo ∈ spent) (hmem : vtxo ∈ a.vtxos)
    (hterminal : vtxo.hasTerminalSpend = true)
    (hforeign : ∀ o ∈ w.outputs, o.outpoint = vtxo.outpoint → ∀ spend, o.spend = some spend →
      spend.byWallet = false) : ShownAsRefund w a spent := by
  have htold := htruthful
  simp only [World.Truthful, Bool.and_eq_true] at htold
  obtain ⟨o, ho, htells⟩ := List.any_eq_true.mp (List.all_eq_true.mp htold.1.1.1.1 vtxo hmem)
  simp only [Output.Tells, hterminal, Bool.not_true, Bool.false_or, Bool.and_eq_true,
    decide_eq_true_eq] at htells
  obtain ⟨⟨houtpoint, -⟩, hspends⟩ := htells
  obtain ⟨spend, hspend, hid⟩ := Option.any_eq_true _ _ |>.mp hspends
  have hother := hforeign o ho houtpoint spend hspend
  refine ⟨refundLocktimeReached_tip hcurrent.tip (h.reached o ho spend hspend hother), vtxo, hvtxo,
    fun txid htxid ↦ ?_⟩
  by_cases hempty : txid = ""
  · exact .inl hempty
  refine .inr ?_
  have hnamed : VirtualFacts.nonEmpty vtxo.arkTxId = true := by
    simp [htxid, VirtualFacts.nonEmpty, hempty]
  rw [hnamed, htxid] at hid
  simp only [Bool.not_true, Bool.false_or, Bool.and_eq_true, decide_eq_true_eq] at hid
  obtain ⟨hoffchain, hid⟩ := hid
  obtain rfl := Option.some.inj hid
  calc receivedByTx a.received spend.txid
      ≤ w.paidBy spend.txid := receivedByTx_le htruthful _
    _ < w.takenBy spend.txid := helsewhere o ho spend hspend hother hoffchain
    _ ≤ takenByTx spent spend.txid := hcurrent.whole vtxo hvtxo _ htxid

theorem OnlyRefunds.same (h : OnlyRefunds w) (houtputs : t.outputs = w.outputs)
    (hnow : t.now = w.now) (hheight : t.height = w.height)
    (hrefund : t.stored.refund = w.stored.refund)
    (hsubmitted : t.submitted = [] → w.submitted = []) : OnlyRefunds t where
  refunds hnone := houtputs ▸ h.refunds (hsubmitted hnone)
  reached := by
    rw [houtputs, hnow, hheight, hrefund]
    exact h.reached

theorem World.claimed_refund (txid : Option Txid) :
    (w.claimed txid).stored.refund = w.stored.refund := by
  unfold World.claimed
  cases w.stored <;> rfl

theorem onlyRefunds_step (hleaf : ∀ leaf outpoints txid offchain pays,
      input = .refund leaf outpoints txid offchain pays → leaf = .refundWithoutReceiver)
    (h : OnlyRefunds w) (hstep : step decode w input = some t) : OnlyRefunds t := by
  cases step_cases hstep with
  | around receipts _ hspent hnow hheight =>
    constructor
    · intro hnone o ho spend hspend
      rcases hspent o ho spend hspend with ⟨o', ho', hspend'⟩ | ⟨_, _, _, _, _, -, hother, -⟩
      · exact h.refunds hnone o' ho' spend hspend'
      · exact hother
    · intro o ho spend hspend hother
      rcases hspent o ho spend hspend with ⟨o', ho', hspend'⟩ | ⟨_, _, _, _, _, hinput, -, p, hm⟩
      · exact refundLocktimeReached_mono hnow hheight (h.reached o' ho' spend hspend' hother)
      · rw [hleaf _ _ _ _ _ hinput] at hm
        exact refundLocktimeReached_mono hnow hheight hm
  | stands => exact h
  | lands hmem _ =>
    constructor
    · exact fun hnone ↦ absurd hnone (List.ne_nil_of_mem hmem)
    · intro o' ho' spend hspend hother
      obtain ⟨o, ho, rfl⟩ := List.mem_map.mp ho'
      rcases Output.tookBy_spend hspend with hspend | ⟨-, rfl⟩
      · exact h.reached o ho spend hspend hother
      · cases hother
  | submits => exact h.same rfl rfl rfl rfl nofun
  | finishes => exact h.same rfl rfl rfl (World.claimed_refund _) id
  | _ => exact h.same rfl rfl rfl rfl id

theorem look_truthful {i : ℕ} (h : step decode w (.look i a) = some t) :
    w.Truthful decode a = true := by
  simp only [step] at h
  split at h
  · exact (Option.ite_none_right_eq_some.mp h).1
  · cases h

/-- Where the counterparty refunds in time and to itself, what the looks are told looks like
refunds until a claim is handed over. -/
theorem run_refundsShown (h : Run (step decode) RefundsRight (.start stored delay) w) :
    Run (step decode) RefundsShown (.start stored delay) w := by
  refine h.strengthen (P := OnlyRefunds) (fun w input t hrefunds hok hstep ↦ ?_)
    (fun w input t hrefunds hok hstep ↦ ?_) ⟨nofun, nofun⟩
  · exact onlyRefunds_step (fun leaf _ _ _ _ heq ↦ by subst heq; exact hok) hrefunds hstep
  · cases input with
    | look i a =>
      intro _ hne hfirst
      obtain ⟨helsewhere, hcurrent⟩ := hok hfirst
      obtain ⟨vtxo, hvtxo⟩ := List.exists_mem_of_ne_nil _ hne
      obtain ⟨hmem, hterminal⟩ := List.mem_filter.mp hvtxo
      refine hrefunds.shown (look_truthful hstep) helsewhere hcurrent hvtxo hmem hterminal ?_
      exact fun o ho _ ↦ hrefunds.refunds hfirst o ho
    | _ => trivial

end Refunds

section Sample

def sampleDecode (address : String) : Option Bytes :=
  if address = "ark1wallet" then some [1] else none

def sampleReverse : Swap := .reverse ⟨some 100000, some 800⟩

def sampleDelay : RelativeTimelock := ⟨144, .blocks⟩

/-- A coin of the transaction `txid`, swept or not, and spent by the ark tx `arkTxId` if any. -/
def sampleCoin (txid : Txid) (value : ℕ) (swept : Bool) (arkTxId : Option Txid) : VirtualCoin :=
  ⟨⟨some arkTxId.isSome, some swept, arkTxId, none, none, none, none, none⟩, ⟨txid, 0⟩, value,
    arkTxId⟩

/-- The counterparty refunds a dust lockup to the wallet after the locktime and makes another. -/
def dustRun : List Input :=
  [.wait 0 800, .fund ⟨"a", 0⟩ 330,
    .refund .refundWithoutReceiver [⟨"a", 0⟩] "refund" true [⟨[1], "refund", 0, 330⟩],
    .fund ⟨"b", 0⟩ 330, .claimVHTLC ⟨some 100000, some 800⟩ true,
    .look 0 ⟨[sampleCoin "a" 330 false (some "refund"), sampleCoin "b" 330 false none],
      "ark1wallet", [⟨[1], "refund", 0, 330⟩], some 800⟩,
    .submit 0]

theorem dust_refund_disarms : ∃ w,
    exec (step sampleDecode) (.start sampleReverse sampleDelay) dustRun = some w ∧
      w.log = [.disclosed 330, .attributed] ∧ ¬Chronicle (DisclosedWhole 100000) w.log := by
  refine ⟨_, rfl, rfl, fun h ↦ ?_⟩
  rcases h.1 with ⟨lockedAmount, hmem⟩ | hle
  · have hmem : Entry.disclosed lockedAmount ∈ [Entry.attributed] := hmem
    simp at hmem
  · exact absurd hle (by decide)

/-- A split lockup, shown piecemeal and claimed in two calls: the first is interrupted between
the live and the swept output. -/
def splitRun : List Input :=
  [.fund ⟨"a", 0⟩ 60000, .fund ⟨"b", 0⟩ 40000, .claimVHTLC ⟨some 100000, some 800⟩ true,
    .look 0 ⟨[sampleCoin "a" 60000 false none], "ark1wallet", [], none⟩,
    .look 0 ⟨[sampleCoin "a" 60000 false none, sampleCoin "b" 40000 true none], "ark1wallet", [],
      some 0⟩,
    .submit 0, .land [⟨"a", 0⟩] "claim" true [⟨[1], "claim", 0, 60000⟩], .drop 0,
    .claimVHTLC ⟨some 100000, some 800⟩ false,
    .look 0 ⟨[sampleCoin "a" 60000 false (some "claim"), sampleCoin "b" 40000 true none],
      "ark1wallet", [⟨[1], "claim", 0, 60000⟩], some 0⟩,
    .submit 0, .land [⟨"b", 0⟩] "batch" false [⟨[1], "leaf", 0, 40000⟩], .answer 0 (some "batch"),
    .finish 0]

/-- A look that tells of enough or of no spend, or comes after a claim. -/
def refundsShown (w : World) : Input → Bool
  | .look _ a => covered w.stored.agreed a.vtxos || (spentOf a.vtxos).isEmpty ||
      !w.submitted.isEmpty
  | _ => true

theorem refundsShown_of_check (w : World) (input : Input) (h : refundsShown w input = true) :
    RefundsShown w input := by
  cases input with
  | look i a =>
    intro hcovered hne hfirst
    simp [refundsShown, hcovered, hne, hfirst] at h
  | _ => trivial

theorem preimage_guarded_split : ∃ w,
    exec (step sampleDecode) (.start sampleReverse sampleDelay) splitRun = some w ∧
      w.log = [.took ⟨"b", 0⟩ 40000, .disclosed 40000, .attributed, .took ⟨"a", 0⟩ 60000,
        .disclosed 100000] ∧ Chronicle (DisclosedWhole 100000) w.log := by
  obtain ⟨w, hw, hlog⟩ : ∃ w,
      exec (step sampleDecode) (.start sampleReverse sampleDelay) splitRun = some w ∧
        w.log = [.took ⟨"b", 0⟩ 40000, .disclosed 40000, .attributed, .took ⟨"a", 0⟩ 60000,
          .disclosed 100000] := ⟨_, rfl, rfl⟩
  have hrun : Run (step sampleDecode) RefundsShown (.start sampleReverse sampleDelay) w :=
    run_of_exec hw (along_of_check refundsShown_of_check rfl)
  exact ⟨w, hw, hlog, preimage_guarded rfl hrun⟩

end Sample

end ArkadeSdk.ClaimGuard
