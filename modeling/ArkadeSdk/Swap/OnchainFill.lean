import ArkadeSdk.Swap.OnchainHtlc

/-! The fill of an onchain send as the chain source tells it: the preimage in the witness of a
spend, and when a classification tells that a known fill was spent. -/

namespace ArkadeSdk.Rfq

open WireFormat

/-- The injected L1 backend. -/
structure ChainSource where
  getScriptUtxos : Bytes → List ChainUtxo
  getSpendingTx : Outpoint → Option String
  getMtp : ℤ

/-- The witnesses of a raw transaction, which not every text is, and its id. -/
structure FillLibrary where
  hex : HexCodec.Codec
  sha256 : Bytes → Bytes
  rawWitnesses : Bytes → Option (List (List Bytes))
  txid : String → Except String String

section Reading

variable (lib : FillLibrary)

def isPreimage (paymentHash : String) (item : Bytes) : Bool :=
  item.length = 32 ∧ lib.hex.encode (lib.sha256 item) = paymentHash

def witnessesOf (txHex : String) : List (List Bytes) :=
  ((lib.hex.decode txHex).bind lib.rawWitnesses).getD []

def extractPreimage (txHex paymentHash : String) : Option Bytes :=
  (witnessesOf lib txHex).findSome? fun stack ↦ stack.find? (isPreimage lib paymentHash)

def readSpend (paymentHash txHex : String) : Except String SpendingTx := do
  let txid ← lib.txid txHex
  return ⟨txid, extractPreimage lib txHex paymentHash⟩

variable (chain : ChainSource) (htlc : OnchainHtlc) (minConfirmations : ℤ)
  (funding : Option Outpoint)

/-- What a classification reads: the spend of the recorded outpoint only where no output is
listed. -/
def ChainSource.view : Except String ChainView := do
  let utxos := chain.getScriptUtxos htlc.pkScript
  let spending ← match utxos, funding.bind chain.getSpendingTx with
    | [], some txHex => some <$> readSpend lib htlc.paymentHash txHex
    | _, _ => pure none
  return ⟨utxos, spending, chain.getMtp⟩

def ChainSource.classifyOnchainHtlc : Except String OnchainHtlcPhase := do
  let view ← chain.view lib htlc funding
  return Rfq.classifyOnchainHtlc view htlc minConfirmations funding

end Reading

section Specification

variable (lib : FillLibrary) (chain : ChainSource) (htlc : OnchainHtlc) (minConfirmations : ℤ)
  (funding : Option Outpoint)

def RevealsPreimage (txHex paymentHash : String) (item : Bytes) : Prop :=
  ∃ stack ∈ witnessesOf lib txHex, item ∈ stack ∧ isPreimage lib paymentHash item

/-- The chain shows the recorded outpoint spent, by the transaction with this id. -/
def SpentBy (txHex txid : String) : Prop :=
  funding.bind chain.getSpendingTx = some txHex ∧ lib.txid txHex = .ok txid

/-- A known fill that was spent is told as claimed, with a preimage that the spend reveals, or as
swept where it reveals none. -/
def SpendTold : Prop :=
  ∀ txHex txid, SpentBy lib chain funding txHex txid →
    ((∃ item, RevealsPreimage lib txHex htlc.paymentHash item) →
      ∃ item, RevealsPreimage lib txHex htlc.paymentHash item ∧
        chain.classifyOnchainHtlc lib htlc minConfirmations funding = .ok (.claimed txid item)) ∧
    ((¬∃ item, RevealsPreimage lib txHex htlc.paymentHash item) →
      chain.classifyOnchainHtlc lib htlc minConfirmations funding = .ok (.swept txid))

/-- The order in which the outputs are listed does not matter. -/
def OrderFree : Prop :=
  ∀ utxos : List ChainUtxo, utxos.Perm (chain.getScriptUtxos htlc.pkScript) →
    ({ chain with getScriptUtxos := fun _ ↦ utxos } : ChainSource).classifyOnchainHtlc lib htlc
        minConfirmations funding =
      chain.classifyOnchainHtlc lib htlc minConfirmations funding

end Specification

section Told

variable {lib : FillLibrary} {chain : ChainSource} {htlc : OnchainHtlc} {minConfirmations : ℤ}
  {funding : Option Outpoint}

theorem extractPreimage_reveals {txHex paymentHash : String} {item : Bytes}
    (h : extractPreimage lib txHex paymentHash = some item) :
    RevealsPreimage lib txHex paymentHash item := by
  obtain ⟨stack, hstack, hfind⟩ := List.exists_of_findSome?_eq_some h
  exact ⟨stack, hstack, List.mem_of_find?_eq_some hfind, List.find?_some hfind⟩

theorem extractPreimage_eq_none {txHex paymentHash : String} :
    extractPreimage lib txHex paymentHash = none ↔
      ¬∃ item, RevealsPreimage lib txHex paymentHash item := by
  constructor
  · rintro h ⟨item, stack, hstack, hitem, his⟩
    have hfind := List.findSome?_eq_none_iff.mp h stack hstack
    exact absurd his (by simpa using List.find?_eq_none.mp hfind item hitem)
  · intro h
    cases hextract : extractPreimage lib txHex paymentHash with
    | none => rfl
    | some item => exact absurd ⟨item, extractPreimage_reveals hextract⟩ h

theorem classifyOnchainHtlc_unlisted {txHex txid : String}
    (hnone : chain.getScriptUtxos htlc.pkScript = [])
    (hspent : SpentBy lib chain funding txHex txid) :
    chain.classifyOnchainHtlc lib htlc minConfirmations funding =
      .ok (match extractPreimage lib txHex htlc.paymentHash with
        | some item => .claimed txid item
        | none => .swept txid) := by
  obtain ⟨hread, htxid⟩ := hspent
  obtain ⟨outpoint, hfunding, -⟩ := Option.bind_eq_some_iff.mp hread
  have hview : chain.view lib htlc funding =
      .ok ⟨[], some ⟨txid, extractPreimage lib txHex htlc.paymentHash⟩, chain.getMtp⟩ := by
    simp only [ChainSource.view, hnone, hread, readSpend, htxid]
    rfl
  simp only [ChainSource.classifyOnchainHtlc, hview]
  cases hextract : extractPreimage lib txHex htlc.paymentHash <;>
    simp [Rfq.classifyOnchainHtlc, largest, hfunding, bind, Except.bind, pure,
      Except.pure]

/-- What the largest of the listed outputs is told to be. -/
def listedPhase (mtp refundLocktime minConfirmations : ℤ) (best : ChainUtxo) :
    OnchainHtlcPhase :=
  if best.confirmations < minConfirmations then .awaiting_confirmations best
  else if mtp ≥ refundLocktime then .refundable best
  else .claimable best

theorem listedPhase_utxo (mtp refundLocktime minConfirmations : ℤ) (best : ChainUtxo) :
    (listedPhase mtp refundLocktime minConfirmations best).utxo = some best := by
  unfold listedPhase
  split
  · rfl
  · split <;> rfl

theorem classifyOnchainHtlc_listed {best : ChainUtxo}
    (hbest : largest (chain.getScriptUtxos htlc.pkScript) = some best) :
    chain.classifyOnchainHtlc lib htlc minConfirmations funding =
      .ok (listedPhase chain.getMtp htlc.refundLocktime minConfirmations best) := by
  have hview : chain.view lib htlc funding =
      .ok ⟨chain.getScriptUtxos htlc.pkScript, none, chain.getMtp⟩ := by
    unfold ChainSource.view
    cases hutxos : chain.getScriptUtxos htlc.pkScript with
    | nil => rw [hutxos] at hbest; cases hbest
    | cons u us => rfl
  simp only [ChainSource.classifyOnchainHtlc, hview, Rfq.classifyOnchainHtlc, bind, Except.bind,
    hbest]
  rfl

theorem spendTold_iff : SpendTold lib chain htlc minConfirmations funding ↔
    ((∃ txHex txid, SpentBy lib chain funding txHex txid) →
      chain.getScriptUtxos htlc.pkScript = []) := by
  constructor
  · rintro h ⟨txHex, txid, hspent⟩
    by_contra hlisted
    obtain ⟨best, hbest⟩ := Option.ne_none_iff_exists'.mp (mt largest_eq_none.mp hlisted)
    have hphase : chain.classifyOnchainHtlc lib htlc minConfirmations funding = _ :=
      classifyOnchainHtlc_listed hbest
    have hutxo := listedPhase_utxo chain.getMtp htlc.refundLocktime minConfirmations best
    obtain ⟨hclaimed, hswept⟩ := h txHex txid hspent
    by_cases hreveals : ∃ item, RevealsPreimage lib txHex htlc.paymentHash item
    · obtain ⟨item, -, hresult⟩ := hclaimed hreveals
      rw [Except.ok.inj (hphase.symm.trans hresult)] at hutxo
      cases hutxo
    · rw [Except.ok.inj (hphase.symm.trans (hswept hreveals))] at hutxo
      cases hutxo
  · intro h txHex txid hspent
    have hresult : chain.classifyOnchainHtlc lib htlc minConfirmations funding = _ :=
      classifyOnchainHtlc_unlisted (h ⟨txHex, txid, hspent⟩) hspent
    cases hextract : extractPreimage lib txHex htlc.paymentHash with
    | some item =>
      rw [hextract] at hresult
      have hreveals := extractPreimage_reveals hextract
      exact ⟨fun _ ↦ ⟨item, hreveals, hresult⟩, fun hno ↦ absurd ⟨item, hreveals⟩ hno⟩
    | none =>
      rw [hextract] at hresult
      exact ⟨fun hreveals ↦ absurd hreveals (extractPreimage_eq_none.mp hextract), fun _ ↦ hresult⟩

def IsLargest (utxos : List ChainUtxo) (u : ChainUtxo) : Prop :=
  u ∈ utxos ∧ ∀ v ∈ utxos, v.amount ≤ u.amount

theorem isLargest_of_largest {utxos : List ChainUtxo} {best : ChainUtxo}
    (h : largest utxos = some best) : IsLargest utxos best :=
  ⟨largest_mem h, fun _ hv ↦ amount_le_largest h hv⟩

/-- An output of the largest amount that is listed last is the one that is taken. -/
theorem exists_perm_largest {utxos : List ChainUtxo} {u : ChainUtxo} (h : IsLargest utxos u) :
    ∃ utxos' : List ChainUtxo, utxos'.Perm utxos ∧ largest utxos' = some u := by
  obtain ⟨hmem, hall⟩ := h
  obtain ⟨before, after, rfl⟩ := List.append_of_mem hmem
  refine ⟨before ++ after ++ [u], ?_, largest_concat fun v hv ↦ hall v (by simp at hv ⊢; tauto)⟩
  rw [List.append_assoc]
  exact List.perm_append_comm.append_left before |>.trans (by simp)

theorem orderFree_iff : OrderFree lib chain htlc minConfirmations funding ↔
    ∀ u v, IsLargest (chain.getScriptUtxos htlc.pkScript) u →
      IsLargest (chain.getScriptUtxos htlc.pkScript) v → u = v := by
  constructor
  · intro h
    have htaken : ∀ u, IsLargest (chain.getScriptUtxos htlc.pkScript) u →
        ∀ phase, chain.classifyOnchainHtlc lib htlc minConfirmations funding = .ok phase →
          phase.utxo = some u := by
      intro u hu phase hphase
      obtain ⟨utxos, hperm, hlargest⟩ := exists_perm_largest hu
      have hlisted := h utxos hperm
      rw [classifyOnchainHtlc_listed hlargest, hphase] at hlisted
      rw [← Except.ok.inj hlisted]
      exact listedPhase_utxo chain.getMtp htlc.refundLocktime minConfirmations u
    intro u v hu hv
    obtain ⟨best, hbest⟩ := Option.ne_none_iff_exists'.mp
      (mt largest_eq_none.mp (List.ne_nil_of_mem hu.1))
    have hphase : chain.classifyOnchainHtlc lib htlc minConfirmations funding = _ :=
      classifyOnchainHtlc_listed hbest
    exact Option.some.inj ((htaken u hu _ hphase).symm.trans (htaken v hv _ hphase))
  · intro h utxos hperm
    cases hbest : largest (chain.getScriptUtxos htlc.pkScript) with
    | none =>
      have hnil := largest_eq_none.mp hbest
      rw [hnil] at hperm
      obtain rfl := hperm.eq_nil
      simp only [ChainSource.classifyOnchainHtlc, ChainSource.view, hnil]
    | some best =>
      have hne : utxos ≠ [] := fun hnil ↦ by
        rw [hnil] at hperm
        rw [hperm.symm.eq_nil] at hbest
        cases hbest
      obtain ⟨best', hbest'⟩ := Option.ne_none_iff_exists'.mp (mt largest_eq_none.mp hne)
      have hlargest := isLargest_of_largest hbest'
      have hsame : best' = best :=
        h best' best
          ⟨hperm.mem_iff.mp hlargest.1, fun v hv ↦ hlargest.2 v (hperm.mem_iff.mpr hv)⟩
          (isLargest_of_largest hbest)
      rw [hsame] at hbest'
      rw [classifyOnchainHtlc_listed hbest, classifyOnchainHtlc_listed hbest']

/-- A known fill that was spent is told as such, whatever the order of the listing, exactly where
nothing else is listed at the script beside it and no two outputs share the largest amount. -/
theorem classifyOnchainHtlc_spent_iff (lib : FillLibrary) (chain : ChainSource)
    (htlc : OnchainHtlc) (minConfirmations : ℤ) (funding : Option Outpoint) :
    SpendTold lib chain htlc minConfirmations funding ∧
        OrderFree lib chain htlc minConfirmations funding ↔
      ((∃ txHex txid, SpentBy lib chain funding txHex txid) →
          chain.getScriptUtxos htlc.pkScript = []) ∧
        ∀ u v, IsLargest (chain.getScriptUtxos htlc.pkScript) u →
          IsLargest (chain.getScriptUtxos htlc.pkScript) v → u = v :=
  and_congr spendTold_iff orderFree_iff

end Told

section Sample

def zeroPreimage : Bytes := List.replicate 32 0

def zeroDigest : Bytes :=
  [0x66, 0x68, 0x7a, 0xad, 0xf8, 0x62, 0xbd, 0x77, 0x6c, 0x8f, 0xc1, 0x8b, 0x8e, 0x9f, 0x8e, 0x20,
    0x08, 0x97, 0x14, 0x85, 0x6e, 0xe2, 0x33, 0xb3, 0x90, 0x2a, 0x59, 0x1d, 0x0d, 0x5f, 0x29, 0x25]

/-- A transaction with one input, whose witness is the preimage alone. -/
def claimTx : Bytes :=
  [2, 0, 0, 0, 0, 1, 1] ++ List.replicate 32 0xaa ++
    [0, 0, 0, 0, 0, 255, 255, 255, 255, 1, 72, 38, 0, 0, 0, 0, 0, 0, 1, 0x51, 1, 32] ++
    zeroPreimage ++ [0, 0, 0, 0]

def claimHex : String := HexCodec.base16.encode claimTx

def claimTxid : String := "b13b9037ecef75586306f9ee6f65eadf9ef43ade8b2a7de9f214fe97af545aea"

def claimLibrary : FillLibrary where
  hex := HexCodec.base16
  sha256 item := if item = zeroPreimage then zeroDigest else item
  rawWitnesses raw := if raw = claimTx then some [[zeroPreimage]] else none
  txid txHex := if txHex = claimHex then .ok claimTxid else .error "not read"

def claimedHtlc : OnchainHtlc := ⟨[0x51, 0x20], HexCodec.base16.encode zeroDigest, 1900000000⟩

def claimedFill : Outpoint := ⟨String.ofList (List.replicate 64 'a'), 0⟩

def dust (txid : String) : ChainUtxo := ⟨txid, 1, 330, 0⟩

/-- The fill is claimed, and then someone sends dust to the script. -/
def dusted (utxos : List ChainUtxo) : ChainSource where
  getScriptUtxos _ := utxos
  getSpendingTx outpoint := if outpoint = claimedFill then some claimHex else none
  getMtp := 1800000000

theorem dust_hides_claim :
    (dusted [dust "d0"]).classifyOnchainHtlc claimLibrary claimedHtlc 1 (some claimedFill) =
        .ok (.awaiting_confirmations (dust "d0")) ∧
      ¬SpendTold claimLibrary (dusted [dust "d0"]) claimedHtlc 1 (some claimedFill) ∧
      ¬OrderFree claimLibrary (dusted [dust "d0", dust "d1"]) claimedHtlc 1 (some claimedFill) := by
  refine ⟨rfl, fun htold ↦ ?_, fun hfree ↦ ?_⟩
  · have hspent : SpentBy claimLibrary (dusted [dust "d0"]) (some claimedFill) claimHex claimTxid :=
      ⟨by simp [dusted], by simp [claimLibrary]⟩
    cases spendTold_iff.mp htold ⟨_, _, hspent⟩
  · have hsame := orderFree_iff.mp hfree (dust "d0") (dust "d1")
      ⟨List.mem_cons_self, by decide⟩ ⟨by decide, by decide⟩
    exact absurd hsame (by decide)

end Sample

end ArkadeSdk.Rfq
