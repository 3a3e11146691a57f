import ArkadeSdk.Lib.FirstFit
import ArkadeSdk.Wallet.BatchRecipients
import Mathlib.Data.List.Find
import Mathlib.Data.List.Sigma

/-! Which lists of recipients `validateBatchRecipients` lets through. -/

namespace ArkadeSdk.Batch

open WireFormat JsNumber BatchTree FirstFit

/-- An output of the commitment transaction or of a leaf. -/
inductive Slot
  | commitment (i : ℕ)
  | leaf (leafIdx outputIndex : ℕ)
  deriving DecidableEq

/-- What a recipient asks for, apart from assets. -/
structure Payment where
  onchain : Bool
  script : Bytes
  amount : ℤ
  deriving DecidableEq

section

variable (lib : AddressLibrary) (commitmentTx : Transaction) (leaves : List Transaction)

def assetAmount (packet : Asset.Packet) (assetId : String) (outputIndex : ℕ) : Option ℤ :=
  (packet.groups.find? fun group ↦ group.assetId.any fun id ↦
    lib.hex.encode id.serializeTo = assetId).bind fun group ↦
      (group.outputs.find? (·.vout = .ofNat outputIndex)).map (·.amount)

def GivesAssets (leaf : Transaction) (outputIndex : ℕ) (assets : List RecipientAsset) : Prop :=
  assets ≠ [] → ∃ extension packet, extensionOf lib leaf = .ok extension ∧
    getAssetPacket extension = some packet ∧
    ∀ asset ∈ assets, assetAmount lib packet asset.assetId outputIndex = some asset.amount

/-- An output that a recipient can be assigned to. -/
inductive Serves : Recipient → Slot → Prop
  | onchain {recipient : Recipient} {script : Bytes} {amount : ℤ} {i : ℕ} :
      lib.arkAddress recipient.address = none →
      lib.onchainAddress recipient.address = .ok script →
      recipient.amount = some (.ofInt amount) → amount ≠ 0 → recipient.assets.getD [] = [] →
      commitmentTx.outputs[i]? = some ⟨some script, some amount⟩ →
      Serves recipient (.commitment i)
  | offchain {recipient : Recipient} {pkScript : Bytes} {amount : ℤ} {leaf : Transaction}
      {leafIdx outputIndex : ℕ} :
      lib.arkAddress recipient.address = some pkScript →
      recipient.amount = some (.ofInt amount) → leaves[leafIdx]? = some leaf →
      leaf.outputs[outputIndex]? = some ⟨some pkScript, some amount⟩ →
      GivesAssets lib leaf outputIndex (recipient.assets.getD []) →
      Serves recipient (.leaf leafIdx outputIndex)

def Assignable (recipients : List Recipient) : Prop :=
  ∃ outputs : List Slot, outputs.Nodup ∧
    List.Forall₂ (Serves lib commitmentTx leaves) recipients outputs

def AddressLibrary.Scripts : Prop :=
  (∀ address script, lib.arkAddress address = some script → script ≠ []) ∧
    ∀ address script, lib.onchainAddress address = .ok script → script ≠ []

def slots : List Slot :=
  (commitmentTx.outputs.zipIdx.map fun (_, i) ↦ Slot.commitment i) ++
    leaves.zipIdx.flatMap fun (leaf, leafIdx) ↦
      leaf.outputs.zipIdx.map fun (_, outputIndex) ↦ Slot.leaf leafIdx outputIndex

def outputAt : Slot → Option TxOutput
  | .commitment i => commitmentTx.outputs[i]?
  | .leaf leafIdx outputIndex => leaves[leafIdx]?.bind (·.outputs[outputIndex]?)

def Slot.onchain : Slot → Bool
  | .commitment _ => true
  | .leaf _ _ => false

/-- The output has the script and the amount. -/
def pays (payment : Payment) (slot : Slot) : Bool :=
  slot.onchain = payment.onchain &&
    decide (outputAt commitmentTx leaves slot = some ⟨some payment.script, some payment.amount⟩)

def Requests (recipient : Recipient) (payment : Payment) : Prop :=
  recipient.amount = some (.ofInt payment.amount) ∧
    if payment.onchain then
      lib.arkAddress recipient.address = none ∧
        lib.onchainAddress recipient.address = .ok payment.script
    else lib.arkAddress recipient.address = some payment.script

/-- No Arkade recipient asks for nothing, and the recipient that is at some place among those with
its script and amount finds its assets at the output at the same place among those with them. -/
structure InOrder (recipients : List Recipient) : Prop where
  amounts : ∀ recipient ∈ recipients, lib.arkAddress recipient.address ≠ none →
    recipient.amount ≠ some (.ofInt 0)
  assets : ∀ payments, List.Forall₂ (Requests lib) recipients payments →
    ∀ n recipient payment leafIdx outputIndex leaf, recipients[n]? = some recipient →
      payments[n]? = some payment →
      ((slots commitmentTx leaves).filter (pays commitmentTx leaves payment))[
        (payments.take n).count payment]? = some (.leaf leafIdx outputIndex) →
      leaves[leafIdx]? = some leaf →
      GivesAssets lib leaf outputIndex (recipient.assets.getD [])

end

section

variable {lib : AddressLibrary} {commitmentTx : Transaction} {leaves : List Transaction}

theorem slots_nodup : (slots commitmentTx leaves).Nodup := by
  refine List.nodup_append.mpr ⟨?_, ?_, ?_⟩
  · have hmap := (List.nodup_zipIdx_map_snd commitmentTx.outputs).map (f := Slot.commitment)
      fun _ _ h ↦ Slot.commitment.inj h
    rwa [List.map_map] at hmap
  · refine List.nodup_flatMap.mpr ⟨?_, ?_⟩
    · rintro ⟨leaf, leafIdx⟩ -
      have hmap := (List.nodup_zipIdx_map_snd leaf.outputs).map (f := Slot.leaf leafIdx)
        fun _ _ h ↦ (Slot.leaf.inj h).2
      rwa [List.map_map] at hmap
    · refine (List.pairwise_map.mp (List.nodup_zipIdx_map_snd leaves)).imp fun {p q} hne ↦ ?_
      intro s hs hs'
      obtain ⟨_, _, rfl⟩ := List.mem_map.mp hs
      obtain ⟨_, _, heq⟩ := List.mem_map.mp hs'
      exact hne (Slot.leaf.inj heq).1.symm
  · intro s hs s' hs' heq
    obtain ⟨_, _, rfl⟩ := List.mem_map.mp hs
    obtain ⟨_, _, hs'⟩ := List.mem_flatMap.mp hs'
    obtain ⟨_, _, rfl⟩ := List.mem_map.mp hs'
    cases heq

theorem pays_iff {payment : Payment} {slot : Slot} :
    pays commitmentTx leaves payment slot ↔ slot.onchain = payment.onchain ∧
      outputAt commitmentTx leaves slot = some ⟨some payment.script, some payment.amount⟩ := by
  simp [pays]

theorem pays_apart : Apart (pays commitmentTx leaves) := by
  intro payment payment' slot h h'
  obtain ⟨honchain, houtput⟩ := pays_iff.mp h
  obtain ⟨honchain', houtput'⟩ := pays_iff.mp h'
  rw [houtput] at houtput'
  cases payment
  cases payment'
  simp_all

/-- The slots in use are the ones that the two sets hold. -/
def Used (used : List Slot) (usedOutputs : List (ℕ × ℕ)) (usedOnchainOutputs : List ℕ) : Prop :=
  (∀ i, .commitment i ∈ used ↔ i ∈ usedOnchainOutputs) ∧
    ∀ leafIdx outputIndex, .leaf leafIdx outputIndex ∈ used ↔ (leafIdx, outputIndex) ∈ usedOutputs

theorem Used.onchain {used : List Slot} {usedOutputs : List (ℕ × ℕ)} {usedOnchainOutputs : List ℕ}
    (h : Used used usedOutputs usedOnchainOutputs) (i : ℕ) :
    Used (.commitment i :: used) usedOutputs (i :: usedOnchainOutputs) :=
  ⟨fun j ↦ by simp [h.1], fun leafIdx outputIndex ↦ by simp [h.2]⟩

theorem Used.offchain {used : List Slot} {usedOutputs : List (ℕ × ℕ)}
    {usedOnchainOutputs : List ℕ} (h : Used used usedOutputs usedOnchainOutputs)
    (leafIdx outputIndex : ℕ) :
    Used (.leaf leafIdx outputIndex :: used) ((leafIdx, outputIndex) :: usedOutputs)
      usedOnchainOutputs :=
  ⟨fun i ↦ by simp [h.1], fun l o ↦ by simp [h.2]⟩

theorem findOnchain_eq {script : Bytes} (hscript : script ≠ []) (amount : ℤ) (used : List ℕ)
    (start : ℕ) (outputs : List TxOutput) :
    findOnchain script (.ofInt amount) used start outputs = .ok (((outputs.zipIdx start).find?
      fun p ↦ decide (p.1 = ⟨some script, some amount⟩ ∧ p.2 ∉ used)).map Prod.snd) := by
  induction outputs generalizing start with
  | nil => rfl
  | cons output rest ih =>
    obtain ⟨outputScript, outputAmount⟩ := output
    rw [List.zipIdx_cons, List.find?_cons, findOnchain, Number.toBigInt_ofInt]
    by_cases hused : start ∈ used
    · simp [hused, ih]
    rw [if_neg hused]
    cases outputScript with
    | none => simp [ih]
    | some found =>
      cases found with
      | nil =>
        have hne : ¬[] = script := fun heq ↦ hscript heq.symm
        simp [hne, ih]
      | cons byte bytes =>
        by_cases hsame : byte :: bytes = script
        · subst hsame
          by_cases hamount : outputAmount = some amount
          · simp [hamount, hused, bind, Except.bind, pure, Except.pure]
          · simp [hamount, ih, bind, Except.bind]
        · simp [hsame, ih]

theorem firstFit_onchain {used : List Slot} {usedOutputs : List (ℕ × ℕ)}
    {usedOnchainOutputs : List ℕ} (hused : Used used usedOutputs usedOnchainOutputs)
    (script : Bytes) (amount : ℤ) :
    firstFit (slots commitmentTx leaves) (pays commitmentTx leaves) used ⟨true, script, amount⟩ =
      (commitmentTx.outputs.zipIdx.find? fun p ↦
        decide (p.1 = ⟨some script, some amount⟩ ∧ p.2 ∉ usedOnchainOutputs)).map
          fun p ↦ .commitment p.2 := by
  have hleaves : (leaves.zipIdx.flatMap fun (leaf, leafIdx) ↦
      leaf.outputs.zipIdx.map fun (_, outputIndex) ↦ Slot.leaf leafIdx outputIndex).find?
        (fun slot ↦ pays commitmentTx leaves ⟨true, script, amount⟩ slot &&
          decide (slot ∉ used)) = none := by
    refine List.find?_eq_none.mpr fun s hs ↦ ?_
    obtain ⟨_, _, hs⟩ := List.mem_flatMap.mp hs
    obtain ⟨_, _, rfl⟩ := List.mem_map.mp hs
    simp [pays, Slot.onchain]
  rw [firstFit, slots, List.find?_append, hleaves, Option.or_none, List.find?_map]
  refine congrArg _ (List.find?_congr fun p hp ↦ ?_)
  have hget : commitmentTx.outputs[p.2]? = some p.1 := List.mk_mem_zipIdx_iff_getElem?.mp hp
  simp [pays, Slot.onchain, outputAt, hget, hused.1]

theorem findSome?_congr {α β : Type} {f g : α → Option β} {l : List α} (h : ∀ a ∈ l, f a = g a) :
    l.findSome? f = l.findSome? g := by
  induction l with
  | nil => rfl
  | cons a l ih =>
    rw [List.findSome?_cons, List.findSome?_cons, h a List.mem_cons_self,
      ih fun b hb ↦ h b (List.mem_cons_of_mem _ hb)]

theorem firstFit_offchain {used : List Slot} {usedOutputs : List (ℕ × ℕ)}
    {usedOnchainOutputs : List ℕ} (hused : Used used usedOutputs usedOnchainOutputs)
    {script : Bytes} (hscript : script ≠ []) (amount : ℤ) :
    firstFit (slots commitmentTx leaves) (pays commitmentTx leaves) used ⟨false, script, amount⟩ =
      (findOffchain leaves script amount usedOutputs).map fun p ↦ .leaf p.2.1 p.2.2 := by
  have honchain : (commitmentTx.outputs.zipIdx.map fun (_, i) ↦ Slot.commitment i).find?
      (fun s ↦ pays commitmentTx leaves ⟨false, script, amount⟩ s && decide (s ∉ used)) = none := by
    refine List.find?_eq_none.mpr fun s hs ↦ ?_
    obtain ⟨_, _, rfl⟩ := List.mem_map.mp hs
    simp [pays, Slot.onchain]
  rw [firstFit, slots, List.find?_append, honchain, Option.none_or, List.find?_flatMap,
    findOffchain, List.map_findSome?]
  refine findSome?_congr fun p hp ↦ ?_
  obtain ⟨leaf, leafIdx⟩ := p
  have hleaf : leaves[leafIdx]? = some leaf := List.mk_mem_zipIdx_iff_getElem?.mp hp
  rw [List.find?_map, Function.comp_apply, Option.map_map]
  refine congrArg _ (List.find?_congr fun q hq ↦ ?_)
  obtain ⟨⟨outputScript, outputAmount⟩, outputIndex⟩ := q
  have hget := List.mk_mem_zipIdx_iff_getElem?.mp hq
  simp [pays, Slot.onchain, outputAt, hleaf, hget, hused.2, paysOffchain, hscript]

theorem findOffchain_leaf {script : Bytes} {amount : ℤ} {usedOutputs : List (ℕ × ℕ)}
    {leaf : Transaction} {leafIdx outputIndex : ℕ}
    (h : findOffchain leaves script amount usedOutputs = some (leaf, leafIdx, outputIndex)) :
    leaves[leafIdx]? = some leaf := by
  obtain ⟨⟨found, foundIdx⟩, hmem, hfind⟩ := List.exists_of_findSome?_eq_some h
  obtain ⟨_, _, heq⟩ := Option.map_eq_some_iff.mp hfind
  cases heq
  exact List.mk_mem_zipIdx_iff_getElem?.mp hmem

theorem validateAssetGroupOutput_ok {packet : Asset.Packet} {outputIndex : ℕ}
    {asset : RecipientAsset} : validateAssetGroupOutput lib packet outputIndex asset = .ok () ↔
      assetAmount lib packet asset.assetId outputIndex = some asset.amount := by
  unfold validateAssetGroupOutput assetAmount
  dsimp only
  cases packet.groups.find? _ with
  | none => simp
  | some group =>
    dsimp only [Option.bind_some]
    cases group.outputs.find? _ with
    | none => simp
    | some output => simp

theorem validateAssetOutputs_ok {leaf : Transaction} {outputIndex : ℕ}
    {assets : List RecipientAsset} (hassets : assets ≠ []) :
    validateAssetOutputs lib leaf outputIndex assets = .ok () ↔
      GivesAssets lib leaf outputIndex assets := by
  constructor
  · intro h _
    obtain ⟨extension, hextension, h⟩ := bind_ok.mp h
    cases hpacket : getAssetPacket extension with
    | none =>
      rw [hpacket] at h
      cases h
    | some packet =>
      rw [hpacket] at h
      exact ⟨extension, packet, hextension, hpacket, fun asset hasset ↦
        validateAssetGroupOutput_ok.mp (forM_ok.mp h asset hasset)⟩
  · intro h
    obtain ⟨extension, packet, hextension, hpacket, hall⟩ := h hassets
    refine bind_ok.mpr ⟨extension, hextension, ?_⟩
    rw [hpacket]
    exact forM_ok.mpr fun asset hasset ↦ validateAssetGroupOutput_ok.mpr (hall asset hasset)

theorem falsy_ofInt {amount : ℤ} : falsy (some (.ofInt amount)) = true ↔ amount = 0 := by
  simp [falsy, Number.ofInt, Number.ofNat]

def Asks (lib : AddressLibrary) (recipient : Recipient) (payment : Payment) : Prop :=
  Requests lib recipient payment ∧ payment.amount ≠ 0

/-- An onchain recipient has no assets, and another one finds them at its output. -/
def Gives (lib : AddressLibrary) (leaves : List Transaction) (recipient : Recipient) :
    Slot → Prop
  | .commitment _ => recipient.assets.getD [] = []
  | .leaf leafIdx outputIndex => ∃ leaf, leaves[leafIdx]? = some leaf ∧
      GivesAssets lib leaf outputIndex (recipient.assets.getD [])

theorem validateOnchainRecipient_iff (hscripts : lib.Scripts) {used : List Slot}
    {usedOutputs : List (ℕ × ℕ)} {usedOnchainOutputs : List ℕ}
    (hused : Used used usedOutputs usedOnchainOutputs) {recipient : Recipient}
    (hark : lib.arkAddress recipient.address = none) {used' : List ℕ} :
    validateOnchainRecipient lib commitmentTx recipient usedOnchainOutputs = .ok used' ↔
      ∃ payment i, Asks lib recipient payment ∧
        firstFit (slots commitmentTx leaves) (pays commitmentTx leaves) used payment =
          some (.commitment i) ∧
        Gives lib leaves recipient (.commitment i) ∧ used' = i :: usedOnchainOutputs := by
  have hassets : ¬recipient.assets.any (0 < ·.length) ↔ recipient.assets.getD [] = [] := by
    cases recipient.assets with
    | none => simp
    | some assets => cases assets <;> simp
  constructor
  · intro h
    obtain ⟨i, -, hused', -, script, amount, -, haddress, hamount, -⟩ :=
      validateOnchainRecipient_ok hark h
    obtain ⟨script', hscript, h⟩ := bind_ok.mp h
    obtain ⟨hfalsy, h⟩ := then_ok.mp h
    obtain ⟨hnone, h⟩ := then_ok.mp h
    obtain ⟨found, hfound, h⟩ := bind_ok.mp h
    obtain rfl := Except.ok.inj (haddress.symm.trans hscript)
    rw [amountOf, hamount, Option.getD_some, findOnchain_eq (hscripts.2 _ _ haddress)] at hfound
    rw [hamount] at hfalsy
    have hne : amount ≠ 0 := fun heq ↦ rejectIf_ok.mp hfalsy (falsy_ofInt.mpr heq)
    cases found with
    | none => cases h
    | some j =>
      obtain rfl := pure_ok.mp h
      obtain rfl : j = i := (List.cons.inj hused').1
      obtain ⟨p, hp, rfl⟩ := Option.map_eq_some_iff.mp (Except.ok.inj hfound)
      refine ⟨⟨true, script, amount⟩, p.2, ⟨⟨hamount, ?_⟩, hne⟩, ?_, ?_, rfl⟩
      · exact ⟨hark, haddress⟩
      · rw [firstFit_onchain hused, hp]
        rfl
      · exact hassets.mp (rejectIf_ok.mp hnone)
  · rintro ⟨⟨onchain, script, amount⟩, i, ⟨⟨hamount, hrequest⟩, hne⟩, hfit, hgives, rfl⟩
    cases onchain with
    | false => cases hark.symm.trans hrequest
    | true =>
      obtain ⟨-, haddress⟩ := hrequest
      rw [firstFit_onchain hused] at hfit
      obtain ⟨p, hp, hi⟩ := Option.map_eq_some_iff.mp hfit
      obtain rfl := Slot.commitment.inj hi
      refine bind_ok.mpr ⟨script, haddress, then_ok.mpr ⟨rejectIf_ok.mpr ?_,
        then_ok.mpr ⟨rejectIf_ok.mpr (hassets.mpr hgives), ?_⟩⟩⟩
      · rw [hamount]
        exact fun h ↦ hne (falsy_ofInt.mp h)
      · rw [amountOf, hamount, Option.getD_some, findOnchain_eq (hscripts.2 _ _ haddress), hp]
        rfl

theorem givesAssets_iff {assets : Option (List RecipientAsset)} (leaf : Transaction)
    (leafIdx outputIndex : ℕ) {usedOutputs used' : List (ℕ × ℕ)} :
    (match assets with
      | none | some [] => (return (leafIdx, outputIndex) :: usedOutputs : Except Message _)
      | some assets => do
        validateAssetOutputs lib leaf outputIndex assets
        return (leafIdx, outputIndex) :: usedOutputs) = .ok used' ↔
      GivesAssets lib leaf outputIndex (assets.getD []) ∧
        used' = (leafIdx, outputIndex) :: usedOutputs := by
  cases assets with
  | none =>
    dsimp only [Option.getD_none]
    rw [pure_ok, eq_comm]
    exact (and_iff_right fun hne ↦ absurd rfl hne).symm
  | some assets =>
    cases assets with
    | nil =>
      dsimp only [Option.getD_some]
      rw [pure_ok, eq_comm]
      exact (and_iff_right fun hne ↦ absurd rfl hne).symm
    | cons asset assets =>
      dsimp only [Option.getD_some]
      rw [then_ok, pure_ok, validateAssetOutputs_ok (List.cons_ne_nil _ _), eq_comm]

theorem validateOffchainRecipient_iff (hscripts : lib.Scripts) {used : List Slot}
    {usedOutputs : List (ℕ × ℕ)} {usedOnchainOutputs : List ℕ}
    (hused : Used used usedOutputs usedOnchainOutputs) {recipient : Recipient} {pkScript : Bytes}
    (hark : lib.arkAddress recipient.address = some pkScript) {used' : List (ℕ × ℕ)} :
    validateOffchainRecipient lib leaves pkScript recipient usedOutputs = .ok used' ↔
      ∃ payment leafIdx outputIndex, Asks lib recipient payment ∧
        firstFit (slots commitmentTx leaves) (pays commitmentTx leaves) used payment =
          some (.leaf leafIdx outputIndex) ∧
        Gives lib leaves recipient (.leaf leafIdx outputIndex) ∧
        used' = (leafIdx, outputIndex) :: usedOutputs := by
  have hscript := hscripts.1 _ _ hark
  constructor
  · intro h
    obtain ⟨hfalsy, h⟩ := then_ok.mp h
    obtain ⟨amount, hamount, h⟩ := bind_ok.mp h
    have hamount := Number.toBigInt_eq_ok hamount
    have hrecipient : recipient.amount = some (.ofInt amount) := by
      cases hrecipient : recipient.amount with
      | none => simp [falsy, hrecipient] at hfalsy
      | some a => rw [← hamount, amountOf, hrecipient, Option.getD_some]
    rw [hrecipient] at hfalsy
    have hne : amount ≠ 0 := fun heq ↦ rejectIf_ok.mp hfalsy (falsy_ofInt.mpr heq)
    cases hfound : findOffchain leaves pkScript amount usedOutputs with
    | none =>
      rw [hfound] at h
      cases h
    | some found =>
      obtain ⟨leaf, leafIdx, outputIndex⟩ := found
      rw [hfound] at h
      obtain ⟨hassets, rfl⟩ := (givesAssets_iff leaf leafIdx outputIndex).mp h
      refine ⟨⟨false, pkScript, amount⟩, leafIdx, outputIndex, ⟨⟨hrecipient, hark⟩, hne⟩, ?_,
        ⟨leaf, findOffchain_leaf hfound, hassets⟩, rfl⟩
      rw [firstFit_offchain hused hscript, hfound]
      rfl
  · rintro ⟨⟨onchain, script, amount⟩, leafIdx, outputIndex, ⟨⟨hamount, hrequest⟩, hne⟩, hfit,
      ⟨leaf, hleaf, hassets⟩, rfl⟩
    cases onchain with
    | true => cases hark.symm.trans hrequest.1
    | false =>
      obtain rfl : pkScript = script := Option.some.inj (hark.symm.trans hrequest)
      rw [firstFit_offchain hused hscript] at hfit
      obtain ⟨⟨leaf', leafIdx', outputIndex'⟩, hfound, hslot⟩ := Option.map_eq_some_iff.mp hfit
      obtain ⟨rfl, rfl⟩ := Slot.leaf.inj hslot
      obtain rfl := Option.some.inj ((findOffchain_leaf hfound).symm.trans hleaf)
      refine then_ok.mpr ⟨rejectIf_ok.mpr ?_, bind_ok.mpr ⟨amount, ?_, ?_⟩⟩
      · rw [hamount]
        exact fun h ↦ hne (falsy_ofInt.mp h)
      · rw [amountOf, hamount, Option.getD_some, Number.toBigInt_ofInt]
      · rw [hfound]
        exact (givesAssets_iff _ _ _).mpr ⟨hassets, rfl⟩

theorem validateFrom_iff (hscripts : lib.Scripts) {used : List Slot}
    {usedOutputs : List (ℕ × ℕ)} {usedOnchainOutputs : List ℕ}
    (hused : Used used usedOutputs usedOnchainOutputs) {recipients : List Recipient} :
    validateFrom lib commitmentTx leaves usedOutputs usedOnchainOutputs recipients = .ok () ↔
      ∃ payments outputs, List.Forall₂ (Asks lib) recipients payments ∧
        assign (slots commitmentTx leaves) (pays commitmentTx leaves) used payments =
          some outputs ∧
        List.Forall₂ (Gives lib leaves) recipients outputs := by
  induction recipients generalizing used usedOutputs usedOnchainOutputs with
  | nil => exact ⟨fun _ ↦ ⟨[], [], .nil, rfl, .nil⟩, fun _ ↦ rfl⟩
  | cons recipient rest ih =>
    unfold validateFrom
    constructor
    · intro h
      split at h
      · next hark =>
        obtain ⟨used', hused', h⟩ := bind_ok.mp h
        obtain ⟨payment, i, hasks, hfit, hgives, rfl⟩ :=
          (validateOnchainRecipient_iff hscripts hused hark).mp hused'
        obtain ⟨payments, outputs, hall, hassign, hgive⟩ := (ih (hused.onchain i)).mp h
        exact ⟨payment :: payments, .commitment i :: outputs, .cons hasks hall,
          assign_cons.mpr ⟨_, _, hfit, hassign, rfl⟩, .cons hgives hgive⟩
      · next pkScript hark =>
        obtain ⟨used', hused', h⟩ := bind_ok.mp h
        obtain ⟨payment, leafIdx, outputIndex, hasks, hfit, hgives, rfl⟩ :=
          (validateOffchainRecipient_iff hscripts hused hark).mp hused'
        obtain ⟨payments, outputs, hall, hassign, hgive⟩ :=
          (ih (hused.offchain leafIdx outputIndex)).mp h
        exact ⟨payment :: payments, .leaf leafIdx outputIndex :: outputs, .cons hasks hall,
          assign_cons.mpr ⟨_, _, hfit, hassign, rfl⟩, .cons hgives hgive⟩
    · rintro ⟨_, _, hall, hassign, hgive⟩
      cases hall with
      | @cons _ payment _ payments hasks hall =>
      obtain ⟨slot, outputs, hfit, hlater, rfl⟩ := assign_cons.mp hassign
      obtain ⟨hgives, hothers⟩ := List.forall₂_cons.mp hgive
      have honchain := (pays_iff.mp (firstFit_some hfit).1).1
      obtain ⟨hamount, hrequest⟩ := hasks.1
      cases slot with
      | commitment i =>
        have hon : payment.onchain = true := honchain.symm
        rw [if_pos hon] at hrequest
        rw [hrequest.1]
        exact bind_ok.mpr ⟨_, (validateOnchainRecipient_iff hscripts hused hrequest.1).mpr
          ⟨payment, i, hasks, hfit, hgives, rfl⟩,
          (ih (hused.onchain i)).mpr ⟨payments, outputs, hall, hlater, hothers⟩⟩
      | leaf leafIdx outputIndex =>
        have hoff : payment.onchain = false := honchain.symm
        rw [hoff, if_neg Bool.false_ne_true] at hrequest
        rw [hrequest]
        exact bind_ok.mpr ⟨_, (validateOffchainRecipient_iff hscripts hused hrequest).mpr
          ⟨payment, leafIdx, outputIndex, hasks, hfit, hgives, rfl⟩,
          (ih (hused.offchain leafIdx outputIndex)).mpr ⟨payments, outputs, hall, hlater, hothers⟩⟩

/-- What serves a recipient is an output that pays what it asks for and gives its assets. -/
theorem serves_iff {recipient : Recipient} {slot : Slot} :
    Serves lib commitmentTx leaves recipient slot ↔ ∃ payment, Requests lib recipient payment ∧
      pays commitmentTx leaves payment slot ∧ Gives lib leaves recipient slot ∧
      (payment.onchain = true → payment.amount ≠ 0) := by
  constructor
  · rintro (⟨hark, haddress, hamount, hne, hassets, hget⟩ | ⟨hark, hamount, hleaf, hget, hassets⟩)
    · exact ⟨⟨true, _, _⟩, ⟨hamount, hark, haddress⟩, pays_iff.mpr ⟨rfl, hget⟩, hassets,
        fun _ ↦ hne⟩
    · refine ⟨⟨false, _, _⟩, ⟨hamount, hark⟩, pays_iff.mpr ⟨rfl, ?_⟩, ⟨_, hleaf, hassets⟩,
        fun h ↦ by cases h⟩
      rw [outputAt, hleaf]
      exact hget
  · rintro ⟨⟨onchain, script, amount⟩, ⟨hamount, hrequest⟩, hpays, hgives, hne⟩
    obtain ⟨honchain, houtput⟩ := pays_iff.mp hpays
    cases slot with
    | commitment i =>
      obtain rfl : true = onchain := honchain
      exact .onchain hrequest.1 hrequest.2 hamount (hne rfl) hgives houtput
    | leaf leafIdx outputIndex =>
      obtain rfl : false = onchain := honchain
      obtain ⟨leaf, hleaf, hassets⟩ := hgives
      rw [outputAt, hleaf] at houtput
      exact .offchain hrequest hamount hleaf houtput hassets

theorem requests_unique {recipient : Recipient} {payment payment' : Payment}
    (h : Requests lib recipient payment) (h' : Requests lib recipient payment') :
    payment = payment' := by
  obtain ⟨onchain, script, amount⟩ := payment
  obtain ⟨onchain', script', amount'⟩ := payment'
  obtain ⟨hamount, hrequest⟩ := h
  obtain ⟨hamount', hrequest'⟩ := h'
  obtain rfl : amount = amount' :=
    Number.ofInt_injective (Option.some.inj (hamount.symm.trans hamount'))
  cases onchain with
  | true =>
    cases onchain' with
    | true =>
      obtain rfl : script = script' := Except.ok.inj (hrequest.2.symm.trans hrequest'.2)
      rfl
    | false => cases hrequest.1.symm.trans hrequest'
  | false =>
    cases onchain' with
    | true => cases hrequest.symm.trans hrequest'.1
    | false =>
      obtain rfl : script = script' := Option.some.inj (hrequest.symm.trans hrequest')
      rfl

theorem mem_slots {slot : Slot} {output : TxOutput}
    (h : outputAt commitmentTx leaves slot = some output) : slot ∈ slots commitmentTx leaves := by
  cases slot with
  | commitment i =>
    exact List.mem_append_left _
      (List.mem_map.mpr ⟨(output, i), List.mk_mem_zipIdx_iff_getElem?.mpr h, rfl⟩)
  | leaf leafIdx outputIndex =>
    obtain ⟨leaf, hleaf, hget⟩ := Option.bind_eq_some_iff.mp h
    refine List.mem_append_right _ (List.mem_flatMap.mpr
      ⟨(leaf, leafIdx), List.mk_mem_zipIdx_iff_getElem?.mpr hleaf, ?_⟩)
    exact List.mem_map.mpr ⟨(output, outputIndex), List.mk_mem_zipIdx_iff_getElem?.mpr hget, rfl⟩

theorem forall₂_getElem? {α β : Type} {R : α → β → Prop} {l : List α} {m : List β}
    (h : List.Forall₂ R l m) {n : ℕ} {a : α} {b : β} (ha : l[n]? = some a) (hb : m[n]? = some b) :
    R a b := by
  obtain ⟨hn, rfl⟩ := List.getElem?_eq_some_iff.mp ha
  obtain ⟨hn', rfl⟩ := List.getElem?_eq_some_iff.mp hb
  exact List.Forall₂.get h hn hn'

theorem forall₂_partner {α β : Type} {R : α → β → Prop} {l : List α} {m : List β}
    (h : List.Forall₂ R l m) {n : ℕ} {a : α} (ha : l[n]? = some a) :
    ∃ b, m[n]? = some b ∧ R a b := by
  have hn := (List.getElem?_eq_some_iff.mp ha).1
  rw [h.length_eq] at hn
  exact ⟨m[n], List.getElem?_eq_getElem hn, forall₂_getElem? h ha (List.getElem?_eq_getElem hn)⟩

theorem forall₂_serves_iff {recipients : List Recipient} {outputs : List Slot} :
    List.Forall₂ (Serves lib commitmentTx leaves) recipients outputs ↔
      ∃ payments, List.Forall₂ (Requests lib) recipients payments ∧
        List.Forall₂ (fun payment slot ↦ pays commitmentTx leaves payment slot) payments outputs ∧
        List.Forall₂ (Gives lib leaves) recipients outputs ∧
        ∀ payment ∈ payments, payment.onchain = true → payment.amount ≠ 0 := by
  induction recipients generalizing outputs with
  | nil =>
    constructor
    · rintro (_ | _)
      exact ⟨[], .nil, .nil, .nil, by simp⟩
    · rintro ⟨_, _ | _, _ | _, -⟩
      exact .nil
  | cons recipient rest ih =>
    constructor
    · rintro (_ | ⟨hserves, hall⟩)
      obtain ⟨payment, hrequest, hpays, hgives, hne⟩ := serves_iff.mp hserves
      obtain ⟨payments, hrequests, hpay, hgive, hnes⟩ := ih.mp hall
      exact ⟨payment :: payments, .cons hrequest hrequests, .cons hpays hpay, .cons hgives hgive,
        List.forall_mem_cons.mpr ⟨hne, hnes⟩⟩
    · rintro ⟨_, _ | ⟨hrequest, hrequests⟩, _ | ⟨hpays, hpay⟩, hgive, hnes⟩
      obtain ⟨hgives, hgive⟩ := List.forall₂_cons.mp hgive
      obtain ⟨hne, hnes⟩ := List.forall_mem_cons.mp hnes
      exact .cons (serves_iff.mpr ⟨_, hrequest, hpays, hgives, hne⟩)
        (ih.mpr ⟨_, hrequests, hpay, hgive, hnes⟩)

theorem used_none : Used [] [] [] := ⟨by simp, by simp⟩

theorem validateBatchRecipients_assignable (hscripts : lib.Scripts) {recipients : List Recipient}
    (h : validateBatchRecipients lib commitmentTx leaves recipients = .ok ()) :
    Assignable lib commitmentTx leaves recipients := by
  obtain ⟨payments, outputs, hasks, hassign, hgives⟩ :=
    (validateFrom_iff hscripts used_none).mp h
  have hmatching := assign_matching hassign
  refine ⟨outputs, hmatching.nodup, forall₂_serves_iff.mpr ⟨payments,
    hasks.imp fun _ _ h ↦ h.1, hmatching.fits, hgives, fun payment hpayment _ ↦ ?_⟩⟩
  obtain ⟨n, hn⟩ := List.mem_iff_getElem?.mp hpayment
  obtain ⟨recipient, -, hask⟩ := forall₂_partner hasks.flip hn
  exact hask.2

theorem validateBatchRecipients_inOrder (hscripts : lib.Scripts) {recipients : List Recipient}
    (h : validateBatchRecipients lib commitmentTx leaves recipients = .ok ()) :
    InOrder lib commitmentTx leaves recipients := by
  obtain ⟨payments, outputs, hasks, hassign, hgives⟩ :=
    (validateFrom_iff hscripts used_none).mp h
  constructor
  · intro recipient hrecipient _ hamount
    obtain ⟨n, hn⟩ := List.mem_iff_getElem?.mp hrecipient
    obtain ⟨payment, -, ⟨hrequest, -⟩, hne⟩ := forall₂_partner hasks hn
    exact hne (Number.ofInt_injective (Option.some.inj (hrequest.symm.trans hamount)))
  · intro payments' hrequests n recipient payment leafIdx outputIndex leaf hrecipient hpayment hslot
      hleaf
    have hrequest : List.Forall₂ (Requests lib) recipients payments := hasks.imp fun _ _ h ↦ h.1
    have hunique : Relator.RightUnique (Requests lib) := fun _ _ _ h h' ↦ requests_unique h h'
    obtain rfl : payments = payments' := List.right_unique_forall₂' hunique hrequest hrequests
    have hget := assign_get pays_apart slots_nodup hassign hpayment
    obtain ⟨leaf', hleaf', hassets⟩ := forall₂_getElem? hgives hrecipient (hget.trans hslot)
    obtain rfl := Option.some.inj (hleaf'.symm.trans hleaf)
    exact hassets

/-- Where they can be assigned at all, the first outputs are as good as any but for the assets. -/
theorem validateBatchRecipients_complete (hscripts : lib.Scripts) {recipients : List Recipient}
    (h : Assignable lib commitmentTx leaves recipients)
    (horder : InOrder lib commitmentTx leaves recipients) :
    validateBatchRecipients lib commitmentTx leaves recipients = .ok () := by
  obtain ⟨outputs, hnodup, hserves⟩ := h
  obtain ⟨payments, hrequests, hpays, hgives, hne⟩ := forall₂_serves_iff.mp hserves
  have hmatching : Matching (slots commitmentTx leaves) (pays commitmentTx leaves) [] payments
      outputs := by
    refine ⟨hpays, hnodup, fun slot hslot ↦ ⟨?_, List.not_mem_nil⟩⟩
    obtain ⟨n, hn⟩ := List.mem_iff_getElem?.mp hslot
    obtain ⟨payment, -, hpay⟩ := forall₂_partner hpays.flip hn
    exact mem_slots (pays_iff.mp hpay).2
  obtain ⟨found, hassign⟩ := hmatching.assign pays_apart
  have hfound := assign_matching hassign
  refine (validateFrom_iff hscripts used_none).mpr ⟨payments, found, ?_, hassign, ?_⟩
  · refine List.forall₂_iff_get.mpr ⟨hrequests.length_eq, fun n hn hn' ↦ ?_⟩
    have hrequest := List.Forall₂.get hrequests hn hn'
    refine ⟨hrequest, fun hzero ↦ ?_⟩
    obtain ⟨hamount, hscript⟩ := hrequest
    split at hscript
    · next honchain => exact hne _ (List.get_mem _ _) honchain hzero
    · refine horder.amounts _ (List.get_mem _ _) ?_ (hzero ▸ hamount)
      rw [hscript]
      exact Option.some_ne_none _
  · have hlength : recipients.length = found.length :=
      hrequests.length_eq.trans hfound.fits.length_eq
    refine List.forall₂_iff_get.mpr ⟨hlength, fun n hn hn' ↦ ?_⟩
    have hrecipient : recipients[n]? = some (recipients.get ⟨n, hn⟩) := List.getElem?_eq_getElem hn
    have hslot : found[n]? = some (found.get ⟨n, hn'⟩) := List.getElem?_eq_getElem hn'
    generalize recipients.get ⟨n, hn⟩ = recipient at hrecipient ⊢
    generalize found.get ⟨n, hn'⟩ = slot at hslot ⊢
    obtain ⟨payment, hpayment, -⟩ := forall₂_partner hrequests hrecipient
    have hpay := pays_iff.mp (forall₂_getElem? hfound.fits hpayment hslot)
    cases slot with
    | commitment i =>
      obtain ⟨other, hother, hgive⟩ := forall₂_partner hgives hrecipient
      have hsame := (pays_iff.mp (forall₂_getElem? hpays hpayment hother)).1
      cases other with
      | commitment j => exact hgive
      | leaf leafIdx outputIndex => cases hpay.1.trans hsame.symm
    | leaf leafIdx outputIndex =>
      obtain ⟨leaf, hleaf, -⟩ := Option.bind_eq_some_iff.mp hpay.2
      refine ⟨leaf, hleaf, horder.assets payments hrequests n recipient payment leafIdx outputIndex
        leaf hrecipient hpayment ?_ hleaf⟩
      rw [← assign_get pays_apart slots_nodup hassign hpayment, hslot]

/-- The check is exact where the recipients, taken in order, find their assets at the first outputs
that pay them. -/
theorem validateBatchRecipients_exact_iff (hscripts : lib.Scripts) {recipients : List Recipient} :
    (validateBatchRecipients lib commitmentTx leaves recipients = .ok () ↔
        Assignable lib commitmentTx leaves recipients) ↔
      (Assignable lib commitmentTx leaves recipients →
        InOrder lib commitmentTx leaves recipients) :=
  ⟨fun hexact h ↦ validateBatchRecipients_inOrder hscripts (hexact.mpr h), fun horder ↦
    ⟨validateBatchRecipients_assignable hscripts, fun h ↦
      validateBatchRecipients_complete hscripts h (horder h)⟩⟩

end

def oneAddress : AddressLibrary :=
  ⟨fun _ ↦ some [0x51], fun _ ↦ .error (message "invalid address"), ScriptCoder.standardOps,
    HexCodec.base16⟩

theorem oneAddress_scripts : oneAddress.Scripts :=
  ⟨fun _ _ h ↦ Option.some.inj h ▸ List.cons_ne_nil _ _, fun _ _ h ↦ by cases h⟩

def sentAsset : Asset.AssetId := ⟨List.replicate 32 1, .ofNat 0⟩

/-- Five units of the asset for output 0. -/
def sentPacket : Asset.Packet :=
  ⟨[⟨some sentAsset, none, [.local (.ofNat 0) 5], [⟨.ofNat 0, 5⟩], []⟩]⟩

def sentExtension : Bytes :=
  [0x6a, 51, 0x41, 0x52, 0x4b, 0, 46, 1, 1] ++ List.replicate 32 1 ++
    [0, 0, 1, 1, 0, 0, 5, 1, 1, 0, 0, 5]

def plainLeaf : Transaction := ⟨[], [⟨some [0x51], some 330⟩]⟩

def assetLeaf : Transaction := ⟨[], [⟨some [0x51], some 330⟩, ⟨some sentExtension, some 0⟩]⟩

def assetRecipient : Recipient :=
  ⟨"ark", some (.ofInt 330), some [⟨HexCodec.base16.encode sentAsset.serializeTo, 5⟩]⟩

def otherLeaf : Transaction := ⟨[], [⟨some [0x51], some 500⟩, ⟨some sentExtension, some 0⟩]⟩

def otherRecipient : Recipient := { assetRecipient with amount := some (.ofInt 500) }

theorem exact_asset_recipients :
    validateBatchRecipients oneAddress ⟨[], []⟩ [otherLeaf, assetLeaf]
        [assetRecipient, otherRecipient] = .ok () ∧
      Assignable oneAddress ⟨[], []⟩ [otherLeaf, assetLeaf] [assetRecipient, otherRecipient] := by
  have hvalid : validateBatchRecipients oneAddress ⟨[], []⟩ [otherLeaf, assetLeaf]
      [assetRecipient, otherRecipient] = .ok () := by decide +kernel
  have hexact := (validateBatchRecipients_exact_iff oneAddress_scripts).mpr fun _ ↦
    validateBatchRecipients_inOrder oneAddress_scripts hvalid
  exact ⟨hvalid, hexact.mp hvalid⟩

/-- The first leaf is taken for its amount, and the second one has the asset. -/
theorem second_leaf_missed :
    Assignable oneAddress ⟨[], []⟩ [plainLeaf, assetLeaf] [assetRecipient] ∧
      validateBatchRecipients oneAddress ⟨[], []⟩ [plainLeaf, assetLeaf] [assetRecipient] ≠
        .ok () := by
  refine ⟨⟨[.leaf 1 0], List.nodup_singleton _, .cons ?_ .nil⟩, by decide +kernel⟩
  refine @Serves.offchain _ _ _ assetRecipient [0x51] 330 assetLeaf 1 0 rfl rfl rfl rfl ?_
  intro _
  refine ⟨⟨[.asset sentPacket]⟩, sentPacket, by decide +kernel, rfl, ?_⟩
  intro asset hasset
  obtain rfl := List.mem_singleton.mp hasset
  decide

end ArkadeSdk.Batch
