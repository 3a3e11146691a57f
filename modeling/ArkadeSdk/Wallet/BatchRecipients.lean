import ArkadeSdk.Extension.Envelope
import ArkadeSdk.Tree.Validation

/-! That what a settlement was asked to pay is in what the server built. -/

namespace ArkadeSdk.Batch

open WireFormat JsNumber BatchTree

structure RecipientAsset where
  assetId : String
  amount : ℤ
  deriving DecidableEq

structure Recipient where
  address : String
  amount : Option Number
  assets : Option (List RecipientAsset)
  deriving DecidableEq

/-- Addresses of one network: the script of an Arkade address, `none` where it does not decode, and
that of an onchain one. -/
structure AddressLibrary where
  arkAddress : String → Option Bytes
  onchainAddress : String → Except Message Bytes
  OP : ScriptCoder.OpTable
  hex : HexCodec.Codec

/-- `if (!recipient.amount)` -/
def falsy : Option Number → Bool
  | none | some .nan => true
  | some a => a = .ofNat 0

def amountOf (recipient : Recipient) : Number := recipient.amount.getD .nan

/-- The loop over the outputs from index `i` on: the first one that is not used and pays. -/
def findOnchain (expectedPkScript : Bytes) (amount : Number) (usedOutputs : List ℕ) :
    ℕ → List TxOutput → Except Message (Option ℕ)
  | _, [] => .ok none
  | i, output :: rest =>
    if i ∈ usedOutputs then findOnchain expectedPkScript amount usedOutputs (i + 1) rest
    else match output.script with
      | none | some [] => findOnchain expectedPkScript amount usedOutputs (i + 1) rest
      | some script =>
        if script = expectedPkScript then do
          let expected ← amount.toBigInt
          if output.amount = some expected then return some i
          else findOnchain expectedPkScript amount usedOutputs (i + 1) rest
        else findOnchain expectedPkScript amount usedOutputs (i + 1) rest

/-- The outputs used afterwards. -/
def validateOnchainRecipient (lib : AddressLibrary) (commitmentTx : Transaction)
    (recipient : Recipient) (usedOutputs : List ℕ) : Except Message (List ℕ) := do
  let expectedPkScript ← lib.onchainAddress recipient.address
  rejectIf (falsy recipient.amount)
    (message ("invalid onchain output amount: " ++ recipient.address))
  rejectIf (recipient.assets.any (0 < ·.length))
    (message ("onchain output " ++ recipient.address ++ " cannot have assets"))
  match ← findOnchain expectedPkScript (amountOf recipient) usedOutputs 0 commitmentTx.outputs with
  | some i => return i :: usedOutputs
  | none => throw (message ("onchain output not found: " ++ recipient.address))

/-- `Extension.fromTx` -/
def extensionOf (lib : AddressLibrary) (tx : Transaction) : Except Message Extension :=
  match (tx.outputs.filterMap (·.script)).find? (Extension.isExtension lib.OP) with
  | some script => Extension.fromBytes lib.OP lib.hex script
  | none => .error (message "extension not found")

def getAssetPacket (extension : Extension) : Option Asset.Packet :=
  extension.packets.findSome? fun
    | .asset packet => some packet
    | _ => none

def validateAssetGroupOutput (lib : AddressLibrary) (packet : Asset.Packet) (outputIndex : ℕ)
    (asset : RecipientAsset) : Except Message Unit :=
  let isGroup (group : Asset.AssetGroup) : Bool := group.assetId.any fun assetId ↦
    lib.hex.encode assetId.serializeTo = asset.assetId
  match packet.groups.find? isGroup with
  | none => .error (message ("asset group not found in batch leaf: " ++ asset.assetId))
  | some group =>
    match group.outputs.find? (·.vout = .ofNat outputIndex) with
    | none => .error [.text ("asset output not found in asset group " ++ asset.assetId ++
        " at index "), .value (.ofNat outputIndex)]
    | some output => rejectIf (output.amount ≠ asset.amount)
      [.text ("invalid asset output amount for " ++ asset.assetId ++ ": got "),
        .value (.ofInt output.amount), .text ", want ", .value (.ofInt asset.amount)]

def validateAssetOutputs (lib : AddressLibrary) (leafTx : Transaction) (outputIndex : ℕ)
    (expectedAssets : List RecipientAsset) : Except Message Unit := do
  let extension ← extensionOf lib leafTx
  match getAssetPacket extension with
  | none => throw (message "no asset packet found in extension")
  | some packet => expectedAssets.forM (validateAssetGroupOutput lib packet outputIndex)

/-- Whether output `outputIndex` of leaf `leafIdx` is one to use. -/
def paysOffchain (expectedPkScript : Bytes) (expectedAmount : ℤ) (usedOutputs : List (ℕ × ℕ))
    (leafIdx outputIndex : ℕ) (output : TxOutput) : Bool :=
  output.script = some expectedPkScript && expectedPkScript ≠ [] &&
    output.amount = some expectedAmount && decide ((leafIdx, outputIndex) ∉ usedOutputs)

/-- The two loops: the leaf and the index of the first output to use. -/
def findOffchain (leaves : List Transaction) (expectedPkScript : Bytes) (expectedAmount : ℤ)
    (usedOutputs : List (ℕ × ℕ)) : Option (Transaction × ℕ × ℕ) :=
  (leaves.zipIdx).findSome? fun (leaf, leafIdx) ↦
    (leaf.outputs.zipIdx.find? fun (output, outputIndex) ↦
      paysOffchain expectedPkScript expectedAmount usedOutputs leafIdx outputIndex output).map
        fun (_, outputIndex) ↦ (leaf, leafIdx, outputIndex)

def validateOffchainRecipient (lib : AddressLibrary) (leaves : List Transaction)
    (expectedPkScript : Bytes) (recipient : Recipient) (usedOutputs : List (ℕ × ℕ)) :
    Except Message (List (ℕ × ℕ)) := do
  rejectIf (falsy recipient.amount)
    (message ("invalid offchain output " ++ recipient.address ++ ", missing amount"))
  let expectedAmount ← (amountOf recipient).toBigInt
  match findOffchain leaves expectedPkScript expectedAmount usedOutputs with
  | none => throw (message ("offchain send output not found: " ++ recipient.address))
  | some (leaf, leafIdx, outputIndex) =>
    match recipient.assets with
    | none | some [] => return (leafIdx, outputIndex) :: usedOutputs
    | some assets => do
      validateAssetOutputs lib leaf outputIndex assets
      return (leafIdx, outputIndex) :: usedOutputs

/-- The loop of `validateBatchRecipients`, with the outputs used so far. -/
def validateFrom (lib : AddressLibrary) (commitmentTx : Transaction) (leaves : List Transaction)
    (usedOutputs : List (ℕ × ℕ)) (usedOnchainOutputs : List ℕ) :
    List Recipient → Except Message Unit
  | [] => .ok ()
  | recipient :: rest =>
    match lib.arkAddress recipient.address with
    | none => do
      let used ← validateOnchainRecipient lib commitmentTx recipient usedOnchainOutputs
      validateFrom lib commitmentTx leaves usedOutputs used rest
    | some pkScript => do
      let used ← validateOffchainRecipient lib leaves pkScript recipient usedOutputs
      validateFrom lib commitmentTx leaves used usedOnchainOutputs rest

def validateBatchRecipients (lib : AddressLibrary) (commitmentTx : Transaction)
    (vtxoTreeLeaves : List Transaction) (recipients : List Recipient) : Except Message Unit :=
  validateFrom lib commitmentTx vtxoTreeLeaves [] [] recipients

/-- The loop of `validateBatchRecipientsWithoutTree`. -/
def validateWithoutTreeFrom (lib : AddressLibrary) (commitmentTx : Transaction)
    (usedOnchainOutputs : List ℕ) : List Recipient → Except Message Unit
  | [] => .ok ()
  | recipient :: rest =>
    match lib.arkAddress recipient.address with
    | none => do
      let used ← validateOnchainRecipient lib commitmentTx recipient usedOnchainOutputs
      validateWithoutTreeFrom lib commitmentTx used rest
    | some _ => .error (message ("offchain output " ++ recipient.address ++
        " cannot be validated: virtual output tree signing did not run"))

def validateBatchRecipientsWithoutTree (lib : AddressLibrary) (commitmentTx : Transaction)
    (recipients : List Recipient) : Except Message Unit :=
  validateWithoutTreeFrom lib commitmentTx [] recipients

/-- Output `i` of the transaction pays the recipient, whose address is an onchain one. -/
def Paid (lib : AddressLibrary) (tx : Transaction) (recipient : Recipient) (i : ℕ) : Prop :=
  lib.arkAddress recipient.address = none ∧ ∃ script amount output,
    lib.onchainAddress recipient.address = .ok script ∧
      recipient.amount = some (.ofInt amount) ∧ tx.outputs[i]? = some output ∧
        output.script = some script ∧ output.amount = some amount

theorem findOnchain_ok {script : Bytes} {amount : Number} {used : List ℕ} {outputs : List TxOutput}
    {start i : ℕ} (h : findOnchain script amount used start outputs = .ok (some i)) :
    i ∉ used ∧ ∃ n z output, i = start + n ∧ amount = .ofInt z ∧ outputs[n]? = some output ∧
      output.script = some script ∧ output.amount = some z := by
  induction outputs generalizing start with
  | nil => cases h
  | cons output rest ih =>
    have hlater (h : findOnchain script amount used (start + 1) rest = .ok (some i)) :
        i ∉ used ∧ ∃ n z found, i = start + n ∧ amount = .ofInt z ∧
          (output :: rest)[n]? = some found ∧ found.script = some script ∧
            found.amount = some z := by
      obtain ⟨hnew, n, z, found, rfl, hamount, hget, hpays⟩ := ih h
      refine ⟨hnew, n + 1, z, found, ?_, hamount, hget, hpays⟩
      omega
    unfold findOnchain at h
    split at h
    · exact hlater h
    · rename_i hnew
      split at h
      · exact hlater h
      · exact hlater h
      · rename_i found hne hscript
        split at h
        · rename_i hsame
          obtain ⟨z, hz, h⟩ := bind_ok.mp h
          split at h
          · rename_i hamount
            obtain rfl := Option.some.inj (pure_ok.mp h)
            exact ⟨hnew, 0, z, output, rfl, Number.toBigInt_eq_ok hz, rfl, hsame ▸ hscript,
              hamount⟩
          · exact hlater h
        · exact hlater h

theorem validateOnchainRecipient_ok {lib : AddressLibrary} {tx : Transaction}
    {recipient : Recipient} {used used' : List ℕ}
    (hark : lib.arkAddress recipient.address = none)
    (h : validateOnchainRecipient lib tx recipient used = .ok used') :
    ∃ i ∉ used, used' = i :: used ∧ Paid lib tx recipient i := by
  obtain ⟨script, hscript, h⟩ := bind_ok.mp h
  obtain ⟨hamount, h⟩ := then_ok.mp h
  obtain ⟨-, h⟩ := then_ok.mp h
  obtain ⟨found, hfound, h⟩ := bind_ok.mp h
  cases found with
  | none => cases h
  | some i =>
    obtain rfl := pure_ok.mp h
    obtain ⟨hnew, n, z, output, rfl, hz, hget, hpays, hvalue⟩ := findOnchain_ok hfound
    rw [Nat.zero_add] at hnew ⊢
    refine ⟨n, hnew, rfl, hark, script, z, output, hscript, ?_, hget, hpays, hvalue⟩
    cases hrecipient : recipient.amount with
    | none => simp [falsy, hrecipient] at hamount
    | some a =>
      simp only [amountOf, hrecipient, Option.getD_some] at hz
      rw [hz]

theorem validateWithoutTreeFrom_ok {lib : AddressLibrary} {tx : Transaction} {used : List ℕ}
    {recipients : List Recipient} (h : validateWithoutTreeFrom lib tx used recipients = .ok ()) :
    ∃ outputs : List ℕ, outputs.Nodup ∧ (∀ i ∈ outputs, i ∉ used) ∧
      List.Forall₂ (Paid lib tx) recipients outputs := by
  induction recipients generalizing used with
  | nil => exact ⟨[], List.nodup_nil, by simp, .nil⟩
  | cons recipient rest ih =>
    unfold validateWithoutTreeFrom at h
    split at h
    · rename_i hark
      obtain ⟨used', hused, h⟩ := bind_ok.mp h
      obtain ⟨i, hnew, rfl, hpaid⟩ := validateOnchainRecipient_ok hark hused
      obtain ⟨outputs, hnodup, hapart, hall⟩ := ih h
      refine ⟨i :: outputs, List.nodup_cons.mpr ⟨?_, hnodup⟩, ?_, .cons hpaid hall⟩
      · intro hi
        exact hapart i hi List.mem_cons_self
      · intro j hj
        rcases List.mem_cons.mp hj with rfl | hj
        · exact hnew
        · exact fun hmem ↦ hapart j hj (List.mem_cons_of_mem _ hmem)
    · cases h

def AllPaid (lib : AddressLibrary) (tx : Transaction) (recipients : List Recipient) : Prop :=
  ∃ outputs : List ℕ, outputs.Nodup ∧ List.Forall₂ (Paid lib tx) recipients outputs

theorem validateBatchRecipientsWithoutTree_ok {lib : AddressLibrary} {tx : Transaction}
    {recipients : List Recipient}
    (h : validateBatchRecipientsWithoutTree lib tx recipients = .ok ()) :
    AllPaid lib tx recipients := by
  obtain ⟨outputs, hnodup, -, hall⟩ := validateWithoutTreeFrom_ok h
  exact ⟨outputs, hnodup, hall⟩

end ArkadeSdk.Batch
