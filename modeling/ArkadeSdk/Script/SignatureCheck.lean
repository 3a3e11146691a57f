import ArkadeSdk.Lib.HexCodec
import ArkadeSdk.Script.TaprootTree
import ArkadeSdk.Wallet.OffchainSubmit

/-! The tapscript signatures of an input, checked one by one and then against those required. -/

namespace ArkadeSdk.SignatureCheck

open WireFormat JsNumber
open OffchainSubmit (TapScriptSig)

structure WitnessUtxo where
  script : Bytes
  amount : ℕ

/-- The control blocks of the leaves are not looked at. -/
structure PsbtInput where
  witnessUtxo : Option WitnessUtxo
  tapScriptSig : Option (List TapScriptSig)
  tapLeafScript : Option (List Bytes)

/-- A transaction of the library: its inputs, and the message that a signature of an input is
over. -/
structure Transaction where
  inputs : List PsbtInput
  preimageWitnessV1 : ℕ → List Bytes → ℕ → List ℕ → Bytes → ℕ → Except Message Bytes

structure Crypto where
  tapLeafHash : Bytes → ℕ → Bytes
  schnorrVerify : Bytes → Bytes → Bytes → Except Message Bool

def SigHash.DEFAULT : ℕ := 0

section Verify

variable (hex : HexCodec.Codec) (crypto : Crypto) (tx : Transaction) (inputIndex : ℕ)
  (requiredSigners excludePubkeys : List String) (allowedSighashTypes : List ℕ)
  (expectedLeafHash : Option Bytes)

def getInput (index : ℕ) : Except Message PsbtInput :=
  match tx.inputs[index]? with
  | some input => .ok input
  | none => .error [.text "Wrong input index=", .value (.ofNat index)]

def prevout (entry : PsbtInput × ℕ) : Except Message WitnessUtxo :=
  match entry.1.witnessUtxo with
  | some utxo => .ok utxo
  | none => .error [.text "Input ", .value (.ofNat entry.2), .text " is missing witnessUtxo"]

def formatSighash (type : ℕ) : String := "0x" ++ hex.encode [UInt8.ofNat type]

def sighashType (signature : Bytes) : ℕ :=
  match signature.drop 64 with
  | [type] => type.toNat
  | _ => SigHash.DEFAULT

def leafHashOf (scriptWithVersion : Bytes) : Bytes :=
  crypto.tapLeafHash scriptWithVersion.dropLast
    ((scriptWithVersion.getLast?.map UInt8.toNat).getD TAP_LEAF_VERSION)

def forInput (rest : List Part) : Message :=
  [Part.text "Input ", .value (.ofNat inputIndex), .text ": "] ++ rest

def checkLeafHash (entry : TapScriptSig) : Except Message Unit :=
  match expectedLeafHash with
  | none => .ok ()
  | some expected => rejectIf (hex.encode entry.leafHash ≠ hex.encode expected)
      (forInput inputIndex [.text "signature from ", .text (hex.encode entry.pubKey),
        .text " commits to leaf ", .text (hex.encode entry.leafHash), .text ", expected ",
        .text (hex.encode expected)])

def matchingLeaf (leaves : List Bytes) (entry : TapScriptSig) : Except Message (Bytes × ℕ) :=
  let noLeaf := forInput inputIndex
    [.text "No tapLeafScript found matching leafHash ", .text (hex.encode entry.leafHash)]
  match leaves.find? fun leaf ↦ hex.encode (leafHashOf crypto leaf) = hex.encode entry.leafHash with
  | none => .error noLeaf
  | some leaf =>
    match leaf.getLast? with
    | none => .error noLeaf
    | some version => .ok (leaf.dropLast, version.toNat)

def checkEntry (input : PsbtInput) (prevouts : List WitnessUtxo) (entry : TapScriptSig) :
    Except Message Unit := do
  checkLeafHash hex inputIndex expectedLeafHash entry
  let type := sighashType entry.signature
  rejectIf (type ∉ allowedSighashTypes)
    [.text "Unallowed sighash type ", .text (formatSighash hex type), .text " for input ",
      .value (.ofNat inputIndex), .text ", pubkey ", .text (hex.encode entry.pubKey), .text "."]
  let leaves := input.tapLeafScript.getD []
  rejectIf (leaves.length = 0) []
  let leaf ← matchingLeaf hex crypto inputIndex leaves entry
  let message ← tx.preimageWitnessV1 inputIndex (prevouts.map (·.script)) type
    (prevouts.map (·.amount)) leaf.1 leaf.2
  let isValid ← crypto.schnorrVerify (entry.signature.take 64) message entry.pubKey
  rejectIf (isValid = false) [.text "Invalid signature for input ",
    .value (.ofNat inputIndex), .text ", pubkey ", .text (hex.encode entry.pubKey)]

/-- One pass of the loop over the signatures. -/
def verifyEntry (input : PsbtInput) (prevouts : List WitnessUtxo) (entry : TapScriptSig) :
    Except Message Unit :=
  if hex.encode entry.pubKey ∈ excludePubkeys then .ok ()
  else checkEntry hex crypto tx inputIndex allowedSighashTypes expectedLeafHash input prevouts entry

def missingSigners (sigs : List TapScriptSig) : List String :=
  (requiredSigners.filter (· ∉ excludePubkeys)).filter
    (· ∉ sigs.map fun entry ↦ hex.encode entry.pubKey)

def verifyTapscriptSignatures : Except Message Unit := do
  let input ← getInput tx inputIndex
  let prevouts ← tx.inputs.zipIdx.mapM prevout
  let sigs := input.tapScriptSig.getD []
  rejectIf (sigs.length = 0)
    [.text "Input ", .value (.ofNat inputIndex), .text " is missing tapScriptSig"]
  sigs.forM (verifyEntry hex crypto tx inputIndex excludePubkeys allowedSighashTypes
    expectedLeafHash input prevouts)
  let missing := missingSigners hex requiredSigners excludePubkeys sigs
  rejectIf (missing.length > 0) [.text "Missing signatures from: ",
    .text (", ".intercalate (missing.map fun pk ↦ String.ofList (pk.toList.take 16))), .text "..."]

def assertServerSignedLeaf (serverTx localTx : Transaction) (inputIndex : ℕ)
    (serverPubkeyHex context : String) : Except Message Unit := do
  let localInput ← getInput localTx inputIndex
  match (localInput.tapLeafScript.getD []).head? with
  | none => throw [.text context, .text ": input ", .value (.ofNat inputIndex),
      .text " carries no spend leaf to verify the server signature against"]
  | some leaf =>
    match verifyTapscriptSignatures hex crypto serverTx inputIndex [serverPubkeyHex] []
        [SigHash.DEFAULT] (some (crypto.tapLeafHash leaf.dropLast TAP_LEAF_VERSION)) with
    | .ok () => return ()
    | .error e => throw ([Part.text context, .text ": input ", .value (.ofNat inputIndex),
        .text " is not signed by the server on the leaf being spent ("] ++ e ++ [Part.text ")"])

/-- The entry is over the expected leaf, with a type that is allowed, and its first 64 bytes sign
the message of a leaf that the input carries. -/
structure EntryVerified (input : PsbtInput) (prevouts : List WitnessUtxo) (entry : TapScriptSig) :
    Prop where
  expected : ∀ h ∈ expectedLeafHash, entry.leafHash = h
  allowed : sighashType entry.signature ∈ allowedSighashTypes
  signs : ∃ leaf ∈ input.tapLeafScript.getD [], ∃ version : UInt8, leaf.getLast? = some version ∧
    crypto.tapLeafHash leaf.dropLast version.toNat = entry.leafHash ∧
      ∃ message, tx.preimageWitnessV1 inputIndex (prevouts.map (·.script))
          (sighashType entry.signature) (prevouts.map (·.amount)) leaf.dropLast version.toNat =
            .ok message ∧
        crypto.schnorrVerify (entry.signature.take 64) message entry.pubKey = .ok true

/-- The prevouts are those of all inputs, every required signer has an entry that holds, and no
entry that is not excluded fails. -/
structure SignaturesVerified (input : PsbtInput) (prevouts : List WitnessUtxo) : Prop where
  checked : tx.inputs[inputIndex]? = some input
  allInputs : tx.inputs.map (·.witnessUtxo) = prevouts.map some
  signers : ∀ signer ∈ requiredSigners, signer ∉ excludePubkeys →
    ∃ entry ∈ input.tapScriptSig.getD [], hex.encode entry.pubKey = signer ∧
      EntryVerified crypto tx inputIndex allowedSighashTypes expectedLeafHash input prevouts entry
  entries : ∀ entry ∈ input.tapScriptSig.getD [], hex.encode entry.pubKey ∉ excludePubkeys →
    EntryVerified crypto tx inputIndex allowedSighashTypes expectedLeafHash input prevouts entry

end Verify

section Soundness

variable {hex : HexCodec.Codec} {crypto : Crypto} {tx : Transaction} {inputIndex : ℕ}
  {requiredSigners excludePubkeys : List String} {allowedSighashTypes : List ℕ}
  {expectedLeafHash : Option Bytes} {input : PsbtInput} {prevouts : List WitnessUtxo}
  {entry : TapScriptSig}

theorem checkLeafHash_ok (h : checkLeafHash hex inputIndex expectedLeafHash entry = .ok ()) :
    ∀ expected ∈ expectedLeafHash, entry.leafHash = expected := by
  rintro expected rfl
  have hhex := rejectIf_ok.mp h
  rw [not_not] at hhex
  exact hex.encode_injective hhex

theorem matchingLeaf_ok {leaves : List Bytes} {script : Bytes} {version : ℕ}
    (h : matchingLeaf hex crypto inputIndex leaves entry = .ok (script, version)) :
    ∃ leaf ∈ leaves, ∃ last : UInt8, leaf.getLast? = some last ∧ script = leaf.dropLast ∧
      version = last.toNat ∧ crypto.tapLeafHash leaf.dropLast last.toNat = entry.leafHash := by
  unfold matchingLeaf at h
  dsimp only at h
  split at h
  · cases h
  · next leaf hfind =>
    split at h
    · cases h
    · next last hlast =>
      obtain ⟨rfl, rfl⟩ := Prod.mk.inj (Except.ok.inj h)
      have hhash : hex.encode (leafHashOf crypto leaf) = hex.encode entry.leafHash := by
        simpa using List.find?_some hfind
      have hleaf := hex.encode_injective hhash
      rw [leafHashOf, hlast] at hleaf
      exact ⟨leaf, List.mem_of_find?_eq_some hfind, last, hlast, rfl, rfl, hleaf⟩

theorem checkEntry_ok (h : checkEntry hex crypto tx inputIndex allowedSighashTypes
    expectedLeafHash input prevouts entry = .ok ()) :
    EntryVerified crypto tx inputIndex allowedSighashTypes expectedLeafHash input prevouts
      entry := by
  obtain ⟨hexpected, h⟩ := then_ok.mp h
  obtain ⟨hallowed, h⟩ := then_ok.mp h
  obtain ⟨-, h⟩ := then_ok.mp h
  obtain ⟨⟨script, version⟩, hleaf, h⟩ := bind_ok.mp h
  obtain ⟨message, hmessage, h⟩ := bind_ok.mp h
  obtain ⟨isValid, hverify, hvalid⟩ := bind_ok.mp h
  obtain ⟨leaf, hmem, last, hlast, rfl, rfl, hhash⟩ := matchingLeaf_ok hleaf
  have htrue : isValid = true := by simpa using rejectIf_ok.mp hvalid
  refine ⟨checkLeafHash_ok hexpected, not_not.mp (rejectIf_ok.mp hallowed), leaf, hmem, last,
    hlast, hhash, message, hmessage, ?_⟩
  rw [hverify, htrue]

theorem verifyEntry_ok (h : verifyEntry hex crypto tx inputIndex excludePubkeys
    allowedSighashTypes expectedLeafHash input prevouts entry = .ok ())
    (hkey : hex.encode entry.pubKey ∉ excludePubkeys) :
    EntryVerified crypto tx inputIndex allowedSighashTypes expectedLeafHash input prevouts
      entry := by
  rw [verifyEntry, if_neg hkey] at h
  exact checkEntry_ok h

theorem prevout_ok {inputs : List PsbtInput} {prevouts : List WitnessUtxo} {start : ℕ}
    (h : (inputs.zipIdx start).mapM prevout = .ok prevouts) :
    inputs.map (·.witnessUtxo) = prevouts.map some := by
  induction inputs generalizing start prevouts with
  | nil =>
    cases h
    rfl
  | cons input inputs ih =>
    obtain ⟨utxo, hutxo, rest, hrest, rfl⟩ := mapM_cons_ok.mp h
    have hsome : input.witnessUtxo = some utxo := by
      unfold prevout at hutxo
      split at hutxo
      · next hsome =>
        cases hutxo
        exact hsome
      · cases hutxo
    rw [List.map_cons, List.map_cons, hsome, ih hrest]

theorem getInput_ok {index : ℕ} (h : getInput tx index = .ok input) :
    tx.inputs[index]? = some input := by
  unfold getInput at h
  split at h
  · next hget =>
    cases h
    exact hget
  · cases h

theorem verifyTapscriptSignatures_parts (h : verifyTapscriptSignatures hex crypto tx inputIndex
    requiredSigners excludePubkeys allowedSighashTypes expectedLeafHash = .ok ()) :
    ∃ input prevouts, tx.inputs[inputIndex]? = some input ∧
      tx.inputs.map (·.witnessUtxo) = prevouts.map some ∧
      (∀ entry ∈ input.tapScriptSig.getD [], hex.encode entry.pubKey ∉ excludePubkeys →
        EntryVerified crypto tx inputIndex allowedSighashTypes expectedLeafHash input prevouts
          entry) ∧
      missingSigners hex requiredSigners excludePubkeys (input.tapScriptSig.getD []) = [] := by
  obtain ⟨input, hinput, h⟩ := bind_ok.mp h
  obtain ⟨prevouts, hprevouts, h⟩ := bind_ok.mp h
  obtain ⟨-, h⟩ := then_ok.mp h
  obtain ⟨hentries, h⟩ := then_ok.mp h
  refine ⟨input, prevouts, getInput_ok hinput, prevout_ok hprevouts,
    fun entry hentry ↦ verifyEntry_ok (forM_ok.mp hentries entry hentry), ?_⟩
  have hlength := rejectIf_ok.mp h
  rwa [gt_iff_lt, Nat.not_lt, Nat.le_zero, List.length_eq_zero_iff] at hlength

/-- Where nobody is missing, a key that is asked for is that of some entry. -/
theorem exists_entry {sigs : List TapScriptSig} {signer : String}
    (h : missingSigners hex requiredSigners excludePubkeys sigs = [])
    (hsigner : signer ∈ requiredSigners) (hkept : signer ∉ excludePubkeys) :
    ∃ entry ∈ sigs, hex.encode entry.pubKey = signer := by
  by_contra hnone
  have hmissing : signer ∈ missingSigners hex requiredSigners excludePubkeys sigs := by
    refine List.mem_filter.mpr ⟨List.mem_filter.mpr ⟨hsigner, by simpa using hkept⟩, ?_⟩
    simpa using fun entry hentry hkey ↦ hnone ⟨entry, hentry, hkey⟩
  rw [h] at hmissing
  cases hmissing

/-- The server has signed the leaf of the local transaction, whatever its own copy carries. -/
theorem assertServerSignedLeaf_sound {serverTx localTx : Transaction}
    {serverPubkeyHex context : String}
    (h : assertServerSignedLeaf hex crypto serverTx localTx inputIndex serverPubkeyHex context =
      .ok ()) :
    ∃ localInput leaf input prevouts, localTx.inputs[inputIndex]? = some localInput ∧
      (localInput.tapLeafScript.getD []).head? = some leaf ∧
      ∃ entry ∈ input.tapScriptSig.getD [], hex.encode entry.pubKey = serverPubkeyHex ∧
        EntryVerified crypto serverTx inputIndex [SigHash.DEFAULT]
          (some (crypto.tapLeafHash leaf.dropLast TAP_LEAF_VERSION)) input prevouts entry := by
  obtain ⟨localInput, hinput, h⟩ := bind_ok.mp h
  split at h
  · cases h
  · next leaf hleaf =>
    split at h
    · next hverify =>
      obtain ⟨input, prevouts, -, -, hentries, hmissing⟩ :=
        verifyTapscriptSignatures_parts hverify
      obtain ⟨entry, hentry, hkey⟩ :=
        exists_entry hmissing (List.mem_singleton.mpr rfl) List.not_mem_nil
      exact ⟨localInput, leaf, input, prevouts, getInput_ok hinput, hleaf, entry, hentry, hkey,
        hentries entry hentry List.not_mem_nil⟩
    · cases h

/-- The keys of the entries are compared with those required at the end, when every entry of a key
that is not excluded has been verified. -/
theorem verifyTapscriptSignatures_sound (h : verifyTapscriptSignatures hex crypto tx inputIndex
    requiredSigners excludePubkeys allowedSighashTypes expectedLeafHash = .ok ()) :
    ∃ input prevouts, SignaturesVerified hex crypto tx inputIndex requiredSigners excludePubkeys
      allowedSighashTypes expectedLeafHash input prevouts := by
  obtain ⟨input, prevouts, hinput, hprevouts, hentries, hmissing⟩ :=
    verifyTapscriptSignatures_parts h
  refine ⟨input, prevouts, hinput, hprevouts, fun signer hsigner hkept ↦ ?_, hentries⟩
  obtain ⟨entry, hentry, rfl⟩ := exists_entry hmissing hsigner hkept
  exact ⟨entry, hentry, rfl, hentries entry hentry hkept⟩

end Soundness

section Sample

/-- A curve on which a signature is the key and the message. -/
def sampleCrypto : Crypto where
  tapLeafHash script version := script ++ [UInt8.ofNat version]
  schnorrVerify signature message key := .ok (signature = key ++ message)

def signedTx : Transaction where
  inputs := [⟨some ⟨[0x51], 1000⟩, some [⟨[1], [0xac, 0xc0], [1, 0xac]⟩], some [[0xac, 0xc0]]⟩]
  preimageWitnessV1 _ _ _ _ script _ := .ok script

theorem signedTx_verified : ∃ input prevouts, SignaturesVerified HexCodec.base16 sampleCrypto
    signedTx 0 ["01"] [] [SigHash.DEFAULT] (some [0xac, 0xc0]) input prevouts :=
  verifyTapscriptSignatures_sound rfl

end Sample

end ArkadeSdk.SignatureCheck
