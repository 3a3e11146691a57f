import ArkadeSdk.Lib.HexCodec
import ArkadeSdk.Wallet.WalletState

/-! Keys and preimages that the wallet provisions for a contract, and the way back to the preimage
from what was stored of it. -/

namespace ArkadeSdk.ContractSecrets

open JsNumber HDWallet
open WireFormat (Bytes)

/-- Hashing, signing with the key of an x-only public key, whether a descriptor reads as an HD
child, its leaf key, whether an account derives it, and an account's descriptors. -/
structure WalletLibraries where
  sha256 : Bytes → Bytes
  signSchnorrDeterministic : Bytes → Bytes → Bytes
  parseHDDescriptor : String → Bool
  deriveDescriptorLeafPubKey : String → Option Bytes
  isOurs : String → String → Bool
  materialize : Materialize

def identityDescriptor (xOnlyPublicKey : Bytes) : String :=
  "tr(" ++ HexCodec.base16.encode xOnlyPublicKey ++ ")"

/-- Hashes and deterministic signatures tell messages apart, the indices of an account have keys of
their own, and a bare key is no HD child. -/
structure WalletLibraries.Sound (lib : WalletLibraries) : Prop where
  hash : ∀ m m', lib.sha256 m = lib.sha256 m' → m = m'
  signature : ∀ key key' hash hash', lib.signSchnorrDeterministic key hash =
    lib.signSchnorrDeterministic key' hash' → hash = hash'
  derivation : ∀ account i j d d' key, lib.materialize account i = some d →
    lib.materialize account j = some d' → lib.deriveDescriptorLeafPubKey d = some key →
    lib.deriveDescriptorLeafPubKey d' = some key → i = j
  bare : ∀ key, lib.parseHDDescriptor (identityDescriptor key) = false

def ARKADE_SWAP_PREIMAGE_TAG : String := "Arkade-RFQ-Preimage-v1"
def ARKADE_SALTED_PREIMAGE_TAG : String := "Arkade-Contract-Preimage-Salted-v1"

def encodeTag (tag : String) : Bytes := tag.toList.map fun c ↦ UInt8.ofNat c.toNat

def u32le (index : ℕ) : Bytes := (List.range 4).map fun k ↦ UInt8.ofNat (index / 256 ^ k)

inductive Refusal
  | foreignDescriptor
  | walletCannotSign
  | error (text : Message)
  deriving DecidableEq

def badLength (what : String) (length : ℕ) : Refusal :=
  .error [.text what, .value (.ofNat length)]

def buildPreimageMessage (xonly : Bytes) (index : ℕ) : Except Refusal Bytes :=
  if xonly.length ≠ 32 then .error (badLength "x-only pubkey must be 32 bytes, got " xonly.length)
  else if index > 0xffffffff then .error (badLength "index must be a u32, got " index)
  else .ok (encodeTag ARKADE_SWAP_PREIMAGE_TAG ++ xonly ++ u32le index)

def buildSaltedPreimageMessage (xonly salt : Bytes) : Except Refusal Bytes :=
  if xonly.length ≠ 32 then .error (badLength "x-only pubkey must be 32 bytes, got " xonly.length)
  else if salt.length ≠ 32 then
    .error (badLength "preimage salt must be 32 bytes, got " salt.length)
  else .ok (encodeTag ARKADE_SALTED_PREIMAGE_TAG ++ xonly ++ salt)

def PREIMAGE_INDEX : ℕ := 0

def preimageMessage (xonly : Bytes) : Option Bytes → Except Refusal Bytes
  | some salt => buildSaltedPreimageMessage xonly salt
  | none => buildPreimageMessage xonly PREIMAGE_INDEX

/-- What a wallet's signer answers: its key, which may fail, whether it signs at all, whether it has
the deterministic method, and whether that method goes through. It signs with its own key. -/
structure Signer where
  xOnlyPublicKey : Except Message Bytes
  isSigningIdentity : Bool
  isDeterministicSigner : Bool
  signs : Bool

inductive SignerAnswer
  | foreign
  | fails (text : Message)
  | signer (s : Signer)

variable (lib : WalletLibraries)

def isPerArtifactDescriptor (descriptor : String) : Bool := lib.parseHDDescriptor descriptor

def contractSigner (answer : SignerAnswer) (descriptor : String) :
    Except Refusal (Signer × Bytes) :=
  match answer with
  | .foreign => .error .foreignDescriptor
  | .fails text => .error (.error text)
  | .signer signer =>
    match lib.deriveDescriptorLeafPubKey descriptor with
    | none => .error .foreignDescriptor
    | some expected =>
      match signer.xOnlyPublicKey with
      | .error text => .error (.error text)
      | .ok actual =>
        if actual ≠ expected then .error .foreignDescriptor
        else if signer.isSigningIdentity = false then .error .walletCannotSign
        else .ok (signer, actual)

def notDerivable (descriptor : String) : Refusal :=
  .error [.text "wallet cannot sign deterministically for ", .text descriptor,
    .text "; its preimage is not derivable"]

def derivePreimage (answer : SignerAnswer) (descriptor : String) (salt : Option Bytes) :
    Except Refusal Bytes := do
  let (signer, xonly) ← contractSigner lib answer descriptor
  if signer.isDeterministicSigner = false then throw (notDerivable descriptor)
  let message ← preimageMessage xonly salt
  if signer.signs = false then throw (notDerivable descriptor)
  return lib.sha256 (lib.signSchnorrDeterministic xonly (lib.sha256 message))

structure ProvisionedClaimSecret where
  descriptor : String
  pubkey : Bytes
  preimage : Bytes
  paymentHash : Bytes
  preimageSalt : Option Bytes
  mustPersistPreimage : Bool
  deriving DecidableEq

/-- The preimage, its salt and whether it must be stored. `salt` and `fallback` are what
`randomBytes` draws. -/
def claim (answer : SignerAnswer) (descriptor : String) (given : Option Bytes)
    (salt fallback : Bytes) : Except Refusal (Bytes × Option Bytes × Bool) :=
  match given with
  | some preimage => .ok (preimage, none, true)
  | none =>
    if isPerArtifactDescriptor lib descriptor then
      (derivePreimage lib answer descriptor none).map fun preimage ↦ (preimage, none, false)
    else match derivePreimage lib answer descriptor (some salt) with
      | .ok preimage => .ok (preimage, some salt, false)
      | .error .foreignDescriptor => .error .foreignDescriptor
      | .error .walletCannotSign => .error .walletCannotSign
      | .error (.error _) => .ok (fallback, none, true)

/-- `provisionClaimSecret` from the descriptor on. The wallet is asked for its signer twice. -/
def provisionFor (first second : SignerAnswer) (descriptor : String) (given : Option Bytes)
    (salt fallback : Bytes) : Except Refusal ProvisionedClaimSecret := do
  let (_, pubkey) ← contractSigner lib first descriptor
  let (preimage, preimageSalt, mustPersistPreimage) ←
    claim lib second descriptor given salt fallback
  return ⟨descriptor, pubkey, preimage, lib.sha256 preimage, preimageSalt, mustPersistPreimage⟩

def noPreimage (descriptor : String) : Refusal :=
  .error [.text "descriptor ", .text descriptor,
    .text " names no single artifact, so its preimage cannot be derived; ",
    .text "no salt and no stored preimage were given"]

def contractPreimage (answer : SignerAnswer) (descriptor : String) (stored salt : Option Bytes) :
    Except Refusal Bytes :=
  match stored with
  | some preimage =>
    if preimage.length ≠ 32 then
      .error (badLength "stored preimage must be 32 bytes, got " preimage.length)
    else .ok preimage
  | none =>
    if isPerArtifactDescriptor lib descriptor then derivePreimage lib answer descriptor none
    else match salt with
      | some salt => derivePreimage lib answer descriptor (some salt)
      | none => .error (noPreimage descriptor)

section Derive

variable {lib} {answer answer' : SignerAnswer} {descriptor : String} {salt : Option Bytes}
  {preimage : Bytes}

theorem contractSigner_eq_ok {signer : Signer} {xonly : Bytes}
    (h : contractSigner lib answer descriptor = .ok (signer, xonly)) :
    answer = .signer signer ∧ lib.deriveDescriptorLeafPubKey descriptor = some xonly ∧
      signer.xOnlyPublicKey = .ok xonly ∧ signer.isSigningIdentity = true := by
  unfold contractSigner at h
  split at h
  · cases h
  · cases h
  · split at h
    · cases h
    · rename_i expected hleaf
      split at h
      · cases h
      · rename_i actual hactual
        split at h
        · cases h
        · rename_i heq
          obtain rfl := not_not.mp heq
          split at h
          · cases h
          · rename_i hsigning
            obtain ⟨rfl, rfl⟩ := Prod.mk.inj (Except.ok.inj h)
            exact ⟨rfl, hleaf, hactual, by simpa using hsigning⟩

theorem contractSigner_signer {signer : Signer} {xonly : Bytes}
    (hleaf : lib.deriveDescriptorLeafPubKey descriptor = some xonly)
    (hkey : signer.xOnlyPublicKey = .ok xonly) (hsigning : signer.isSigningIdentity = true) :
    contractSigner lib (.signer signer) descriptor = .ok (signer, xonly) := by
  unfold contractSigner
  simp [hleaf, hkey, hsigning]

theorem derivePreimage_eq_ok (h : derivePreimage lib answer descriptor salt = .ok preimage) :
    ∃ xonly message, lib.deriveDescriptorLeafPubKey descriptor = some xonly ∧
      preimageMessage xonly salt = .ok message ∧
      preimage = lib.sha256 (lib.signSchnorrDeterministic xonly (lib.sha256 message)) := by
  obtain ⟨⟨signer, xonly⟩, hsigner, h⟩ := WireFormat.bind_ok.mp h
  obtain ⟨-, hleaf, -, -⟩ := contractSigner_eq_ok hsigner
  dsimp only at h
  split at h
  · cases h
  · obtain ⟨message, hmessage, h⟩ := WireFormat.bind_ok.mp h
    split at h
    · cases h
    · exact ⟨xonly, message, hleaf, hmessage, (Except.ok.inj h).symm⟩

def Capable (lib : WalletLibraries) (answer : SignerAnswer) (descriptor : String) : Prop :=
  ∃ signer xonly, answer = .signer signer ∧
    lib.deriveDescriptorLeafPubKey descriptor = some xonly ∧
    signer.xOnlyPublicKey = .ok xonly ∧ signer.isSigningIdentity = true ∧
    signer.isDeterministicSigner = true ∧ signer.signs = true

theorem derivePreimage_again (h : derivePreimage lib answer descriptor salt = .ok preimage)
    (hcapable : Capable lib answer' descriptor) :
    derivePreimage lib answer' descriptor salt = .ok preimage := by
  obtain ⟨xonly, message, hleaf, hmessage, rfl⟩ := derivePreimage_eq_ok h
  obtain ⟨signer, xonly', rfl, hleaf', hkey, hsigning, hdet, hsigns⟩ := hcapable
  obtain rfl := Option.some.inj (hleaf'.symm.trans hleaf)
  unfold derivePreimage
  rw [contractSigner_signer hleaf hkey hsigning]
  simp [bind, Except.bind, hdet, hsigns, hmessage, pure, Except.pure]

theorem derivePreimage_unique {preimage' : Bytes}
    (h : derivePreimage lib answer descriptor salt = .ok preimage)
    (h' : derivePreimage lib answer' descriptor salt = .ok preimage') : preimage = preimage' := by
  obtain ⟨xonly, message, hleaf, hmessage, rfl⟩ := derivePreimage_eq_ok h
  obtain ⟨xonly', message', hleaf', hmessage', rfl⟩ := derivePreimage_eq_ok h'
  obtain rfl := Option.some.inj (hleaf.symm.trans hleaf')
  obtain rfl := Except.ok.inj (hmessage.symm.trans hmessage')
  rfl

end Derive

theorem preimageMessage_eq_ok {xonly message : Bytes} {salt : Option Bytes}
    (h : preimageMessage xonly salt = .ok message) :
    xonly.length = 32 ∧ match salt with
      | none => message = encodeTag ARKADE_SWAP_PREIMAGE_TAG ++ xonly ++ u32le PREIMAGE_INDEX
      | some salt => salt.length = 32 ∧
        message = encodeTag ARKADE_SALTED_PREIMAGE_TAG ++ xonly ++ salt := by
  cases salt with
  | none =>
    dsimp only [preimageMessage, buildPreimageMessage] at h
    split at h
    · cases h
    · rename_i hlength
      exact ⟨not_not.mp hlength, (Except.ok.inj h).symm⟩
  | some salt =>
    dsimp only [preimageMessage, buildSaltedPreimageMessage] at h
    split at h
    · cases h
    · rename_i hlength
      split at h
      · cases h
      · rename_i hsalt
        exact ⟨not_not.mp hlength, not_not.mp hsalt, (Except.ok.inj h).symm⟩

theorem preimageMessage_injective {xonly xonly' message : Bytes} {salt salt' : Option Bytes}
    (h : preimageMessage xonly salt = .ok message)
    (h' : preimageMessage xonly' salt' = .ok message) : xonly = xonly' ∧ salt = salt' := by
  obtain ⟨hlength, h⟩ := preimageMessage_eq_ok h
  obtain ⟨hlength', h'⟩ := preimageMessage_eq_ok h'
  cases salt with
  | none =>
    cases salt' with
    | none =>
      obtain ⟨hkeys, -⟩ := List.append_inj (h.symm.trans h') (by simp [hlength, hlength'])
      exact ⟨List.append_cancel_left hkeys, rfl⟩
    | some salt' =>
      have heq := congrArg List.length (h.symm.trans h'.2)
      simp [encodeTag, u32le, hlength, hlength', h'.1, ARKADE_SWAP_PREIMAGE_TAG,
        ARKADE_SALTED_PREIMAGE_TAG] at heq
  | some salt =>
    cases salt' with
    | none =>
      have heq := congrArg List.length (h.2.symm.trans h')
      simp [encodeTag, u32le, hlength, hlength', h.1, ARKADE_SWAP_PREIMAGE_TAG,
        ARKADE_SALTED_PREIMAGE_TAG] at heq
    | some salt' =>
      obtain ⟨hkeys, hsalts⟩ := List.append_inj (h.2.symm.trans h'.2) (by simp [hlength, hlength'])
      exact ⟨List.append_cancel_left hkeys, congrArg some hsalts⟩

section Secrets

variable {lib} {descriptor descriptor' : String} {salt salt' : Option Bytes}
  {preimage : Bytes} {answer answer' : SignerAnswer}

theorem derivePreimage_injective (hlib : lib.Sound)
    (h : derivePreimage lib answer descriptor salt = .ok preimage)
    (h' : derivePreimage lib answer' descriptor' salt' = .ok preimage) :
    (∃ key, lib.deriveDescriptorLeafPubKey descriptor = some key ∧
      lib.deriveDescriptorLeafPubKey descriptor' = some key) ∧ salt = salt' := by
  obtain ⟨xonly, message, hleaf, hmessage, hpreimage⟩ := derivePreimage_eq_ok h
  obtain ⟨xonly', message', hleaf', hmessage', hpreimage'⟩ := derivePreimage_eq_ok h'
  have hhash := hlib.signature _ _ _ _ (hlib.hash _ _ (hpreimage.symm.trans hpreimage'))
  obtain rfl := hlib.hash _ _ hhash
  obtain ⟨rfl, rfl⟩ := preimageMessage_injective hmessage hmessage'
  exact ⟨⟨xonly, hleaf, hleaf'⟩, rfl⟩

/-- Which arm a secret came from: its preimage is stored, or it was derived with its salt, an HD
child without one and any other descriptor with one. -/
inductive Provisioned (lib : WalletLibraries) (s : ProvisionedClaimSecret) : Prop
  | stored (hpersist : s.mustPersistPreimage = true) (hsalt : s.preimageSalt = none)
      (hlength : s.preimage.length = 32)
  | derived (answer : SignerAnswer) (hpersist : s.mustPersistPreimage = false)
      (hchild : lib.parseHDDescriptor s.descriptor = true ↔ s.preimageSalt = none)
      (hderived : derivePreimage lib answer s.descriptor s.preimageSalt = .ok s.preimage)

theorem provisionFor_eq_ok {first second : SignerAnswer} {given : Option Bytes}
    {drawn fallback : Bytes} {s : ProvisionedClaimSecret}
    (hgiven : ∀ p, given = some p → p.length = 32) (hfallback : fallback.length = 32)
    (h : provisionFor lib first second descriptor given drawn fallback = .ok s) :
    s.descriptor = descriptor ∧ Provisioned lib s ∧
      ∀ salt, s.preimageSalt = some salt → salt = drawn := by
  obtain ⟨⟨signer, pubkey⟩, -, h⟩ := WireFormat.bind_ok.mp h
  obtain ⟨⟨preimage, preimageSalt, mustPersist⟩, hclaim, h⟩ := WireFormat.bind_ok.mp h
  obtain rfl := Except.ok.inj h
  refine ⟨rfl, ?_⟩
  unfold claim at hclaim
  cases given with
  | some p =>
    obtain ⟨rfl, rfl, rfl⟩ := by simpa using hclaim
    exact ⟨.stored rfl rfl (hgiven _ rfl), nofun⟩
  | none =>
    dsimp only at hclaim
    split at hclaim
    · rename_i hchild
      cases hderive : derivePreimage lib second descriptor none with
      | error e =>
        rw [hderive] at hclaim
        cases hclaim
      | ok p =>
        rw [hderive] at hclaim
        obtain ⟨rfl, rfl, rfl⟩ := by simpa [Except.map] using hclaim
        exact ⟨.derived second rfl ⟨fun _ ↦ rfl, fun _ ↦ hchild⟩ hderive, nofun⟩
    · rename_i hchild
      split at hclaim
      · rename_i p hderive
        obtain ⟨rfl, rfl, rfl⟩ := by simpa using hclaim
        refine ⟨.derived second rfl ?_ hderive, fun salt hsalt ↦ (Option.some.inj hsalt).symm⟩
        simpa [isPerArtifactDescriptor] using hchild
      · cases hclaim
      · cases hclaim
      · obtain ⟨rfl, rfl, rfl⟩ := by simpa using hclaim
        exact ⟨.stored rfl rfl hfallback, nofun⟩

def ProvisionedClaimSecret.stored (s : ProvisionedClaimSecret) : Option Bytes :=
  if s.mustPersistPreimage then some s.preimage else none

/-- Nothing but the preimage comes back, and it does whenever it is stored or the wallet still signs
for the descriptor. -/
structure Recoverable (lib : WalletLibraries) (s : ProvisionedClaimSecret) : Prop where
  only : ∀ answer preimage, contractPreimage lib answer s.descriptor s.stored s.preimageSalt =
    .ok preimage → preimage = s.preimage
  always : ∀ answer, s.mustPersistPreimage = true ∨ Capable lib answer s.descriptor →
    contractPreimage lib answer s.descriptor s.stored s.preimageSalt = .ok s.preimage

theorem contractPreimage_derived {s : ProvisionedClaimSecret}
    (hpersist : s.mustPersistPreimage = false)
    (hchild : lib.parseHDDescriptor s.descriptor = true ↔ s.preimageSalt = none)
    (answer : SignerAnswer) :
    contractPreimage lib answer s.descriptor s.stored s.preimageSalt =
      derivePreimage lib answer s.descriptor s.preimageSalt := by
  unfold contractPreimage ProvisionedClaimSecret.stored isPerArtifactDescriptor
  rw [hpersist]
  cases hsalt : s.preimageSalt with
  | none => simp [hchild.mpr hsalt]
  | some salt =>
    have hbare : lib.parseHDDescriptor s.descriptor = false := by
      cases hparse : lib.parseHDDescriptor s.descriptor with
      | false => rfl
      | true => simp [hchild.mp hparse] at hsalt
    simp [hbare]

theorem Provisioned.recoverable {s : ProvisionedClaimSecret} (h : Provisioned lib s) :
    Recoverable lib s := by
  cases h with
  | stored hpersist hsalt hlength =>
    have hstored (answer : SignerAnswer) :
        contractPreimage lib answer s.descriptor s.stored s.preimageSalt = .ok s.preimage := by
      simp [contractPreimage, ProvisionedClaimSecret.stored, hpersist, hlength]
    exact ⟨fun answer preimage hok ↦ Except.ok.inj (hok.symm.trans (hstored answer)),
      fun answer _ ↦ hstored answer⟩
  | derived answer hpersist hchild hderived =>
    refine ⟨fun later preimage hok ↦ ?_, fun later hcapable ↦ ?_⟩
    · rw [contractPreimage_derived hpersist hchild] at hok
      exact derivePreimage_unique hok hderived
    · rw [contractPreimage_derived hpersist hchild]
      exact derivePreimage_again hderived (hcapable.resolve_left (by simp [hpersist]))

end Secrets

end ArkadeSdk.ContractSecrets
