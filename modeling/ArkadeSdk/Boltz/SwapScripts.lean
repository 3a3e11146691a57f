import ArkadeSdk.Boltz.SwapResponse
import ArkadeSdk.Lib.JsArithmetic
import ArkadeSdk.Script.VhtlcScript

/-! The scripts of a swap, rebuilt from the wallet's own keys: the lockup on the Arkade side and
the taproot contract on the Bitcoin side. -/

namespace ArkadeSdk.SwapCreation

open WireFormat JsNumber BtcScript HexCodec

structure TapLeaf where
  output : Bytes
  version : Number
  deriving DecidableEq

structure SwapTree where
  claimLeaf : TapLeaf
  refundLeaf : TapLeaf
  deriving DecidableEq

/-- `sortTree` on two leaves: the more probable claim comes first. -/
def SwapTree.tree (swapTree : SwapTree) : TapLeaf × TapLeaf :=
  (swapTree.claimLeaf, swapTree.refundLeaf)

/-- The sections of a decoded invoice; the amount is in thousandths of a satoshi. -/
structure Sections where
  amount : Option ℕ
  payment_hash : Option String

/-- Hashing, keys and addresses: `hrp` is the table of networks, `aggPubkey` the key that the own
secret and the listed keys aggregate to once tweaked by a tree, `outScript` what an address of a
network pays to. -/
structure SwapLibraries (Tree : Type) extends ProgramLibraries Tree where
  sha256 : Bytes → Bytes
  ripemd160 : Bytes → Bytes
  bolt11 : String → Except Message Sections
  hrp : String → Option String
  arkAddress : Tree → String → Bytes → String
  getPublicKey : Bytes → Bytes
  aggPubkey : Bytes → List Bytes → TapLeaf × TapLeaf → Except Message Bytes
  outScript : String → String → Except Message Bytes

/-- The keys of the identity that signs for a swap. -/
structure Signer where
  compressedPublicKey : Bytes
  length_compressed : compressedPublicKey.length = 33

def Signer.xOnlyPublicKey (signer : Signer) : Bytes := signer.compressedPublicKey.drop 1

theorem Signer.length_xOnly (signer : Signer) : signer.xOnlyPublicKey.length = 32 := by
  rw [xOnlyPublicKey, List.length_drop, signer.length_compressed]

/-- `ArkInfo`, as far as scripts are concerned. -/
structure ArkInfo where
  network : String
  signerPubkey : String
  deprecatedSigners : List String

variable {Tree : Type} (L : SwapLibraries Tree)

def hexDecode (s : String) : Except Message Bytes := VHTLC.decodeHex (some s)

def normalizeToXOnlyKey (keyBytes : Bytes) (keyName swapId : String) : Except Message Bytes :=
  if keyBytes.length = 33 then .ok (keyBytes.drop 1)
  else if keyBytes.length ≠ 32 then
    .error [.text ("Invalid " ++ keyName ++ " key length: "), .value (.ofNat keyBytes.length),
      .text (" " ++ if swapId = "" then "" else "for swap " ++ swapId)]
  else .ok keyBytes

def toXOnly : Bytes → Except Message Bytes
  | [] => .error (message "Invalid public key length: expected 32 or 33 bytes, got 0")
  | parity :: rest =>
    if rest.length = 31 then .ok (parity :: rest)
    else if rest.length = 32 then
      if parity ≠ 0x02 ∧ parity ≠ 0x03 then
        .error (message ("Invalid compressed public key prefix: 0x" ++ base16.encode [parity]))
      else .ok rest
    else .error [.text "Invalid public key length: expected 32 or 33 bytes, got ",
      .value (.ofNat (rest.length + 1))]

/-- `getNetwork(name).hrp`. -/
def networkHrp (network : String) : Except Message String :=
  match L.hrp network with
  | none => .error (message ("Unsupported network: " ++ network))
  | some hrp => .ok hrp

def serverKey (pubkey : String) : Except Message String := do
  let keyBytes ← hexDecode pubkey
  let key ← normalizeToXOnlyKey keyBytes "server" ""
  return base16.encode key

/-- The current signer, then each other deprecated one. -/
def candidateServerPubkeys (arkInfo : ArkInfo) : Except Message (List String) := do
  let current ← serverKey arkInfo.signerPubkey
  let deprecated ← (arkInfo.deprecatedSigners.filter (· ≠ "")).mapM serverKey
  return deprecated.foldl
    (fun candidates key ↦ if key ∈ candidates then candidates else candidates ++ [key]) [current]

/-- Values below 512 are blocks, all others seconds. -/
def toBip68RelativeTimelock (value : Number) : Except Message RelativeTimelock := do
  let bigint ← value.toBigInt
  return ⟨bigint, if value.lt (.ofNat 512) then .blocks else .seconds⟩

structure LockupArgs where
  network : String
  preimageHash : Bytes
  receiverPubkey : String
  senderPubkey : String
  timeoutBlockHeights : TimeoutBlockHeights
  deriving DecidableEq

/-- The part of `createVHTLCScript` past the three keys. -/
def lockupScript (args : LockupArgs) (receiver sender server : Bytes) :
    Except Message (VHTLC.BaseScript Tree × String) := do
  let refundLocktime ← args.timeoutBlockHeights.refund.toBigInt
  let unilateralClaimDelay ← toBip68RelativeTimelock args.timeoutBlockHeights.unilateralClaim
  let unilateralRefundDelay ← toBip68RelativeTimelock args.timeoutBlockHeights.unilateralRefund
  let unilateralRefundWithoutReceiverDelay ← toBip68RelativeTimelock
    args.timeoutBlockHeights.unilateralRefundWithoutReceiver
  let vhtlcScript ← VHTLC.Script.new L.toProgramLibraries {
    sender, receiver, server
    preimageHash := L.ripemd160 args.preimageHash
    refundLocktime, unilateralClaimDelay, unilateralRefundDelay
    unilateralRefundWithoutReceiverDelay
    nonInteractiveClaim := none
    nonInteractiveRefund := none
    asset := none }
  rejectIf (vhtlcScript.claimScript = []) (message "Failed to create VHTLC script")
  let hrp ← networkHrp L args.network
  return (vhtlcScript, L.arkAddress vhtlcScript.vtxoScript hrp server)

def createVHTLCScript (args : LockupArgs) (serverPubkey : String) :
    Except Message (VHTLC.BaseScript Tree × String) := do
  let receiverBytes ← hexDecode args.receiverPubkey
  let receiver ← normalizeToXOnlyKey receiverBytes "receiver" ""
  let senderBytes ← hexDecode args.senderPubkey
  let sender ← normalizeToXOnlyKey senderBytes "sender" ""
  let serverBytes ← hexDecode serverPubkey
  let server ← normalizeToXOnlyKey serverBytes "server" ""
  lockupScript L args receiver sender server

/-- A script with the server key it was built under. -/
structure ResolvedLockup (Tree : Type) where
  vhtlcScript : VHTLC.BaseScript Tree
  serverXOnlyPublicKey : Bytes

def probeCandidates (args : LockupArgs) (lockupAddress swapId : String) :
    List String → Except Message (Option (ResolvedLockup Tree))
  | [] => .ok none
  | serverPubkey :: rest => do
    let (vhtlcScript, vhtlcAddress) ← createVHTLCScript L args serverPubkey
    if vhtlcAddress ≠ lockupAddress then probeCandidates args lockupAddress swapId rest
    else do
      rejectIf (vhtlcScript.claimScript = [] ∧ vhtlcScript.refundScript = [])
        (message ("Swap " ++ swapId ++
          ": VHTLC address matched but claim/refund script leaves are empty"))
      let serverBytes ← hexDecode serverPubkey
      let serverXOnlyPublicKey ← normalizeToXOnlyKey serverBytes "server" swapId
      return some { vhtlcScript, serverXOnlyPublicKey }

def resolveVHTLCForLockup (arkInfo : ArkInfo) (args : LockupArgs) (lockupAddress swapId : String) :
    Except Message (ResolvedLockup Tree) := do
  let candidates ← candidateServerPubkeys arkInfo
  match ← probeCandidates L args lockupAddress swapId candidates with
  | some resolved => return resolved
  | none => throw [.text ("Swap " ++ swapId ++ ": VHTLC address mismatch. Expected " ++
      lockupAddress ++ "; no current or deprecated server signer ("),
      .value (.ofNat candidates.length), .text " candidate(s) tried) reproduced it"]

def deserializeLeaf (leaf : SerializedLeaf) : Except Message TapLeaf := do
  let output ← hexDecode leaf.output
  return { output, version := leaf.version }

def deserializeSwapTree (parsed : SerializedTree) : Except Message SwapTree := do
  let claimLeaf ← deserializeLeaf parsed.claimLeaf
  let refundLeaf ← deserializeLeaf parsed.refundLeaf
  return { claimLeaf, refundLeaf }

def TAPLEAF_V1 : Number := .ofNat 0xc0

def PUSH_32 : Bytes := [0x20]

def decodeScriptNum : Item → Except Message (Option Number)
  | .data [] => .ok none
  | .data data => (fun n ↦ some (.ofInt n)) <$> ScriptNumber.decode 5 data
  | _ => .ok none

structure ExpectedLeaves where
  preimageHash160 : Bytes
  claimXOnly : Bytes
  refundXOnly : Bytes
  timeoutBlockHeight : Number

/-- The claim leaf that the agreed hash and the claimer's key call for. -/
def ExpectedLeaves.claim (expected : ExpectedLeaves) : List Item :=
  [.op "SIZE", .data PUSH_32, .op "EQUALVERIFY", .op "HASH160", .data expected.preimageHash160,
    .op "EQUALVERIFY", .data expected.claimXOnly, .op "CHECKSIG"]

def assertRefundLeaf (expected : ExpectedLeaves) : List Item → Except Message Unit
  | [.data key, .op "CHECKSIGVERIFY", timeout, last] => do
    rejectIf (key ≠ expected.refundXOnly) (message "unexpected refund leaf")
    let timeout ← decodeScriptNum timeout
    rejectIf (timeout ≠ some expected.timeoutBlockHeight ∨ last ≠ .op "CHECKLOCKTIMEVERIFY")
      (message "unexpected refund leaf")
  | _ => .error (message "unexpected refund leaf")

def assertChainHtlcLeaves (tree : SwapTree) (expected : ExpectedLeaves) : Except Message Unit := do
  rejectIf (tree.claimLeaf.version ≠ TAPLEAF_V1 ∨ tree.refundLeaf.version ≠ TAPLEAF_V1)
    (message "unexpected leaf version")
  let claim ← ScriptCoder.decode L.OP tree.claimLeaf.output
  rejectIf (claim ≠ expected.claim) (message "unexpected claim leaf")
  let refund ← ScriptCoder.decode L.OP tree.refundLeaf.output
  assertRefundLeaf expected refund

def p2trScript (publicKey : Bytes) : Except Message Bytes := do
  let key ← toXOnly publicKey
  return 0x51 :: 0x20 :: key

theorem normalizeToXOnlyKey_ok {keyBytes key : Bytes} {keyName swapId : String} :
    normalizeToXOnlyKey keyBytes keyName swapId = .ok key ↔
      keyBytes.length = 33 ∧ keyBytes.drop 1 = key ∨ keyBytes.length = 32 ∧ keyBytes = key := by
  unfold normalizeToXOnlyKey
  split
  · next h => simp [h]
  · next h =>
    by_cases h' : keyBytes.length = 32
    · simp [h']
    · simp [h, h']

theorem length_normalizeToXOnlyKey {keyBytes key : Bytes} {keyName swapId : String}
    (h : normalizeToXOnlyKey keyBytes keyName swapId = .ok key) : key.length = 32 := by
  obtain ⟨hlen, rfl⟩ | ⟨hlen, rfl⟩ := normalizeToXOnlyKey_ok.mp h
  · rw [List.length_drop, hlen]
  · exact hlen

/-- `text` is the key `key`, x-only or compressed. -/
def KeyText (text : String) (key : Bytes) : Prop :=
  ∃ keyBytes, hexDecode text = .ok keyBytes ∧
    ∀ keyName swapId, normalizeToXOnlyKey keyBytes keyName swapId = .ok key

theorem hexDecode_encode (b : Bytes) : hexDecode (base16.encode b) = .ok b :=
  VHTLC.decodeHex_encode b

theorem keyText_of_ok {text : String} {keyBytes key : Bytes} {keyName swapId : String}
    (hdecode : hexDecode text = .ok keyBytes)
    (h : normalizeToXOnlyKey keyBytes keyName swapId = .ok key) : KeyText text key :=
  ⟨keyBytes, hdecode, fun _ _ ↦ normalizeToXOnlyKey_ok.mpr (normalizeToXOnlyKey_ok.mp h)⟩

theorem keyText_encode {key : Bytes} (h : key.length = 32) : KeyText (base16.encode key) key :=
  ⟨key, hexDecode_encode key, fun _ _ ↦ normalizeToXOnlyKey_ok.mpr (.inr ⟨h, rfl⟩)⟩

theorem keyText_signer (signer : Signer) :
    KeyText (base16.encode signer.compressedPublicKey) signer.xOnlyPublicKey :=
  ⟨_, hexDecode_encode _,
    fun _ _ ↦ normalizeToXOnlyKey_ok.mpr (.inl ⟨signer.length_compressed, rfl⟩)⟩

theorem KeyText.length {text : String} {key : Bytes} (h : KeyText text key) : key.length = 32 := by
  obtain ⟨_, -, h⟩ := h
  exact length_normalizeToXOnlyKey (h "" "")

theorem KeyText.unique {text : String} {key key' : Bytes} (h : KeyText text key)
    (h' : KeyText text key') : key = key' := by
  obtain ⟨b, hb, hkey⟩ := h
  obtain ⟨b', hb', hother⟩ := h'
  obtain rfl : b = b' := by
    rw [hb] at hb'
    cases hb'
    rfl
  have heq := hkey "" ""
  rw [hother "" ""] at heq
  cases heq
  rfl

theorem serverKey_ok {pubkey text : String} (h : serverKey pubkey = .ok text) :
    ∃ key, KeyText pubkey key ∧ text = base16.encode key := by
  simp only [serverKey, bind_ok, pure_ok] at h
  obtain ⟨keyBytes, hdecode, key, hkey, rfl⟩ := h
  exact ⟨key, keyText_of_ok hdecode hkey, rfl⟩

theorem createVHTLCScript_ok {args : LockupArgs} {serverPubkey : String}
    {r : VHTLC.BaseScript Tree × String} :
    createVHTLCScript L args serverPubkey = .ok r ↔ ∃ receiver sender server,
      KeyText args.receiverPubkey receiver ∧ KeyText args.senderPubkey sender ∧
      KeyText serverPubkey server ∧ lockupScript L args receiver sender server = .ok r := by
  simp only [createVHTLCScript, bind_ok]
  constructor
  · rintro ⟨_, hrb, receiver, hr, _, hsb, sender, hs, _, hvb, server, hv, hlockup⟩
    exact ⟨receiver, sender, server, keyText_of_ok hrb hr, keyText_of_ok hsb hs,
      keyText_of_ok hvb hv, hlockup⟩
  · rintro ⟨receiver, sender, server, ⟨_, hrb, hr⟩, ⟨_, hsb, hs⟩, ⟨_, hvb, hv⟩, hlockup⟩
    exact ⟨_, hrb, receiver, hr _ _, _, hsb, sender, hs _ _, _, hvb, server, hv _ _, hlockup⟩

theorem createVHTLCScript_rekey {args : LockupArgs} {serverPubkey : String}
    {r : VHTLC.BaseScript Tree × String} (h : createVHTLCScript L args serverPubkey = .ok r)
    {receiver sender : Bytes} (hreceiver : KeyText args.receiverPubkey receiver)
    (hsender : KeyText args.senderPubkey sender) :
    createVHTLCScript L { args with
      receiverPubkey := base16.encode receiver
      senderPubkey := base16.encode sender } serverPubkey = .ok r := by
  obtain ⟨receiver', sender', server, hr, hs, hserver, hlockup⟩ := (createVHTLCScript_ok L).mp h
  obtain rfl := hreceiver.unique hr
  obtain rfl := hsender.unique hs
  exact (createVHTLCScript_ok L).mpr ⟨receiver, sender, server, keyText_encode hreceiver.length,
    keyText_encode hsender.length, hserver, hlockup⟩

/-- A lockup with its keys, hash and timeouts, at its address. -/
structure Lockup (args : LockupArgs) (sender : Bytes) (resolved : ResolvedLockup Tree)
    (address : String) : Prop where
  sender_eq : resolved.vhtlcScript.options.sender = sender
  server_eq : resolved.vhtlcScript.options.server = resolved.serverXOnlyPublicKey
  hash_eq : resolved.vhtlcScript.options.preimageHash = L.ripemd160 args.preimageHash
  refundLocktime_eq : args.timeoutBlockHeights.refund.toBigInt =
    .ok resolved.vhtlcScript.options.refundLocktime
  unilateralRefundDelay_eq : toBip68RelativeTimelock args.timeoutBlockHeights.unilateralRefund =
    .ok resolved.vhtlcScript.options.unilateralRefundDelay
  unilateralRefundWithoutReceiverDelay_eq :
    toBip68RelativeTimelock args.timeoutBlockHeights.unilateralRefundWithoutReceiver =
      .ok resolved.vhtlcScript.options.unilateralRefundWithoutReceiverDelay
  built : VHTLC.Script.new L.toProgramLibraries resolved.vhtlcScript.options =
    .ok resolved.vhtlcScript
  address_eq : ∃ hrp, L.hrp args.network = some hrp ∧
    L.arkAddress resolved.vhtlcScript.vtxoScript hrp resolved.serverXOnlyPublicKey = address

theorem networkHrp_ok {network hrp : String} :
    networkHrp L network = .ok hrp ↔ L.hrp network = some hrp := by
  unfold networkHrp
  split <;> simp_all

theorem lockupScript_ok {args : LockupArgs} {receiver sender server : Bytes}
    {script : VHTLC.BaseScript Tree} {address : String}
    (h : lockupScript L args receiver sender server = .ok (script, address)) :
    script.claimScript ≠ [] ∧ Lockup L args sender ⟨script, server⟩ address := by
  simp only [lockupScript, bind_ok, pure_ok] at h
  obtain ⟨locktime, hlocktime, claimDelay, hclaim, refundDelay, hrefund, soloDelay, hsolo, script',
    hscript, _, hclaimScript, hrp, hhrp, heq⟩ := h
  cases heq
  have hoptions := VHTLC.Script.new_options _ hscript
  exact ⟨rejectIf_ok.mp hclaimScript,
    { sender_eq := by rw [hoptions]
      server_eq := by rw [hoptions]
      hash_eq := by rw [hoptions]
      refundLocktime_eq := by rw [hoptions]; exact hlocktime
      unilateralRefundDelay_eq := by rw [hoptions]; exact hrefund
      unilateralRefundWithoutReceiverDelay_eq := by rw [hoptions]; exact hsolo
      built := by rw [hoptions]; exact hscript
      address_eq := ⟨hrp, (networkHrp_ok L).mp hhrp, rfl⟩ }⟩

theorem probeCandidates_ok {args : LockupArgs} {lockupAddress swapId : String}
    {sender : Bytes} (hsender : KeyText args.senderPubkey sender) {resolved : ResolvedLockup Tree} :
    ∀ {candidates : List String},
      probeCandidates L args lockupAddress swapId candidates = .ok (some resolved) →
      Lockup L args sender resolved lockupAddress
  | [], h => by cases h
  | serverPubkey :: rest, h => by
    simp only [probeCandidates, bind_ok] at h
    obtain ⟨⟨script, address⟩, hcreate, h⟩ := h
    obtain ⟨receiver, sender', server, -, hs, hserver, hlockup⟩ :=
      (createVHTLCScript_ok L).mp hcreate
    obtain rfl := hsender.unique hs
    simp only at h
    split at h
    · exact probeCandidates_ok hsender h
    · next haddress =>
      obtain rfl := not_not.mp haddress
      simp only [bind_ok, pure_ok, Option.some.injEq] at h
      obtain ⟨_, -, _, hdecode, key, hkey, rfl⟩ := h
      obtain rfl := hserver.unique (keyText_of_ok hdecode hkey)
      exact (lockupScript_ok L hlockup).2

theorem resolveVHTLCForLockup_ok {arkInfo : ArkInfo} {args : LockupArgs}
    {lockupAddress swapId : String} {sender : Bytes} (hsender : KeyText args.senderPubkey sender)
    {resolved : ResolvedLockup Tree}
    (h : resolveVHTLCForLockup L arkInfo args lockupAddress swapId = .ok resolved) :
    Lockup L args sender resolved lockupAddress := by
  simp only [resolveVHTLCForLockup, bind_ok] at h
  obtain ⟨candidates, -, found, hfound, h⟩ := h
  cases found with
  | none => cases h
  | some resolved' =>
    cases h
    exact probeCandidates_ok L hsender hfound

theorem candidateServerPubkeys_current {arkInfo : ArkInfo} {candidates : List String}
    (h : candidateServerPubkeys arkInfo = .ok candidates) :
    ∃ current rest, serverKey arkInfo.signerPubkey = .ok current ∧
      candidates = current :: rest := by
  simp only [candidateServerPubkeys, bind_ok, pure_ok] at h
  obtain ⟨current, hcurrent, deprecated, -, rfl⟩ := h
  suffices hfold : ∀ (keys acc : List String), ∃ rest, keys.foldl
      (fun candidates key ↦ if key ∈ candidates then candidates else candidates ++ [key])
      (current :: acc) = current :: rest by
    obtain ⟨rest, hrest⟩ := hfold deprecated []
    exact ⟨current, rest, hcurrent, hrest⟩
  intro keys
  induction keys with
  | nil => exact fun acc ↦ ⟨acc, rfl⟩
  | cons key keys ih =>
    intro acc
    rw [List.foldl_cons]
    split
    · exact ih acc
    · exact ih (acc ++ [key])

/-- A lockup under the current signer is found again, whatever form the keys are kept in. -/
theorem resolveVHTLCForLockup_current {arkInfo : ArkInfo} {args : LockupArgs}
    {lockupAddress swapId current : String} {candidates : List String}
    {script : VHTLC.BaseScript Tree} (hcandidates : candidateServerPubkeys arkInfo = .ok candidates)
    (hcurrent : serverKey arkInfo.signerPubkey = .ok current)
    (h : createVHTLCScript L args current = .ok (script, lockupAddress)) :
    ∃ resolved, resolveVHTLCForLockup L arkInfo args lockupAddress swapId = .ok resolved := by
  obtain ⟨current', rest, hcurrent', rfl⟩ := candidateServerPubkeys_current hcandidates
  obtain rfl : current = current' := by
    rw [hcurrent] at hcurrent'
    cases hcurrent'
    rfl
  obtain ⟨receiver, sender, server, -, -, ⟨serverBytes, hdecode, hserver⟩, hlockup⟩ :=
    (createVHTLCScript_ok L).mp h
  have hclaim := (lockupScript_ok L hlockup).1
  refine ⟨⟨script, server⟩, ?_⟩
  simp only [resolveVHTLCForLockup, bind_ok]
  refine ⟨_, hcandidates, some ⟨script, server⟩, ?_, rfl⟩
  simp only [probeCandidates, bind_ok]
  refine ⟨_, h, ?_⟩
  simp only [ne_eq, not_true_eq_false, if_false, bind_ok, pure_ok]
  exact ⟨(), rejectIf_ok.mpr fun hempty ↦ hclaim hempty.1, _, hdecode, _, hserver _ _, rfl⟩

/-- What leaves that pass say: the claim takes the agreed preimage and the claimer's key, the
refund the refunder's key after the timeout. -/
theorem assertChainHtlcLeaves_ok {tree : SwapTree} {expected : ExpectedLeaves}
    (h : assertChainHtlcLeaves L tree expected = .ok ()) :
    ScriptCoder.decode L.OP tree.claimLeaf.output = .ok expected.claim ∧
      ∃ timeout, ScriptCoder.decode L.OP tree.refundLeaf.output =
        .ok [.data expected.refundXOnly, .op "CHECKSIGVERIFY", timeout,
          .op "CHECKLOCKTIMEVERIFY"] ∧
        decodeScriptNum timeout = .ok (some expected.timeoutBlockHeight) := by
  simp only [assertChainHtlcLeaves, bind_ok] at h
  obtain ⟨_, -, claim, hclaim, _, hexpected, refund, hrefund, hassert⟩ := h
  obtain rfl := not_not.mp (rejectIf_ok.mp hexpected)
  refine ⟨hclaim, ?_⟩
  unfold assertRefundLeaf at hassert
  split at hassert
  · next key timeout last =>
    simp only [bind_ok] at hassert
    obtain ⟨_, hkey, decoded, hdecoded, hlast⟩ := hassert
    obtain rfl := not_not.mp (rejectIf_ok.mp hkey)
    have hlast := rejectIf_ok.mp hlast
    simp only [ne_eq, not_or, not_not] at hlast
    obtain ⟨rfl, rfl⟩ := hlast
    exact ⟨timeout, hrefund, hdecoded⟩
  · cases hassert

end ArkadeSdk.SwapCreation
