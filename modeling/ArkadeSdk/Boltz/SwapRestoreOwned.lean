import ArkadeSdk.Boltz.SwapCreationBound
import ArkadeSdk.Boltz.SwapRestore
import ArkadeSdk.Lib.Selection

/-! A restored swap belongs to the wallet when its lockup is that of one of the wallet's keys, and
its record is good for the path that spends it when that path finds the same lockup again. -/

namespace ArkadeSdk.SwapRestore

open WireFormat JsNumber BtcScript HexCodec SwapCreation Selection
open Json (Value)

variable {Tap : Type} (L : SwapLibraries Tap)

def pushedNumber : Item → Option ℕ
  | .num n => some n.toNat
  | .data b => some (littleEndian b)
  | .op _ => none

/-- The leaf pushes `x` right before a timelock opcode. -/
def LeafStates (leaf : Option SerializedLeaf) (x : Number) : Prop :=
  ∃ serialized script opcodes before item after n, leaf = some serialized ∧
    SwapCreation.hexDecode serialized.output = .ok script ∧
      ScriptCoder.decode L.OP script = .ok opcodes ∧
    pushedNumber item = some n ∧
    (opcodes = before ++ item :: .op "CHECKLOCKTIMEVERIFY" :: after ∧ x = .ofNat n ∨
      opcodes = before ++ item :: .op "CHECKSEQUENCEVERIFY" :: after ∧
        ∃ timelock, L.bip68Decode n = some timelock ∧ x = .ofInt timelock.value)

structure TreeStates (tree : Tree) (timeouts : TimeoutBlockHeights) : Prop where
  refund : LeafStates L tree.refundWithoutBoltzLeaf timeouts.refund
  unilateralClaim : LeafStates L tree.unilateralClaimLeaf timeouts.unilateralClaim
  unilateralRefund : LeafStates L tree.unilateralRefundLeaf timeouts.unilateralRefund
  unilateralRefundWithoutReceiver :
    LeafStates L tree.unilateralRefundWithoutBoltzLeaf timeouts.unilateralRefundWithoutReceiver

/-- The timeouts are given, or else the leaves have them. -/
def Details.States (details : Details) (timeouts : TimeoutBlockHeights) : Prop :=
  details.timeoutBlockHeights = some timeouts ∨
    details.timeoutBlockHeights = none ∧ TreeStates L details.tree timeouts

/-- The Arkade side of a swap: our role in it, and the hash that the swap itself has. -/
structure Leg where
  details : Details
  ourRole : Role
  preimageHash : Option String

def Leg.hashes (leg : Leg) : List String :=
  leg.preimageHash.toList ++ leg.details.preimageHash.toList

def RestoredReverseSwap.leg (swap : RestoredReverseSwap) : Leg :=
  ⟨swap.claimDetails, .receiver, swap.preimageHash⟩

def RestoredSubmarineSwap.leg (swap : RestoredSubmarineSwap) : Leg :=
  ⟨swap.refundDetails, .sender, swap.preimageHash⟩

def RestoredChainSwap.leg (swap : RestoredChainSwap) : Option Leg :=
  swap.arkLeg.map (⟨·, swap.ourRole, swap.preimageHash⟩)

def Wallet.Holds (w : Wallet) (publicKey : String) : Prop :=
  publicKey = base16.encode w.identity.compressedPublicKey ∨
    ∃ hd used d key, w.hd = some hd ∧ hd.getUsedSigningDescriptors = .ok used ∧ d ∈ used ∧
      hd.deriveDescriptorLeafCompressedPubKey d = .ok key ∧ publicKey = base16.encode key

def Leg.args (leg : Leg) (arkInfo : ArkInfo) (publicKey : String) (hashBytes : Bytes)
    (timeouts : TimeoutBlockHeights) : LockupArgs :=
  lockupArgs arkInfo leg.ourRole publicKey leg.details.serverPublicKey hashBytes timeouts

def LockedUnder (args : LockupArgs) (lockupAddress server : String) : Prop :=
  ∃ script, createVHTLCScript L args server = .ok (script, lockupAddress)

/-- The leg's address is that of the key's lockup, under the current or a deprecated signer. -/
def LockedTo (arkInfo : ArkInfo) (leg : Leg) (publicKey : String) : Prop :=
  ∃ hash ∈ leg.hashes, hash ≠ "" ∧ ∃ hashBytes, SwapCreation.hexDecode hash = .ok hashBytes ∧
    ∃ timeouts, leg.details.States L timeouts ∧
      ∃ server ∈ arkInfo.signerPubkey :: arkInfo.deprecatedSigners,
        LockedUnder L (leg.args arkInfo publicKey hashBytes timeouts) leg.details.lockupAddress
          server

def Owned (w : Wallet) (arkInfo : ArkInfo) (leg : Leg) : Prop :=
  ∃ publicKey, w.Holds publicKey ∧ LockedTo L arkInfo leg publicKey

structure AttributedReverse (w : Wallet) (arkInfo : ArkInfo) (swap : RestoredReverseSwap)
    (record : BoltzReverseSwap) : Prop where
  id_eq : record.id = swap.id
  holds : w.Holds record.request.claimPublicKey
  locked : LockedTo L arkInfo swap.leg record.request.claimPublicKey
  address_eq : record.response.lockupAddress = some swap.claimDetails.lockupAddress

structure AttributedSubmarine (w : Wallet) (arkInfo : ArkInfo) (swap : RestoredSubmarineSwap)
    (record : BoltzSubmarineSwap) : Prop where
  id_eq : record.id = swap.id
  holds : w.Holds record.request.refundPublicKey
  locked : LockedTo L arkInfo swap.leg record.request.refundPublicKey
  address_eq : record.response.address = some swap.refundDetails.lockupAddress

def BoltzChainSwap.weLockArk (swap : BoltzChainSwap) : Bool := swap.request.source = .ARK

/-- The key and the details of the Arkade side. -/
def BoltzChainSwap.ourKey (swap : BoltzChainSwap) : String :=
  if swap.weLockArk then swap.request.refundPublicKey else swap.request.claimPublicKey

def BoltzChainSwap.arkDetails (swap : BoltzChainSwap) : Option ChainSwapDetails :=
  if swap.weLockArk then swap.response.lockupDetails else swap.response.claimDetails

structure AttributedChain (w : Wallet) (arkInfo : ArkInfo) (swap : RestoredChainSwap)
    (record : BoltzChainSwap) : Prop where
  id_eq : record.id = swap.id
  source_eq : record.request.source = swap.source
  holds : w.Holds record.ourKey
  locked : ∃ leg, swap.leg = some leg ∧ LockedTo L arkInfo leg record.ourKey
  address_eq : record.arkDetails.map ChainSwapDetails.lockupAddress =
    swap.arkLeg.map Details.lockupAddress

def Role.key (role : Role) (options : VHTLC.Options) : Bytes :=
  match role with
  | .receiver => options.receiver
  | .sender => options.sender

structure Rebuilt (arkInfo : ArkInfo) (ourRole : Role) (publicKey lockupAddress : String)
    (signer : Signer) (resolved : ResolvedLockup Tap) : Prop where
  publicKey : KeyText publicKey signer.xOnlyPublicKey
  ours : ourRole.key resolved.vhtlcScript.options = signer.xOnlyPublicKey
  address : ∃ hrp, L.hrp arkInfo.network = some hrp ∧
    L.arkAddress resolved.vhtlcScript.vtxoScript hrp resolved.serverXOnlyPublicKey = lockupAddress

def Claims (w : Wallet) (arkInfo : ArkInfo) (record : BoltzReverseSwap) : Prop :=
  ∀ preimage bytes, preimage ≠ "" → SwapCreation.hexDecode preimage = .ok bytes →
    SwapCreation.hexDecode record.request.preimageHash = .ok (L.sha256 bytes) →
    ∃ signer resolved lockupAddress, record.response.lockupAddress = some lockupAddress ∧
      claimVHTLC L w arkInfo { record with preimage := preimage } = .ok (signer, resolved) ∧
      Rebuilt L arkInfo .receiver record.request.claimPublicKey lockupAddress signer resolved

def Refunds (w : Wallet) (arkInfo : ArkInfo) (record : BoltzSubmarineSwap) : Prop :=
  ∃ signer context lockupAddress, record.response.address = some lockupAddress ∧
    buildSubmarineVHTLCContext L w arkInfo record = .ok (signer, context) ∧
    Rebuilt L arkInfo .sender record.request.refundPublicKey lockupAddress signer
      context.toResolvedLockup

/-- The refund path of a chain swap that locked on the Arkade side, the claim path of any other. -/
def Spends (w : Wallet) (arkInfo : ArkInfo) (record : BoltzChainSwap) : Prop :=
  ∃ signer resolved details, record.arkDetails = some details ∧
    if record.weLockArk then
      refundArk L w arkInfo record = .ok (signer, resolved) ∧
        Rebuilt L arkInfo .sender record.ourKey details.lockupAddress signer resolved
    else
      swapSigner w record.signingDescriptor = .ok signer ∧
        resolveClaimSideVHTLC L arkInfo record = .ok resolved ∧
        Rebuilt L arkInfo .receiver record.ourKey details.lockupAddress signer resolved

/-- A provider that answers every request with a list. -/
structure Server where
  answer : List String → List Value
  getSwapPreimage : String → Except Message String

def Server.provider (server : Server) : Provider where
  request keys := .ok (.array (server.answer keys))
  getSwapPreimage := server.getSwapPreimage

def Wallet.keys (w : Wallet) : List SwapOwnerKey :=
  match swapOwnerKeys w with
  | .ok keys => keys
  | .error _ => []

def Server.entries (server : Server) (w : Wallet) : List Value :=
  ((w.keys.map SwapOwnerKey.publicKey).toChunks RESTORE_KEYS_PER_REQUEST).flatMap server.answer

/-- The swaps among them, those with a side on Arkade. -/
def Server.swaps (server : Server) (w : Wallet) : List RestoredSwap :=
  ((server.entries w).filterMap isRestoredSwap).filter RestoredSwap.hasArkSide

def RestoredSwap.reverse? : RestoredSwap → Option RestoredReverseSwap
  | .reverse swap => some swap
  | _ => none

def RestoredSwap.submarine? : RestoredSwap → Option RestoredSubmarineSwap
  | .submarine swap => some swap
  | _ => none

def RestoredSwap.chain? : RestoredSwap → Option RestoredChainSwap
  | .chain swap => some swap
  | _ => none

/-- One record for each swap of the wallet, none for any other, and each good for its path. -/
structure RestoresAll (w : Wallet) (server : Server) (arkInfo : ArkInfo)
    (restored : RestoredSwaps) : Prop where
  reverse : Selects (fun swap ↦ Owned L w arkInfo swap.leg) (AttributedReverse L w arkInfo)
    ((server.swaps w).filterMap RestoredSwap.reverse?) restored.reverseSwaps
  submarine : Selects (fun swap ↦ Owned L w arkInfo swap.leg) (AttributedSubmarine L w arkInfo)
    ((server.swaps w).filterMap RestoredSwap.submarine?) restored.submarineSwaps
  chain : Selects (fun swap ↦ ∃ leg, swap.leg = some leg ∧ Owned L w arkInfo leg)
    (AttributedChain L w arkInfo) ((server.swaps w).filterMap RestoredSwap.chain?)
    restored.chainSwaps
  claims : ∀ record ∈ restored.reverseSwaps, Claims L w arkInfo record
  refunds : ∀ record ∈ restored.submarineSwaps, Refunds L w arkInfo record
  spends : ∀ record ∈ restored.chainSwaps, Spends L w arkInfo record

/-- Some candidate has the address, and every one before it builds a script. -/
def Probed (arkInfo : ArkInfo) (args : LockupArgs) (lockupAddress : String) : Prop :=
  ∃ before server after, candidateServerPubkeys arkInfo = .ok (before ++ server :: after) ∧
    LockedUnder L args lockupAddress server ∧
    ∀ earlier ∈ before, ∃ built, createVHTLCScript L args earlier = .ok built

/-- What a lockup is searched by: the hash in its place, and the timeouts that were given or that
the leaves push as bytes. -/
def Read (leg : Leg) (readHash : Option String) (hashBytes : Bytes)
    (timeouts : TimeoutBlockHeights) : Prop :=
  (∃ hash, readHash = some hash ∧ hash ≠ "" ∧ SwapCreation.hexDecode hash = .ok hashBytes) ∧
    resolveVhtlcTimeouts L.toLibraries leg.details.tree leg.details.timeoutBlockHeights =
      some timeouts

def Leg.ProbedFor (leg : Leg) (arkInfo : ArkInfo) (publicKey : String) (hashBytes : Bytes)
    (timeouts : TimeoutBlockHeights) : Prop :=
  Probed L arkInfo (leg.args arkInfo publicKey hashBytes timeouts) leg.details.lockupAddress

def Found (w : Wallet) (arkInfo : ArkInfo) (leg : Leg) (readHash : Option String) : Prop :=
  ∃ publicKey hashBytes timeouts, w.Holds publicKey ∧ Read L leg readHash hashBytes timeouts ∧
    leg.ProbedFor L arkInfo publicKey hashBytes timeouts

def RestoredReverseSwap.readHash (swap : RestoredReverseSwap) : Option String :=
  swap.claimDetails.preimageHash.or swap.preimageHash

def RestoredSubmarineSwap.readHash (swap : RestoredSubmarineSwap) : Option String :=
  swap.preimageHash.or swap.refundDetails.preimageHash

def RestoredSubmarineSwap.refundHash (swap : RestoredSubmarineSwap) : Except Message String :=
  if swap.invoice.getD "" ≠ "" then do
    let decodedInvoice ← decodeInvoice L (swap.invoice.getD "")
    return decodedInvoice.paymentHash
  else .ok (swap.preimageHash.getD "")

def RestoredSubmarineSwap.FoundFirst (w : Wallet) (arkInfo : ArkInfo) (swap : RestoredSubmarineSwap)
    (publicKey : String) (timeouts : TimeoutBlockHeights) : Prop :=
  ∃ before, ∃ owner : SwapOwnerKey, ∃ after hashBytes, w.keys = before ++ owner :: after ∧
    owner.publicKey = publicKey ∧ Read L swap.leg swap.readHash hashBytes timeouts ∧
    swap.leg.ProbedFor L arkInfo publicKey hashBytes timeouts ∧
    ∀ earlier ∈ before, ¬swap.leg.ProbedFor L arkInfo earlier.publicKey hashBytes timeouts

structure Restorable (w : Wallet) (server : Server) (arkInfo : ArkInfo) : Prop where
  wellFormed : ∀ entry ∈ server.entries w, (isRestoredSwap entry).isSome
  reverse : ∀ swap, .reverse swap ∈ server.swaps w → Owned L w arkInfo swap.leg →
    Found L w arkInfo swap.leg swap.readHash
  submarine : ∀ swap, .submarine swap ∈ server.swaps w → Owned L w arkInfo swap.leg →
    Found L w arkInfo swap.leg swap.readHash
  chain : ∀ swap leg, .chain swap ∈ server.swaps w → swap.leg = some leg →
    Owned L w arkInfo leg → Found L w arkInfo leg swap.preimageHash
  refunds : ∀ swap publicKey timeouts, .submarine swap ∈ server.swaps w →
    swap.FoundFirst L w arkInfo publicKey timeouts →
    ∃ hash hashBytes, swap.refundHash L = .ok hash ∧ hash ≠ "" ∧
      SwapCreation.hexDecode hash = .ok hashBytes ∧
        swap.leg.ProbedFor L arkInfo publicKey hashBytes timeouts

theorem dataBefore_some {name : String} {opcodes : List Item} {data : Bytes}
    (h : dataBefore name opcodes = some data) :
    ∃ before after, opcodes = before ++ Item.data data :: .op name :: after := by
  unfold dataBefore at h
  split at h
  · next i hfind =>
    split at h
    · next data' hdata =>
      cases h
      obtain ⟨hlt, hop, -⟩ := List.findIdx?_eq_some_iff_getElem.mp hfind
      obtain ⟨hlt', hitem⟩ := List.getElem?_eq_some_iff.mp hdata
      refine ⟨opcodes.take i, opcodes.drop (i + 2), ?_⟩
      rw [← hitem, ← of_decide_eq_true hop, List.getElem_cons_drop, List.getElem_cons_drop,
        List.take_append_drop]
    · cases h
  · cases h

theorem isTruthy_zero : isTruthy (.ofNat 0) = false := by simp [isTruthy]

theorem leafStates_of_truthy {leaf : Option SerializedLeaf}
    (h : isTruthy (leafTimeLock L.toLibraries leaf) = true) :
    LeafStates L leaf (leafTimeLock L.toLibraries leaf) := by
  cases leaf with
  | none =>
    simp [leafTimeLock, extractTimeLockFromLeafOutput, isTruthy_zero] at h
  | some serialized =>
    simp only [leafTimeLock, Option.map_some, Option.getD_some,
      extractTimeLockFromLeafOutput] at h ⊢
    split at h
    · rw [isTruthy_zero] at h
      cases h
    · next hne =>
      rw [if_neg hne]
      cases hdecode : SwapCreation.hexDecode serialized.output >>= ScriptCoder.decode L.OP with
      | error e =>
        simp only [hdecode, isTruthy_zero] at h
        cases h
      | ok opcodes =>
        obtain ⟨script, hscript, hopcodes⟩ := bind_ok.mp hdecode
        simp only [hdecode] at h ⊢
        cases hcltv : dataBefore "CHECKLOCKTIMEVERIFY" opcodes with
        | some data =>
          obtain ⟨before, after, heq⟩ := dataBefore_some hcltv
          exact ⟨serialized, script, opcodes, before, .data data, after, littleEndian data, rfl,
            hscript, hopcodes, rfl, .inl ⟨heq, rfl⟩⟩
        | none =>
          simp only [hcltv] at h ⊢
          cases hcsv : dataBefore "CHECKSEQUENCEVERIFY" opcodes with
          | none =>
            simp only [hcsv, isTruthy_zero] at h
            cases h
          | some data =>
            obtain ⟨before, after, heq⟩ := dataBefore_some hcsv
            simp only [hcsv, sequenceValue] at h ⊢
            cases hseq : L.bip68Decode (littleEndian data) with
            | none =>
              simp only [hseq, isTruthy_zero] at h
              cases h
            | some timelock =>
              exact ⟨serialized, script, opcodes, before, .data data, after, littleEndian data, rfl,
                hscript, hopcodes, rfl, .inr ⟨heq, timelock, hseq, rfl⟩⟩

theorem states_of_resolve {details : Details} {timeouts : TimeoutBlockHeights}
    (h : resolveVhtlcTimeouts L.toLibraries details.tree details.timeoutBlockHeights =
      some timeouts) : details.States L timeouts := by
  unfold resolveVhtlcTimeouts at h
  cases hgiven : details.timeoutBlockHeights with
  | some given =>
    simp only [hgiven, Option.getD_some, Option.ite_none_right_eq_some, Option.some.injEq] at h
    obtain ⟨-, rfl⟩ := h
    exact .inl hgiven
  | none =>
    simp only [hgiven, Option.getD_none, Option.ite_none_right_eq_some, Option.some.injEq,
      Bool.and_eq_true] at h
    obtain ⟨⟨⟨⟨hrefund, hclaim⟩, hunilateral⟩, hsolo⟩, rfl⟩ := h
    exact .inr ⟨hgiven, leafStates_of_truthy L hrefund, leafStates_of_truthy L hclaim,
      leafStates_of_truthy L hunilateral, leafStates_of_truthy L hsolo⟩

theorem lockupScript_keys {args : LockupArgs} {receiver sender server : Bytes}
    {script : VHTLC.BaseScript Tap} {address : String}
    (h : lockupScript L args receiver sender server = .ok (script, address)) :
    script.options.receiver = receiver ∧ script.options.sender = sender ∧
      ∃ hrp, L.hrp args.network = some hrp ∧
        L.arkAddress script.vtxoScript hrp server = address := by
  simp only [lockupScript, bind_ok, pure_ok] at h
  obtain ⟨_, -, _, -, _, -, _, -, script', hscript, _, -, hrp, hhrp, heq⟩ := h
  cases heq
  have hoptions := VHTLC.Script.new_options _ hscript
  exact ⟨by rw [hoptions], by rw [hoptions], hrp, (networkHrp_ok L).mp hhrp, rfl⟩

theorem createVHTLCScript_retext {args : LockupArgs} {server receiverPubkey senderPubkey : String}
    {receiver sender : Bytes} {built : VHTLC.BaseScript Tap × String}
    (hr : KeyText args.receiverPubkey receiver) (hs : KeyText args.senderPubkey sender)
    (hr' : KeyText receiverPubkey receiver) (hs' : KeyText senderPubkey sender) :
    createVHTLCScript L { args with receiverPubkey, senderPubkey } server = .ok built ↔
      createVHTLCScript L args server = .ok built := by
  rw [createVHTLCScript_ok, createVHTLCScript_ok]
  constructor
  · rintro ⟨r, s, v, hr'', hs'', hv, h⟩
    obtain rfl := hr'.unique hr''
    obtain rfl := hs'.unique hs''
    exact ⟨receiver, sender, v, hr, hs, hv, h⟩
  · rintro ⟨r, s, v, hr'', hs'', hv, h⟩
    obtain rfl := hr.unique hr''
    obtain rfl := hs.unique hs''
    exact ⟨receiver, sender, v, hr', hs', hv, h⟩

theorem probeCandidates_here {args : LockupArgs} {lockupAddress swapId server : String}
    {rest : List String} (h : LockedUnder L args lockupAddress server) :
    ∃ resolved, probeCandidates L args lockupAddress swapId (server :: rest) =
      .ok (some resolved) := by
  obtain ⟨script, hscript⟩ := h
  obtain ⟨receiver, sender, key, -, -, ⟨serverBytes, hdecode, hkey⟩, hlockup⟩ :=
    (createVHTLCScript_ok L).mp hscript
  have hclaim := (lockupScript_ok L hlockup).1
  refine ⟨⟨script, key⟩, ?_⟩
  simp only [probeCandidates, bind_ok]
  refine ⟨_, hscript, ?_⟩
  simp only [ne_eq, not_true_eq_false, if_false, bind_ok, pure_ok]
  exact ⟨(), rejectIf_ok.mpr fun hempty ↦ hclaim hempty.1, _, hdecode, _, hkey _ _, rfl⟩

theorem probeCandidates_some (swapId : String) {args : LockupArgs} {lockupAddress : String}
    {candidates : List String} :
    (∃ resolved, probeCandidates L args lockupAddress swapId candidates = .ok (some resolved)) ↔
      ∃ before server after, candidates = before ++ server :: after ∧
        LockedUnder L args lockupAddress server ∧
        ∀ earlier ∈ before, ∃ built, createVHTLCScript L args earlier = .ok built := by
  induction candidates with
  | nil => simp [probeCandidates]
  | cons server rest ih =>
    constructor
    · rintro ⟨resolved, h⟩
      simp only [probeCandidates, bind_ok] at h
      obtain ⟨⟨script, address⟩, hcreate, h⟩ := h
      simp only at h
      split at h
      · obtain ⟨before, server', after, rfl, hlocked, hbuilt⟩ := ih.mp ⟨resolved, h⟩
        refine ⟨server :: before, server', after, rfl, hlocked, ?_⟩
        exact List.forall_mem_cons.mpr ⟨⟨_, hcreate⟩, hbuilt⟩
      · next haddress =>
        obtain rfl := not_not.mp haddress
        exact ⟨[], server, rest, rfl, ⟨script, hcreate⟩, by simp⟩
    · rintro ⟨before, server', after, heq, hlocked, hbuilt⟩
      cases before with
      | nil =>
        cases heq
        exact probeCandidates_here L hlocked
      | cons first before =>
        cases heq
        obtain ⟨⟨⟨script, address⟩, hcreate⟩, hbuilt⟩ := List.forall_mem_cons.mp hbuilt
        by_cases haddress : address = lockupAddress
        · subst haddress
          exact probeCandidates_here L ⟨script, hcreate⟩
        · obtain ⟨resolved, hresolved⟩ := ih.mpr ⟨before, server', after, rfl, hlocked, hbuilt⟩
          refine ⟨resolved, ?_⟩
          simp only [probeCandidates, bind_ok]
          exact ⟨_, hcreate, by simp only [ne_eq, haddress, not_false_eq_true, if_true, hresolved]⟩

theorem probeCandidates_built {args : LockupArgs} {lockupAddress swapId : String}
    {resolved : ResolvedLockup Tap} : ∀ {candidates : List String},
    probeCandidates L args lockupAddress swapId candidates = .ok (some resolved) →
    ∃ receiver sender, KeyText args.receiverPubkey receiver ∧ KeyText args.senderPubkey sender ∧
      lockupScript L args receiver sender resolved.serverXOnlyPublicKey =
        .ok (resolved.vhtlcScript, lockupAddress)
  | [], h => by cases h
  | server :: rest, h => by
    simp only [probeCandidates, bind_ok] at h
    obtain ⟨⟨script, address⟩, hcreate, h⟩ := h
    simp only at h
    split at h
    · exact probeCandidates_built h
    · next haddress =>
      obtain rfl := not_not.mp haddress
      obtain ⟨receiver, sender, key, hr, hs, hkey, hlockup⟩ := (createVHTLCScript_ok L).mp hcreate
      simp only [bind_ok, pure_ok, Option.some.injEq] at h
      obtain ⟨_, -, _, hdecode, key', hkey', rfl⟩ := h
      obtain rfl := hkey.unique (keyText_of_ok hdecode hkey')
      exact ⟨receiver, sender, hr, hs, hlockup⟩

theorem resolveVHTLCForLockup_iff {arkInfo : ArkInfo} {args : LockupArgs}
    {lockupAddress swapId : String} {resolved : ResolvedLockup Tap} :
    resolveVHTLCForLockup L arkInfo args lockupAddress swapId = .ok resolved ↔
      ∃ candidates, candidateServerPubkeys arkInfo = .ok candidates ∧
        probeCandidates L args lockupAddress swapId candidates = .ok (some resolved) := by
  simp only [resolveVHTLCForLockup, bind_ok]
  constructor
  · rintro ⟨candidates, hcandidates, found, hfound, h⟩
    cases found with
    | none => cases h
    | some resolved' =>
      cases h
      exact ⟨candidates, hcandidates, hfound⟩
  · rintro ⟨candidates, hcandidates, hfound⟩
    exact ⟨candidates, hcandidates, _, hfound, rfl⟩

theorem probed_iff {arkInfo : ArkInfo} {args : LockupArgs} {lockupAddress : String}
    (swapId : String) :
    Probed L arkInfo args lockupAddress ↔
      ∃ resolved, resolveVHTLCForLockup L arkInfo args lockupAddress swapId = .ok resolved := by
  simp only [resolveVHTLCForLockup_iff]
  constructor
  · rintro ⟨before, server, after, hcandidates, hlocked, hbuilt⟩
    obtain ⟨resolved, h⟩ :=
      (probeCandidates_some L swapId).mpr ⟨before, server, after, rfl, hlocked, hbuilt⟩
    exact ⟨resolved, _, hcandidates, h⟩
  · rintro ⟨resolved, candidates, hcandidates, h⟩
    obtain ⟨before, server, after, rfl, hlocked, hbuilt⟩ :=
      (probeCandidates_some L swapId).mp ⟨resolved, h⟩
    exact ⟨before, server, after, hcandidates, hlocked, hbuilt⟩

theorem mem_foldl_insert {candidate : String} : ∀ {keys acc : List String}, candidate ∈ keys.foldl
    (fun candidates key ↦ if key ∈ candidates then candidates else candidates ++ [key]) acc →
    candidate ∈ acc ∨ candidate ∈ keys
  | [], acc, h => .inl h
  | key :: keys, acc, h => by
    rw [List.foldl_cons] at h
    rcases mem_foldl_insert h with hacc | hkeys
    · split at hacc
      · exact .inl hacc
      · rcases List.mem_append.mp hacc with hacc | hkey
        · exact .inl hacc
        · exact .inr (List.mem_cons.mpr (.inl (List.mem_singleton.mp hkey)))
    · exact .inr (List.mem_cons_of_mem _ hkeys)

theorem mem_candidateServerPubkeys {arkInfo : ArkInfo} {candidates : List String}
    (h : candidateServerPubkeys arkInfo = .ok candidates) {candidate : String}
    (hmem : candidate ∈ candidates) :
    ∃ server ∈ arkInfo.signerPubkey :: arkInfo.deprecatedSigners, ∃ key, KeyText server key ∧
      candidate = base16.encode key := by
  simp only [candidateServerPubkeys, bind_ok, pure_ok] at h
  obtain ⟨current, hcurrent, deprecated, hdeprecated, rfl⟩ := h
  rcases mem_foldl_insert hmem with hmem | hmem
  · obtain rfl := List.mem_singleton.mp hmem
    exact ⟨_, List.mem_cons_self, serverKey_ok hcurrent⟩
  · obtain ⟨server, hserver, hkey⟩ := mem_mapM_ok hdeprecated hmem
    exact ⟨server, List.mem_cons_of_mem _ (List.mem_of_mem_filter hserver), serverKey_ok hkey⟩

theorem Probed.lockedUnder {arkInfo : ArkInfo} {args : LockupArgs} {lockupAddress : String}
    (h : Probed L arkInfo args lockupAddress) :
    ∃ server ∈ arkInfo.signerPubkey :: arkInfo.deprecatedSigners,
      LockedUnder L args lockupAddress server := by
  obtain ⟨before, candidate, after, hcandidates, ⟨script, hscript⟩, -⟩ := h
  obtain ⟨server, hserver, key, hkey, rfl⟩ :=
    mem_candidateServerPubkeys hcandidates (List.mem_append_right _ List.mem_cons_self)
  obtain ⟨receiver, sender, key', hr, hs, hkey', hlockup⟩ := (createVHTLCScript_ok L).mp hscript
  obtain rfl := hkey'.unique (keyText_encode hkey.length)
  exact ⟨server, hserver, script,
    (createVHTLCScript_ok L).mpr ⟨receiver, sender, key', hr, hs, hkey, hlockup⟩⟩

end ArkadeSdk.SwapRestore
