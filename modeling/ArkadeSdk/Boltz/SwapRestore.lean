import ArkadeSdk.Boltz.SwapCreation
import ArkadeSdk.Script.Tapscript

/-! Restoring swaps: what the provider lists for the wallet's keys, the key that each swap is
attributed to, and the lockups that the claim and refund paths rebuild from the records. -/

namespace ArkadeSdk.SwapRestore

open WireFormat JsNumber BtcScript HexCodec SwapCreation
open Json (Value)

structure Tree where
  claimLeaf : SerializedLeaf
  refundLeaf : SerializedLeaf
  covenantClaimLeaf : Option SerializedLeaf
  refundWithoutBoltzLeaf : Option SerializedLeaf
  unilateralClaimLeaf : Option SerializedLeaf
  unilateralRefundLeaf : Option SerializedLeaf
  unilateralRefundWithoutBoltzLeaf : Option SerializedLeaf

def isTree : Option Value → Option Tree
  | none => none
  | some data => do
    let claimLeaf ← isSerializedLeaf (data.field "claimLeaf")
    let refundLeaf ← isSerializedLeaf (data.field "refundLeaf")
    let covenantClaimLeaf ← orUndefined isSerializedLeaf (data.field "covenantClaimLeaf")
    let refundWithoutBoltzLeaf ← orUndefined isSerializedLeaf (data.field "refundWithoutBoltzLeaf")
    let unilateralClaimLeaf ← orUndefined isSerializedLeaf (data.field "unilateralClaimLeaf")
    let unilateralRefundLeaf ← orUndefined isSerializedLeaf (data.field "unilateralRefundLeaf")
    let unilateralRefundWithoutBoltzLeaf ←
      orUndefined isSerializedLeaf (data.field "unilateralRefundWithoutBoltzLeaf")
    return { claimLeaf, refundLeaf, covenantClaimLeaf, refundWithoutBoltzLeaf, unilateralClaimLeaf,
             unilateralRefundLeaf, unilateralRefundWithoutBoltzLeaf }

structure Transaction where
  id : String
  vout : Number

def isTransaction : Option Value → Option Transaction
  | none => none
  | some data => do
    let id ← isString (data.field "id")
    let vout ← isNumber (data.field "vout")
    return { id, vout }

structure Details where
  tree : Tree
  amount : Option Number
  keyIndex : Option Number
  transaction : Option Transaction
  lockupAddress : String
  serverPublicKey : String
  timeoutBlockHeight : Option Number
  timeoutBlockHeights : Option TimeoutBlockHeights
  preimageHash : Option String

def isDetails : Option Value → Option Details
  | none => none
  | some data => do
    let tree ← isTree (data.field "tree")
    let amount ← orUndefined isNumber (data.field "amount")
    let keyIndex ← orUndefined isNumber (data.field "keyIndex")
    let transaction ← orUndefined isTransaction (data.field "transaction")
    let lockupAddress ← isString (data.field "lockupAddress")
    let serverPublicKey ← isString (data.field "serverPublicKey")
    let timeoutBlockHeight ← orUndefined isNumber (data.field "timeoutBlockHeight")
    let timeoutBlockHeights ← orUndefined isTimeoutBlockHeights (data.field "timeoutBlockHeights")
    let preimageHash ← orUndefined isString (data.field "preimageHash")
    return { tree, amount, keyIndex, transaction, lockupAddress, serverPublicKey,
             timeoutBlockHeight, timeoutBlockHeights, preimageHash }

/-- `data[k] === text`. -/
def isExactly (text : String) (v : Option Value) : Option Unit :=
  if isString v = some text then some () else none

def isChain (v : Option Value) : Option Chain :=
  match isString v with
  | some "ARK" => some .ARK
  | some "BTC" => some .BTC
  | _ => none

structure RestoredFields where
  id : String
  status : String
  createdAt : Number
  preimageHash : Option String
  invoice : Option String

def isRestoredFields (data : Value) : Option RestoredFields := do
  let id ← isString (data.field "id")
  let status ← isString (data.field "status")
  let createdAt ← isNumber (data.field "createdAt")
  let preimageHash ← orUndefined isString (data.field "preimageHash")
  let invoice ← orUndefined isString (data.field "invoice")
  return { id, status, createdAt, preimageHash, invoice }

structure RestoredReverseSwap extends RestoredFields where
  claimDetails : Details

def isRestoredReverseSwap (data : Value) : Option RestoredReverseSwap := do
  isExactly "ARK" (data.field "to")
  isExactly "BTC" (data.field "from")
  isExactly "reverse" (data.field "type")
  let fields ← isRestoredFields data
  let claimDetails ← isDetails (data.field "claimDetails")
  return { toRestoredFields := fields, claimDetails }

structure RestoredSubmarineSwap extends RestoredFields where
  refundDetails : Details

def isRestoredSubmarineSwap (data : Value) : Option RestoredSubmarineSwap := do
  isExactly "BTC" (data.field "to")
  isExactly "ARK" (data.field "from")
  isExactly "submarine" (data.field "type")
  let fields ← isRestoredFields data
  let refundDetails ← isDetails (data.field "refundDetails")
  return { toRestoredFields := fields, refundDetails }

structure RestoredChainSwap extends RestoredFields where
  source : Chain
  target : Chain
  refundDetails : Option Details
  claimDetails : Option Details

def isRestoredChainSwap (data : Value) : Option RestoredChainSwap := do
  isExactly "chain" (data.field "type")
  let fields ← isRestoredFields data
  let source ← isChain (data.field "from")
  let target ← isChain (data.field "to")
  let refundDetails ← orUndefined isDetails (data.field "refundDetails")
  let claimDetails ← orUndefined isDetails (data.field "claimDetails")
  return { toRestoredFields := fields, source, target, refundDetails, claimDetails }

inductive RestoredSwap
  | reverse (swap : RestoredReverseSwap)
  | submarine (swap : RestoredSubmarineSwap)
  | chain (swap : RestoredChainSwap)

/-- The guard that an entry passes; the `type` is different in each. -/
def isRestoredSwap (data : Value) : Option RestoredSwap :=
  (isRestoredReverseSwap data).map RestoredSwap.reverse <|>
    (isRestoredSubmarineSwap data).map RestoredSwap.submarine <|>
    (isRestoredChainSwap data).map RestoredSwap.chain

def isCreateSwapsRestoreResponse : Value → Option (List RestoredSwap)
  | .array items => items.mapM isRestoredSwap
  | _ => none

/-- `swap.from === "ARK" || swap.to === "ARK"`. -/
def RestoredSwap.hasArkSide : RestoredSwap → Bool
  | .reverse _ | .submarine _ => true
  | .chain swap => swap.source = .ARK || swap.target = .ARK

def RESTORE_KEYS_PER_REQUEST : ℕ := 100

structure Provider where
  request : List String → Except Message Value
  getSwapPreimage : String → Except Message String

def Provider.ask (provider : Provider) (keys : List String) :
    Except Message (List RestoredSwap) := do
  let response ← provider.request keys
  match isCreateSwapsRestoreResponse response with
  | none => throw (message "Invalid schema in response for swap restoration")
  | some restored => return restored

/-- `BoltzSwapProvider.restoreSwaps`. -/
def Provider.restoreSwaps (provider : Provider) (publicKeys : List String) :
    Except Message (List RestoredSwap) := do
  let responses ← (publicKeys.toChunks RESTORE_KEYS_PER_REQUEST).mapM provider.ask
  return responses.flatten.filter RestoredSwap.hasArkSide

section Leaves

variable (L : Libraries)

/-- `parseInt(hex.encode(data.reverse()), 16)`. -/
def littleEndian (data : Bytes) : ℕ := data.foldr (fun b n ↦ b.toNat + 256 * n) 0

def dataBefore (name : String) (opcodes : List Item) : Option Bytes :=
  match opcodes.findIdx? (· = .op name) with
  | some (i + 1) => match opcodes[i]? with
    | some (.data data) => some data
    | _ => none
  | _ => none

/-- `blocks ?? seconds ?? 0` of a sequence number. -/
def sequenceValue (sequence : ℤ) : Number :=
  match L.bip68Decode sequence with
  | some timelock => .ofInt timelock.value
  | none => .ofNat 0

def extractTimeLockFromLeafOutput (scriptHex : String) : Number :=
  if scriptHex = "" then .ofNat 0
  else match SwapCreation.hexDecode scriptHex >>= ScriptCoder.decode L.OP with
    | .error _ => .ofNat 0
    | .ok opcodes => match dataBefore "CHECKLOCKTIMEVERIFY" opcodes with
      | some data => .ofNat (littleEndian data)
      | none => match dataBefore "CHECKSEQUENCEVERIFY" opcodes with
        | some data => sequenceValue L (littleEndian data)
        | none => .ofNat 0

/-- `!!a`. -/
def isTruthy (a : Number) : Bool := a ≠ .nan ∧ a ≠ .ofNat 0

def leafTimeLock (leaf : Option SerializedLeaf) : Number :=
  extractTimeLockFromLeafOutput L ((leaf.map SerializedLeaf.output).getD "")

def resolveVhtlcTimeouts (tree : Tree) (timeoutBlockHeights : Option TimeoutBlockHeights) :
    Option TimeoutBlockHeights :=
  let resolved := timeoutBlockHeights.getD {
    refund := leafTimeLock L tree.refundWithoutBoltzLeaf
    unilateralClaim := leafTimeLock L tree.unilateralClaimLeaf
    unilateralRefund := leafTimeLock L tree.unilateralRefundLeaf
    unilateralRefundWithoutReceiver := leafTimeLock L tree.unilateralRefundWithoutBoltzLeaf }
  if isTruthy resolved.refund && isTruthy resolved.unilateralClaim &&
      isTruthy resolved.unilateralRefund && isTruthy resolved.unilateralRefundWithoutReceiver
  then some resolved else none

end Leaves

def extractInvoiceAmount (amountSats : Option Number) (fees : ReverseFees) : Number :=
  match truthy amountSats with
  | none => .ofNat 0
  | some amountSats =>
    let miner := fees.minerFees.lockup.add fees.minerFees.claim
    if Number.le (.ofNat 100) fees.percentage ∨ fees.percentage.lt (.ofNat 0) then .ofNat 0
    else if amountSats.le miner then .ofNat 0
    else ((amountSats.sub miner).div
      (Number.sub (.ofNat 1) (fees.percentage.divNat 100).toDouble).toDouble).toDouble.ceil

/-- `HDWalletCapable`: the wallet signs for each descriptor it has used, with that descriptor's own
key. -/
structure HDWallet where
  getUsedSigningDescriptors : Except Message (List String)
  deriveDescriptorLeafCompressedPubKey : String → Except Message Bytes
  signerForDescriptor : String → Except Message Signer
  derive_empty : ∀ key, deriveDescriptorLeafCompressedPubKey "" ≠ .ok key
  signer_of_used : ∀ {used d key}, getUsedSigningDescriptors = .ok used → d ∈ used →
    deriveDescriptorLeafCompressedPubKey d = .ok key →
    ∃ signer, signerForDescriptor d = .ok signer ∧ signer.compressedPublicKey = key

structure Wallet where
  identity : Signer
  hd : Option HDWallet

def swapSigner (w : Wallet) (signingDescriptor : Option String) : Except Message Signer :=
  match signingDescriptor.filter (· ≠ ""), w.hd with
  | some signingDescriptor, some hd => hd.signerForDescriptor signingDescriptor
  | _, _ => .ok w.identity

structure SwapOwnerKey where
  publicKey : String
  signingDescriptor : Option String

def HDWallet.addOwnerKey (hd : HDWallet) (keys : List SwapOwnerKey) (signingDescriptor : String) :
    List SwapOwnerKey :=
  match hd.deriveDescriptorLeafCompressedPubKey signingDescriptor with
  | .error _ => keys
  | .ok key =>
    if keys.any (·.publicKey = base16.encode key) then keys
    else keys ++ [⟨base16.encode key, some signingDescriptor⟩]

def swapOwnerKeys (w : Wallet) : Except Message (List SwapOwnerKey) := do
  let identityKey := base16.encode w.identity.compressedPublicKey
  rejectIf (identityKey = "") (message "Failed to get public key from wallet")
  match w.hd with
  | none => return [⟨identityKey, none⟩]
  | some hd => match hd.getUsedSigningDescriptors with
    | .error _ => return [⟨identityKey, none⟩]
    | .ok usedDescriptors => return usedDescriptors.foldl hd.addOwnerKey [⟨identityKey, none⟩]

variable {Tap : Type} (L : SwapLibraries Tap)

/-- Our side of a lockup: the claim leg of a reverse swap, the refund leg of a submarine one. -/
inductive Role
  | receiver
  | sender
  deriving DecidableEq

def lockupArgs (arkInfo : ArkInfo) (ourRole : Role) (ours counterparty : String)
    (preimageHash : Bytes) (timeoutBlockHeights : TimeoutBlockHeights) : LockupArgs where
  network := arkInfo.network
  preimageHash := preimageHash
  receiverPubkey := if ourRole = .receiver then ours else counterparty
  senderPubkey := if ourRole = .sender then ours else counterparty
  timeoutBlockHeights := timeoutBlockHeights

def matchSwapOwner (arkInfo : ArkInfo) (candidates : List SwapOwnerKey) (ourRole : Role)
    (counterpartyPubkey preimageHash : String) (timeoutBlockHeights : TimeoutBlockHeights)
    (lockupAddress swapId : String) : Option SwapOwnerKey :=
  match SwapCreation.hexDecode preimageHash with
  | .error _ => none
  | .ok hashBytes => candidates.find? fun candidate ↦
      (resolveVHTLCForLockup L arkInfo (lockupArgs arkInfo ourRole candidate.publicKey
        counterpartyPubkey hashBytes timeoutBlockHeights) lockupAddress swapId).isOk

/-- An owner, with the hash and the timeouts that its lockup was found by. -/
structure Attribution where
  owner : SwapOwnerKey
  preimageHash : String
  timeoutBlockHeights : TimeoutBlockHeights

/-- `preimageHash && timeouts ? matchSwapOwner(..) : undefined`. -/
def attributed (arkInfo : ArkInfo) (candidates : List SwapOwnerKey) (ourRole : Role)
    (leg : Details) (preimageHash : Option String) (swapId : String) : Option Attribution :=
  match preimageHash.filter (· ≠ ""),
    resolveVhtlcTimeouts L.toLibraries leg.tree leg.timeoutBlockHeights with
  | some preimageHash, some timeoutBlockHeights =>
    (matchSwapOwner L arkInfo candidates ourRole leg.serverPublicKey preimageHash
      timeoutBlockHeights leg.lockupAddress swapId).map (⟨·, preimageHash, timeoutBlockHeights⟩)
  | _, _ => none

structure BoltzReverseSwap extends SwapCreation.BoltzReverseSwap where
  id : String
  createdAt : Number
  signingDescriptor : Option String

structure BoltzSubmarineSwap extends SwapCreation.BoltzSubmarineSwap where
  createdAt : Number
  preimage : String
  signingDescriptor : Option String

structure ChainSwapRequest where
  target : Chain
  source : Chain
  preimageHash : String
  claimPublicKey : String
  feeSatsPerByte : Number
  refundPublicKey : String
  serverLockAmount : Option Number
  userLockAmount : Option Number

structure ChainSwapDetails where
  amount : Option Number
  lockupAddress : String
  serverPublicKey : String
  timeoutBlockHeight : Option Number
  timeouts : Option TimeoutBlockHeights

structure ChainSwapResponse where
  id : String
  lockupDetails : Option ChainSwapDetails
  claimDetails : Option ChainSwapDetails

structure BoltzChainSwap where
  id : String
  createdAt : Number
  preimage : String
  ephemeralKey : String
  feeSatsPerByte : Number
  amount : Option Number
  status : String
  request : ChainSwapRequest
  response : ChainSwapResponse
  signingDescriptor : Option String

def restoreReverse (arkInfo : ArkInfo) (candidates : List SwapOwnerKey) (fees : ReverseFees)
    (swap : RestoredReverseSwap) : Option BoltzReverseSwap :=
  let leg := swap.claimDetails
  (attributed L arkInfo candidates .receiver leg (leg.preimageHash.or swap.preimageHash)
    swap.id).map fun found ↦ {
      id := swap.id
      createdAt := swap.createdAt
      request := {
        invoiceAmount := extractInvoiceAmount leg.amount fees
        claimPublicKey := found.owner.publicKey
        preimageHash := found.preimageHash
        descriptionHash := none }
      response := {
        id := swap.id
        invoice := swap.invoice.getD ""
        onchainAmount := leg.amount
        lockupAddress := some leg.lockupAddress
        refundPublicKey := some leg.serverPublicKey
        timeoutBlockHeight := none
        timeoutBlockHeights := some found.timeoutBlockHeights }
      status := swap.status
      preimage := ""
      signingDescriptor := found.owner.signingDescriptor }

def fetchPreimage (provider : Provider) (id status : String) : String :=
  if status ∈ ["invoice.failedToPay", "transaction.claimed", "swap.expired"] then ""
  else match provider.getSwapPreimage id with
    | .ok preimage => preimage
    | .error _ => ""

def restoreSubmarine (provider : Provider) (arkInfo : ArkInfo) (candidates : List SwapOwnerKey)
    (swap : RestoredSubmarineSwap) : Option BoltzSubmarineSwap :=
  let leg := swap.refundDetails
  (attributed L arkInfo candidates .sender leg (swap.preimageHash.or leg.preimageHash)
    swap.id).map fun found ↦ {
      id := swap.id
      createdAt := swap.createdAt
      preimage := fetchPreimage provider swap.id swap.status
      preimageHash := swap.preimageHash
      status := swap.status
      request := {
        invoice := swap.invoice.getD ""
        refundPublicKey := found.owner.publicKey }
      response := {
        id := swap.id
        address := some leg.lockupAddress
        -- a missing amount is no number
        expectedAmount := leg.amount.getD .nan
        claimPublicKey := some leg.serverPublicKey
        acceptZeroConf := none
        timeoutBlockHeight := none
        timeoutBlockHeights := some found.timeoutBlockHeights }
      signingDescriptor := found.owner.signingDescriptor }

def chainSwapDetails (leg : Details) : ChainSwapDetails where
  amount := leg.amount
  lockupAddress := leg.lockupAddress
  serverPublicKey := leg.serverPublicKey
  timeoutBlockHeight := leg.timeoutBlockHeight
  timeouts := resolveVhtlcTimeouts L.toLibraries leg.tree leg.timeoutBlockHeights

def RestoredChainSwap.weLockArk (swap : RestoredChainSwap) : Bool := swap.source = .ARK

def RestoredChainSwap.arkLeg (swap : RestoredChainSwap) : Option Details :=
  if swap.weLockArk then swap.refundDetails else swap.claimDetails

def RestoredChainSwap.ourRole (swap : RestoredChainSwap) : Role :=
  if swap.weLockArk then .sender else .receiver

def restoreChain (arkInfo : ArkInfo) (candidates : List SwapOwnerKey) (swap : RestoredChainSwap) :
    Option BoltzChainSwap :=
  match swap.arkLeg with
  | none => none
  | some arkLeg =>
    (attributed L arkInfo candidates swap.ourRole arkLeg swap.preimageHash swap.id).map fun found ↦
      let amount := (swap.refundDetails.bind Details.amount).or arkLeg.amount
      { id := swap.id
        createdAt := swap.createdAt
        preimage := ""
        ephemeralKey := ""
        feeSatsPerByte := .ofNat 1
        amount
        status := swap.status
        request := {
          target := swap.target
          source := swap.source
          preimageHash := found.preimageHash
          claimPublicKey := if swap.weLockArk then "" else found.owner.publicKey
          feeSatsPerByte := .ofNat 1
          refundPublicKey := if swap.weLockArk then found.owner.publicKey else ""
          serverLockAmount := amount
          userLockAmount := amount }
        response := {
          id := swap.id
          lockupDetails := swap.refundDetails.map (chainSwapDetails L)
          claimDetails := swap.claimDetails.map (chainSwapDetails L) }
        signingDescriptor := found.owner.signingDescriptor }

structure RestoredSwaps where
  chainSwaps : List BoltzChainSwap
  reverseSwaps : List BoltzReverseSwap
  submarineSwaps : List BoltzSubmarineSwap

/-- The body of the loop; an entry without an owner is skipped. -/
def restoreSwap (provider : Provider) (arkInfo : ArkInfo) (candidates : List SwapOwnerKey)
    (fees : ReverseFees) (acc : RestoredSwaps) : RestoredSwap → RestoredSwaps
  | .reverse swap => { acc with
      reverseSwaps := acc.reverseSwaps ++ (restoreReverse L arkInfo candidates fees swap).toList }
  | .submarine swap => { acc with
      submarineSwaps := acc.submarineSwaps ++
        (restoreSubmarine L provider arkInfo candidates swap).toList }
  | .chain swap => { acc with
      chainSwaps := acc.chainSwaps ++ (restoreChain L arkInfo candidates swap).toList }

def restoreSwaps (w : Wallet) (provider : Provider) (fees : ReverseFees) (arkInfo : ArkInfo) :
    Except Message RestoredSwaps := do
  let candidates ← swapOwnerKeys w
  let restoredSwaps ← provider.restoreSwaps (candidates.map SwapOwnerKey.publicKey)
  return restoredSwaps.foldl (restoreSwap L provider arkInfo candidates fees) ⟨[], [], []⟩

/-- `claimVHTLC`. -/
def claimVHTLC (w : Wallet) (arkInfo : ArkInfo) (pendingSwap : BoltzReverseSwap) :
    Except Message (Signer × ResolvedLockup Tap) := do
  rejectIf (pendingSwap.preimage = "")
    (message ("Swap " ++ pendingSwap.id ++ ": preimage is required to claim VHTLC"))
  match pendingSwap.response.refundPublicKey.filter (· ≠ ""),
    pendingSwap.response.lockupAddress.filter (· ≠ ""),
    pendingSwap.response.timeoutBlockHeights with
  | some refundPublicKey, some lockupAddress, some vhtlcTimeouts => do
    let preimage ← SwapCreation.hexDecode pendingSwap.preimage
    let signer ← swapSigner w pendingSwap.signingDescriptor
    let receiverXOnly ← normalizeToXOnlyKey signer.xOnlyPublicKey "our" pendingSwap.id
    let senderBytes ← SwapCreation.hexDecode refundPublicKey
    let senderXOnly ← normalizeToXOnlyKey senderBytes "boltz" pendingSwap.id
    let resolved ← resolveVHTLCForLockup L arkInfo {
      network := arkInfo.network
      preimageHash := L.sha256 preimage
      receiverPubkey := base16.encode receiverXOnly
      senderPubkey := base16.encode senderXOnly
      timeoutBlockHeights := vhtlcTimeouts } lockupAddress pendingSwap.id
    return (signer, resolved)
  | _, _, _ => throw (message ("Swap " ++ pendingSwap.id ++ ": incomplete reverse swap response"))

/-- With the signer that the context is built for. -/
def buildSubmarineVHTLCContext (w : Wallet) (arkInfo : ArkInfo) (swap : BoltzSubmarineSwap) :
    Except Message (Signer × SubmarineVHTLCContext Tap) := do
  let identity ← swapSigner w swap.signingDescriptor
  let context ← SwapCreation.buildSubmarineVHTLCContext L identity swap.toBoltzSubmarineSwap arkInfo
  return (identity, context)

/-- `refundArk`. -/
def refundArk (w : Wallet) (arkInfo : ArkInfo) (pendingSwap : BoltzChainSwap) :
    Except Message (Signer × ResolvedLockup Tap) :=
  match pendingSwap.response.lockupDetails with
  | none => .error (message "Cannot read properties of undefined (reading 'serverPublicKey')")
  | some lockupDetails => do
    rejectIf (lockupDetails.serverPublicKey = "") (message ("Swap " ++ pendingSwap.id ++
      ": missing server public key in lockup details"))
    match lockupDetails.timeouts with
    | none => throw (message ("Swap " ++ pendingSwap.id ++ ": missing timeouts in lockup details"))
    | some timeouts => do
      let identity ← swapSigner w pendingSwap.signingDescriptor
      let ourXOnlyPublicKey ← normalizeToXOnlyKey identity.xOnlyPublicKey "user" pendingSwap.id
      let boltzBytes ← SwapCreation.hexDecode lockupDetails.serverPublicKey
      let boltzXOnlyPublicKey ← normalizeToXOnlyKey boltzBytes "boltz" pendingSwap.id
      let preimageHash ← SwapCreation.hexDecode pendingSwap.request.preimageHash
      let resolved ← resolveVHTLCForLockup L arkInfo {
        network := arkInfo.network
        preimageHash := preimageHash
        receiverPubkey := base16.encode boltzXOnlyPublicKey
        senderPubkey := base16.encode ourXOnlyPublicKey
        timeoutBlockHeights := timeouts } lockupDetails.lockupAddress pendingSwap.id
      return (identity, resolved)

def resolveClaimSideVHTLC (arkInfo : ArkInfo) (pendingSwap : BoltzChainSwap) :
    Except Message (ResolvedLockup Tap) :=
  match pendingSwap.response.claimDetails with
  | none => .error (message "Cannot read properties of undefined (reading 'serverPublicKey')")
  | some claimDetails => do
    rejectIf (claimDetails.serverPublicKey = "") (message ("Swap " ++ pendingSwap.id ++
      ": missing server public key in claim details"))
    match claimDetails.timeouts with
    | none => throw (message ("Swap " ++ pendingSwap.id ++ ": missing timeouts in claim details"))
    | some timeouts => do
      let receiverBytes ← SwapCreation.hexDecode pendingSwap.request.claimPublicKey
      let receiverXOnlyPublicKey ← normalizeToXOnlyKey receiverBytes "receiver" ""
      let senderBytes ← SwapCreation.hexDecode claimDetails.serverPublicKey
      let senderXOnlyPublicKey ← normalizeToXOnlyKey senderBytes "sender" ""
      let preimageHash ← SwapCreation.hexDecode pendingSwap.request.preimageHash
      resolveVHTLCForLockup L arkInfo {
        network := arkInfo.network
        preimageHash := preimageHash
        receiverPubkey := base16.encode receiverXOnlyPublicKey
        senderPubkey := base16.encode senderXOnlyPublicKey
        timeoutBlockHeights := timeouts } claimDetails.lockupAddress pendingSwap.id

end ArkadeSdk.SwapRestore
