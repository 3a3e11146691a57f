import ArkadeSdk.Boltz.SwapScripts

/-! The four ways a swap is created: ask the provider, check its response, keep the record. -/

namespace ArkadeSdk.SwapCreation

open WireFormat JsNumber HexCodec
open Json (Value)

structure SubmarineFees where
  percentage : Number
  minerFees : Number

structure ReverseMinerFees where
  lockup : Number
  claim : Number

structure ReverseFees where
  percentage : Number
  minerFees : ReverseMinerFees

structure UserMinerFees where
  claim : Number
  lockup : Number

structure ChainMinerFees where
  server : Number
  user : UserMinerFees

structure ChainFeesResponse where
  percentage : Number
  minerFees : ChainMinerFees

/-- `Math.ceil((amount * percentage) / 100)`. -/
def percentageFee (amount percentage : Number) : Number :=
  ((amount.mul percentage).toDouble.divNat 100).toDouble.ceil

/-- The double next to a tenth is above it, and its product with a thousand is rounded down. -/
example : percentageFee (.ofNat 1000) (.finite (Double.ofRat 0.1)) = .ofNat 1 := by
  decide +kernel

/-- What the outside does during one call: `response` is what the provider sends and `fees` the
schedule it advertises for the direction, `none` where a request fails; `saves` says whether the
record can be written. -/
structure World (Fees : Type) where
  response : Option Value
  arkInfo : Option ArkInfo
  fees : Fees
  feesReachable : Bool
  saves : Bool
  swapManager : Bool

/-- How a call ends, and whether a swap is left in storage and with the manager. -/
structure Outcome (α : Type) where
  result : Except Message α
  stored : Bool
  monitored : Bool

def Outcome.refused {α : Type} (error : Message) : Outcome α := ⟨.error error, false, false⟩

variable {Tree Fees : Type} (L : SwapLibraries Tree)

/-- Write the record of a swap that passed its checks, and hand it to the manager. -/
def World.save {α : Type} (w : World Fees) (checked : Except Message α) : Outcome α :=
  match checked with
  | .error error => .refused error
  | .ok swap =>
    if w.saves then ⟨.ok swap, true, w.swapManager⟩ else .refused (message "Failed to save swap")

def World.ask {Response : Type} (w : World Fees) (guard : Value → Option Response)
    (error : String) : Except Message Response :=
  match w.response with
  | none => .error (message "API request failed")
  | some data => match guard data with
    | none => .error (message error)
    | some response => .ok response

/-- The provider's response passes its type guard as `response`. -/
def World.Sends {Response : Type} (w : World Fees) (guard : Value → Option Response)
    (response : Response) : Prop :=
  ∃ data, w.response = some data ∧ guard data = some response

theorem World.ask_ok {Response : Type} {w : World Fees} {guard : Value → Option Response}
    {error : String} {response : Response} :
    w.ask guard error = .ok response ↔ w.Sends guard response := by
  unfold ask Sends
  cases w.response with
  | none => simp
  | some data => cases h : guard data <;> simp [h]

theorem World.save_ok {α : Type} {w : World Fees} {checked : Except Message α} {swap : α} :
    (w.save checked).result = .ok swap ↔ checked = .ok swap ∧ w.saves = true := by
  unfold save
  cases checked with
  | error error => simp [Outcome.refused]
  | ok checked => cases hsaves : w.saves <;> simp [Outcome.refused]

theorem World.save_error {α : Type} {w : World Fees} {checked : Except Message α}
    {error : Message} (h : (w.save checked).result = .error error) :
    (w.save checked).stored = false ∧ (w.save checked).monitored = false := by
  unfold save at h ⊢
  cases checked with
  | error error => exact ⟨rfl, rfl⟩
  | ok checked =>
    cases hsaves : w.saves with
    | false => exact ⟨rfl, rfl⟩
    | true => simp [hsaves] at h

theorem World.save_stored {α : Type} {w : World Fees} {checked : Except Message α} {swap : α}
    (h : (w.save checked).result = .ok swap) : (w.save checked).stored = true := by
  obtain ⟨rfl, hsaves⟩ := save_ok.mp h
  simp [save, hsaves]

def World.getInfo (w : World Fees) : Except Message ArkInfo :=
  match w.arkInfo with
  | none => .error (message "Failed to get server info")
  | some arkInfo => .ok arkInfo

/-- `decodeInvoice`, without the fields that only descriptions use. -/
structure DecodedInvoice where
  amountSats : Number
  paymentHash : String

def decodeInvoice (invoice : String) : Except Message DecodedInvoice := do
  let decoded ← L.bolt11 invoice
  return ⟨.ofNat (decoded.amount.getD 0 / 1000), decoded.payment_hash.getD ""⟩

structure CreateReverseSwapRequest where
  invoiceAmount : Number
  claimPublicKey : String
  preimageHash : String
  descriptionHash : Option String

structure BoltzReverseSwap where
  preimage : String
  request : CreateReverseSwapRequest
  response : CreateReverseSwapResponse
  status : String

/-- `CreateLightningInvoiceRequest`; a description has no part in any check. -/
structure CreateLightningInvoiceRequest where
  amount : Number
  descriptionHash : Option String

/-- `/^[0-9a-fA-F]{64}$/`. -/
def isDescriptionHash (s : String) : Bool :=
  s.length = 64 && s.toList.all fun c ↦
    ('0' ≤ c && c ≤ '9') || ('a' ≤ c && c ≤ 'f') || ('A' ≤ c && c ≤ 'F')

def checkReverseSwap (w : World ReverseFees) (signer : Signer) (preimage : Bytes)
    (args : CreateLightningInvoiceRequest) : Except Message BoltzReverseSwap := do
  rejectIf (args.amount.le (.ofNat 0)) (message "Amount must be greater than 0")
  let claimPublicKey := base16.encode signer.compressedPublicKey
  let preimageHash := base16.encode (L.sha256 preimage)
  rejectIf (preimageHash = "") (message "Failed to get preimage hash")
  rejectIf (args.descriptionHash.any (!isDescriptionHash ·))
    (message "descriptionHash must be a 32-byte SHA256 (64 hex chars)")
  let response ← w.ask isCreateReverseSwapResponse "Error creating reverse swap"
  let decodedInvoice ← decodeInvoice L response.invoice
  rejectIf (decodedInvoice.paymentHash ≠ preimageHash)
    (message "Preimage hash does not match invoice payment hash")
  rejectIf (response.onchainAmount = none)
    (message ("Swap " ++ response.id ++ ": response carries no claim-side amount"))
  return {
    preimage := base16.encode preimage
    request := {
      invoiceAmount := args.amount
      claimPublicKey, preimageHash
      descriptionHash := args.descriptionHash }
    response
    status := "swap.created" }

def createReverseSwap (w : World ReverseFees) (signer : Signer) (preimage : Bytes)
    (args : CreateLightningInvoiceRequest) : Outcome BoltzReverseSwap :=
  w.save (checkReverseSwap L w signer preimage args)

structure CreateSubmarineSwapRequest where
  invoice : String
  refundPublicKey : String

structure BoltzSubmarineSwap where
  id : String
  request : CreateSubmarineSwapRequest
  response : CreateSubmarineSwapResponse
  status : String
  preimageHash : Option String

structure SubmarineVHTLCContext (Tree : Type) extends ResolvedLockup Tree where
  vhtlcAddress : String
  vhtlcTimeouts : TimeoutBlockHeights
  ourXOnlyPublicKey : Bytes
  boltzXOnlyPublicKey : Bytes

def swapPreimageHash (swap : BoltzSubmarineSwap) : Except Message String :=
  if swap.request.invoice ≠ "" then do
    let decodedInvoice ← decodeInvoice L swap.request.invoice
    return decodedInvoice.paymentHash
  else .ok (swap.preimageHash.getD "")

def buildSubmarineVHTLCContext (signer : Signer) (swap : BoltzSubmarineSwap) (arkInfo : ArkInfo) :
    Except Message (SubmarineVHTLCContext Tree) := do
  let preimageHash ← swapPreimageHash L swap
  rejectIf (preimageHash = "")
    (message ("Swap " ++ swap.id ++ ": preimage hash is required to refund VHTLC"))
  let ourXOnlyPublicKey ← normalizeToXOnlyKey signer.xOnlyPublicKey "our" swap.id
  match swap.response.claimPublicKey.filter (· ≠ ""), swap.response.timeoutBlockHeights with
  | some claimPublicKey, some vhtlcTimeouts => do
    let claimBytes ← hexDecode claimPublicKey
    let boltzXOnlyPublicKey ← normalizeToXOnlyKey claimBytes "boltz" swap.id
    match swap.response.address.filter (· ≠ "") with
    | none => throw (message ("Swap " ++ swap.id ++
        ": missing lockup address in submarine swap response"))
    | some lockupAddress => do
      let hashBytes ← hexDecode preimageHash
      let resolved ← resolveVHTLCForLockup L arkInfo {
        network := arkInfo.network
        preimageHash := hashBytes
        receiverPubkey := base16.encode boltzXOnlyPublicKey
        senderPubkey := base16.encode ourXOnlyPublicKey
        timeoutBlockHeights := vhtlcTimeouts } lockupAddress swap.id
      return { toResolvedLockup := resolved
               vhtlcAddress := lockupAddress
               vhtlcTimeouts, ourXOnlyPublicKey, boltzXOnlyPublicKey }
  | _, _ => throw (message ("Swap " ++ swap.id ++ ": incomplete submarine swap response"))

def maxAcceptable (invoiceSats : Number) (submarine : SubmarineFees) : Number :=
  (invoiceSats.add submarine.minerFees).add (percentageFee invoiceSats submarine.percentage)

def assertSubmarineExpectedAmount (w : World SubmarineFees) (response : CreateSubmarineSwapResponse)
    (invoice : String) : Except Message Unit := do
  let decodedInvoice ← decodeInvoice L invoice
  if decodedInvoice.amountSats = .ofNat 0 then return ()
  else do
    rejectIf (w.feesReachable = false) (message "API request failed")
    rejectIf ((maxAcceptable decodedInvoice.amountSats w.fees).lt response.expectedAmount)
      [.text ("Swap " ++ response.id ++ ": expected funding amount "),
        .value response.expectedAmount,
        .text " sats exceeds the invoice amount plus advertised fees (",
        .value (maxAcceptable decodedInvoice.amountSats w.fees), .text " sats)"]

def checkSubmarineSwap (w : World SubmarineFees) (signer : Signer) (invoice : String) :
    Except Message BoltzSubmarineSwap := do
  rejectIf (invoice = "") (message "Invoice is required")
  let response ← w.ask isCreateSubmarineSwapResponse "Error creating submarine swap"
  let pendingSwap : BoltzSubmarineSwap := {
    id := response.id
    request := { invoice, refundPublicKey := base16.encode signer.compressedPublicKey }
    response
    status := "invoice.set"
    preimageHash := none }
  let arkInfo ← w.getInfo
  let _ ← buildSubmarineVHTLCContext L signer pendingSwap arkInfo
  assertSubmarineExpectedAmount L w response invoice
  return pendingSwap

def createSubmarineSwap (w : World SubmarineFees) (signer : Signer) (invoice : String) :
    Outcome BoltzSubmarineSwap :=
  w.save (checkSubmarineSwap L w signer invoice)

inductive Chain
  | ARK
  | BTC
  deriving DecidableEq

structure CreateChainSwapRequest where
  toChain : Chain
  preimageHash : String
  claimPublicKey : String
  feeSatsPerByte : Number
  refundPublicKey : String
  serverLockAmount : Option Number
  userLockAmount : Option Number

structure BoltzChainSwap where
  id : String
  amount : Number
  ephemeralKey : String
  preimage : String
  request : CreateChainSwapRequest
  response : CreateChainSwapResponse
  toAddress : String
  status : String

structure ChainArgs where
  toAddress : String
  feeSatsPerByte : Option Number
  senderLockAmount : Option Number
  receiverLockAmount : Option Number

/-- A number that a condition takes for true. -/
def truthy (amount : Option Number) : Option Number :=
  amount.filter fun a ↦ a ≠ .nan ∧ a ≠ .ofNat 0

/-- The amount of the request, what the server shall lock and what the user shall. -/
structure LockAmounts where
  amount : Number
  serverLockAmount : Option Number
  userLockAmount : Option Number
  deriving DecidableEq

def lockAmounts (w : World ChainFeesResponse) (args : ChainArgs) : Except Message LockAmounts :=
  match truthy args.receiverLockAmount, truthy args.senderLockAmount with
  | some receiverLockAmount, _ => do
    rejectIf (w.feesReachable = false) (message "API request failed")
    return ⟨receiverLockAmount, some (receiverLockAmount.add w.fees.minerFees.user.claim), none⟩
  | none, some senderLockAmount => return ⟨senderLockAmount, none, some senderLockAmount⟩
  | none, none => throw (message "Invalid lock amount")

structure ChainSecrets where
  preimage : Bytes
  ephemeralKey : Bytes

def chainRequest (w : World ChainFeesResponse) (toChain : Chain) (signer : Signer)
    (secrets : ChainSecrets) (args : ChainArgs) :
    Except Message (LockAmounts × CreateChainSwapRequest) := do
  rejectIf (args.toAddress = "") (message "Destination address is required")
  let feeSatsPerByte := args.feeSatsPerByte.getD (.ofNat 1)
  rejectIf (feeSatsPerByte.le (.ofNat 0)) (message "Invalid feeSatsPerByte")
  let amounts ← lockAmounts w args
  rejectIf (amounts.amount.le (.ofNat 0)) (message "Invalid lock amount")
  let preimageHash := base16.encode (L.sha256 secrets.preimage)
  let arkPublicKey := base16.encode signer.compressedPublicKey
  let ephemeralPub := base16.encode (L.getPublicKey secrets.ephemeralKey)
  rejectIf (preimageHash.length ≠ 64) (message "Invalid preimageHash")
  rejectIf (amounts.userLockAmount.any fun a ↦ a.le (.ofNat 0)) (message "Invalid userLockAmount")
  rejectIf (amounts.serverLockAmount.any fun a ↦ a.le (.ofNat 0))
    (message "Invalid serverLockAmount")
  rejectIf (ephemeralPub.length ≠ 66)
    (message (if toChain = .ARK then "refundPublicKey must be a compressed public key"
      else "claimPublicKey must be a compressed public key"))
  return (amounts, {
    toChain, preimageHash, feeSatsPerByte
    claimPublicKey := if toChain = .ARK then arkPublicKey else ephemeralPub
    refundPublicKey := if toChain = .ARK then ephemeralPub else arkPublicKey
    serverLockAmount := amounts.serverLockAmount
    userLockAmount := amounts.userLockAmount })

/-- `claimDetails.amount !== serverLockAmount`, where a server amount was computed. -/
def Echoes (request : CreateChainSwapRequest) (response : CreateChainSwapResponse) : Prop :=
  ∀ serverLockAmount, request.serverLockAmount = some serverLockAmount →
    response.claimDetails.amount = serverLockAmount ∧ serverLockAmount ≠ .nan

instance (request : CreateChainSwapRequest) (response : CreateChainSwapResponse) :
    Decidable (Echoes request response) := by
  unfold Echoes
  cases request.serverLockAmount with
  | none => exact isTrue (by simp)
  | some a => exact decidable_of_iff (response.claimDetails.amount = a ∧ a ≠ .nan) (by simp)

def chainRecord (secrets : ChainSecrets) (args : ChainArgs) (amounts : LockAmounts)
    (request : CreateChainSwapRequest) (response : CreateChainSwapResponse) : BoltzChainSwap :=
  { id := response.id
    amount := amounts.amount
    ephemeralKey := base16.encode secrets.ephemeralKey
    preimage := base16.encode secrets.preimage
    request, response
    toAddress := args.toAddress
    status := "swap.created" }

def checkChainSwap (w : World ChainFeesResponse) (toChain : Chain) (signer : Signer)
    (secrets : ChainSecrets) (args : ChainArgs) : Except Message BoltzChainSwap := do
  let (amounts, request) ← chainRequest L w toChain signer secrets args
  let response ← w.ask isCreateChainSwapResponse "Error creating chain swap"
  rejectIf (¬Echoes request response)
    [.text ("Swap " ++ response.id ++ ": claim-side amount "), .value response.claimDetails.amount,
      .text " does not match the requested server lock amount ",
      .value (request.serverLockAmount.getD .nan)]
  return chainRecord secrets args amounts request response

def createChainSwap (w : World ChainFeesResponse) (toChain : Chain) (signer : Signer)
    (secrets : ChainSecrets) (args : ChainArgs) : Outcome BoltzChainSwap :=
  w.save (checkChainSwap L w toChain signer secrets args)

/-- The details of the Arkade side, and of the Bitcoin side opposite. -/
def BoltzChainSwap.arkDetails (swap : BoltzChainSwap) (toChain : Chain) :
    ChainSwapDetailsResponse :=
  match toChain with
  | .ARK => swap.response.claimDetails
  | .BTC => swap.response.lockupDetails

def BoltzChainSwap.btcDetails (swap : BoltzChainSwap) (toChain : Chain) :
    ChainSwapDetailsResponse :=
  match toChain with
  | .ARK => swap.response.lockupDetails
  | .BTC => swap.response.claimDetails

/-- `"claim"` or `"lockup"`, as the errors name the side. -/
def arkSide : Chain → String
  | .ARK => "claim"
  | .BTC => "lockup"

/-- The arguments that the Arkade side is rebuilt from. -/
def chainLockupArgs (toChain : Chain) (swap : BoltzChainSwap) (network : String) (hashBytes : Bytes)
    (timeouts : TimeoutBlockHeights) : LockupArgs :=
  { network
    preimageHash := hashBytes
    receiverPubkey := match toChain with
      | .ARK => swap.request.claimPublicKey
      | .BTC => swap.response.lockupDetails.serverPublicKey
    senderPubkey := match toChain with
      | .ARK => swap.response.claimDetails.serverPublicKey
      | .BTC => swap.request.refundPublicKey
    timeoutBlockHeights := timeouts }

def verifyBtcChainHtlc (toChain : Chain) (swap : BoltzChainSwap) (arkNetwork : String) :
    Except Message Unit := do
  let btcDetails := swap.btcDetails toChain
  match btcDetails.swapTree with
  | none => throw (message ("Swap " ++ swap.id ++ ": missing swap tree in BTC details"))
  | some parsed => do
    rejectIf (btcDetails.serverPublicKey = "")
      (message ("Swap " ++ swap.id ++ ": missing server public key in BTC details"))
    let _ ← networkHrp L arkNetwork
    let swapTree ← deserializeSwapTree parsed
    let ephemeralKey ← hexDecode swap.ephemeralKey
    let ephemeralPub := L.getPublicKey ephemeralKey
    let boltzPub ← hexDecode btcDetails.serverPublicKey
    let aggPubkey ← L.aggPubkey ephemeralKey [boltzPub, ephemeralPub] swapTree.tree
    let expectedScript ← L.outScript arkNetwork btcDetails.lockupAddress
    let script ← p2trScript aggPubkey
    rejectIf (script ≠ expectedScript)
      (message "Boltz is trying to scam us (invalid BTC address)")
    let boltzXOnly ← toXOnly boltzPub
    let userXOnly ← toXOnly ephemeralPub
    let hashBytes ← hexDecode swap.request.preimageHash
    match assertChainHtlcLeaves L swapTree {
        preimageHash160 := L.ripemd160 hashBytes
        claimXOnly := if toChain = .ARK then boltzXOnly else userXOnly
        refundXOnly := if toChain = .ARK then userXOnly else boltzXOnly
        timeoutBlockHeight := btcDetails.timeoutBlockHeight } with
    | .error err => throw ([Part.text "Boltz is trying to scam us (invalid BTC HTLC: "] ++ err ++
        [Part.text ")"])
    | .ok () => return ()

def verifyChainSwap (toChain : Chain) (swap : BoltzChainSwap) (arkInfo : ArkInfo) :
    Except Message Unit := do
  rejectIf ((swap.arkDetails toChain).serverPublicKey = "")
    (message ("Swap " ++ swap.id ++ ": missing serverPublicKey in " ++ arkSide toChain ++
      " details"))
  match (swap.arkDetails toChain).timeouts with
  | none => throw (message ("Swap " ++ swap.id ++ ": missing timeouts in " ++ arkSide toChain ++
      " details"))
  | some timeouts => do
    let serverPubkey ← serverKey arkInfo.signerPubkey
    let hashBytes ← hexDecode swap.request.preimageHash
    let (_, vhtlcAddress) ← createVHTLCScript L
      (chainLockupArgs toChain swap arkInfo.network hashBytes timeouts) serverPubkey
    rejectIf ((swap.arkDetails toChain).lockupAddress ≠ vhtlcAddress)
      (message "Boltz is trying to scam us (invalid address)")
    verifyBtcChainHtlc L toChain swap arkInfo.network

/-- `ArkToBtcResponse` and `BtcToArkResponse`. -/
structure ChainResponse where
  amountToPay : Number
  address : String
  pendingSwap : BoltzChainSwap

/-- Both corridors: create, which keeps the swap, and then verify. -/
def chainCorridor (w : World ChainFeesResponse) (toChain : Chain) (signer : Signer)
    (secrets : ChainSecrets) (args : ChainArgs) : Outcome ChainResponse :=
  let created := createChainSwap L w toChain signer secrets args
  match created.result with
  | .error error => ⟨.error error, created.stored, created.monitored⟩
  | .ok pendingSwap =>
    match w.getInfo with
    | .error error => ⟨.error error, created.stored, created.monitored⟩
    | .ok arkInfo =>
      match verifyChainSwap L toChain pendingSwap arkInfo with
      | .error err => ⟨.error ([.text "Chain swap verification failed: "] ++ err), created.stored,
          created.monitored⟩
      | .ok () =>
        ⟨.ok ⟨pendingSwap.response.lockupDetails.amount,
          pendingSwap.response.lockupDetails.lockupAddress, pendingSwap⟩, created.stored,
          created.monitored⟩

def arkToBtc (w : World ChainFeesResponse) (signer : Signer) (secrets : ChainSecrets)
    (args : ChainArgs) : Outcome ChainResponse :=
  chainCorridor L w .BTC signer secrets args

def btcToArk (w : World ChainFeesResponse) (signer : Signer) (secrets : ChainSecrets)
    (args : ChainArgs) : Outcome ChainResponse :=
  chainCorridor L w .ARK signer secrets args

def refundArkLockup (signer : Signer) (swap : BoltzChainSwap) (arkInfo : ArkInfo) :
    Except Message (ResolvedLockup Tree) := do
  rejectIf (swap.response.lockupDetails.serverPublicKey = "")
    (message ("Swap " ++ swap.id ++ ": missing server public key in lockup details"))
  match swap.response.lockupDetails.timeouts with
  | none => throw (message ("Swap " ++ swap.id ++ ": missing timeouts in lockup details"))
  | some timeouts => do
    let ourXOnlyPublicKey ← normalizeToXOnlyKey signer.xOnlyPublicKey "user" swap.id
    let boltzBytes ← hexDecode swap.response.lockupDetails.serverPublicKey
    let boltzXOnlyPublicKey ← normalizeToXOnlyKey boltzBytes "boltz" swap.id
    let hashBytes ← hexDecode swap.request.preimageHash
    resolveVHTLCForLockup L arkInfo {
      network := arkInfo.network
      preimageHash := hashBytes
      receiverPubkey := base16.encode boltzXOnlyPublicKey
      senderPubkey := base16.encode ourXOnlyPublicKey
      timeoutBlockHeights := timeouts } swap.response.lockupDetails.lockupAddress swap.id

end ArkadeSdk.SwapCreation
