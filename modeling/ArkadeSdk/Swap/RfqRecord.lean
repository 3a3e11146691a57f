import ArkadeSdk.Script.VhtlcContract
import ArkadeSdk.Swap.Corridors

/-! The stored projection of a live swap: an origin that never changes, the manager's half that
every write replaces, and a profile that each corridor merges its own fields into. -/

namespace ArkadeSdk.RfqRecord

open WireFormat JsNumber JsRecord BtcScript HexCodec Rfq
open Json (Value)

abbrev Profile := Record Value

structure RfqSwapOrigin where
  kind : RfqSwapKind
  lockupAddress : String
  profile : Profile
  amount : Option Number
  fundingArkTxid : Option String

structure RfqSwapRecord extends RfqSwapOrigin where
  rfqId : String
  state : RfqSwapState
  createdAt : ℤ
  updatedAt : ℤ
  refundArkTxid : Option String
  lockupSpendArkTxids : Option (List String)
  failure : Option Message
  blockedReason : Option Message

/-- The covenant's script, L1 derivation, printing, and what an address decodes to. -/
structure RecordLibraries (Tree : Type) where
  program : ProgramLibraries Tree
  contract : ContractLibraries
  print : VHTLC.Printer
  pkScript : Tree → Bytes
  decodeAddress : String → Except String Bytes

variable {Tree : Type} (L : RecordLibraries Tree)

def isBlank (text : Message) : Bool := text.all (· = .text "")

/-- `text ? { text } : {}`. -/
def spelled (text : Option String) : Option String := text.filter (· ≠ "")

def spelledMessage (text : Option Message) : Option Message := text.filter fun t ↦ !isBlank t

def listed (texts : Option (List String)) : Option (List String) := texts.filter (· ≠ [])

/-- A provisioned key or claim secret: its descriptor, the preimage where the record has to keep
it, and the salt that another preimage derives from. -/
structure ProvisionedSecret where
  descriptor : String
  preimage : Option Bytes
  preimageSalt : Option Bytes

def hashlockFields (secrets : ProvisionedSecret) (paymentHash : String) : List (String × Value) :=
  [("paymentHash", Value.string paymentHash)] ++
    (secrets.preimage.map fun b ↦ ("preimageHex", Value.string (base16.encode b))).toList ++
    (secrets.preimageSalt.map fun b ↦ ("preimageSaltHex", Value.string (base16.encode b))).toList

def rfqSecretsProfile (secrets : ProvisionedSecret) (paymentHash : Option String) :
    List (String × Value) :=
  ("signer", .object [("signingDescriptor", .string secrets.descriptor)]) ::
    match spelled paymentHash with
    | none => []
    | some paymentHash => [("hashlock", .object (hashlockFields secrets paymentHash))]

/-- The L1 half of what `requestOnchainSend` returned. -/
structure OnchainRequest where
  htlcAddress : String
  claimKey : Bytes
  refundKey : Bytes
  htlcLocktime : Number
  network : OnchainNetwork
  minConfirmations : ℤ

def networkName : OnchainNetwork → String
  | .bitcoin => "bitcoin"
  | .testnet => "testnet"
  | .regtest => "regtest"

def onchainSendProfile (result : OnchainRequest) : List (String × Value) :=
  [("claimKey", .string (base16.encode result.claimKey)),
    ("refundKey", .string (base16.encode result.refundKey)),
    ("htlcLocktime", .number result.htlcLocktime), ("network", .string (networkName result.network)),
    ("htlcAddress", .string result.htlcAddress),
    ("minConfirmations", .number (.ofInt result.minConfirmations))]

/-- What a corridor's request adds to the secrets. -/
inductive RequestResult
  | lightning_send
  | lightning_receive (expectedAmount : Number) (payoutAddress : String)
  | onchain_send (result : OnchainRequest)

def corridorProfile : RequestResult → List (String × Value)
  | .lightning_send => []
  | .lightning_receive expectedAmount payoutAddress =>
    [("expectedAmount", .number expectedAmount), ("payoutAddress", .string payoutAddress)]
  | .onchain_send result => onchainSendProfile result

def textEntry (name : String) (text : Option String) : List (String × Value) :=
  (spelled text).toList.map fun s ↦ (name, .string s)

def fundingValue (funding : Outpoint) : Value :=
  .object [("txid", .string funding.txid), ("vout", .number (.ofNat funding.vout))]

def project (kind : RfqSwapKind) (swap : RfqSwap) : List (String × Value) :=
  match kind with
  | .lightning_send => []
  | .lightning_receive =>
    ("expectedAmount", .number swap.expectedAmount) :: textEntry "claimArkTxid" swap.claimArkTxid
  | .onchain_send =>
    (swap.funding.toList.map fun funding ↦ ("funding", fundingValue funding)) ++
      textEntry "claimTxid" swap.claimTxid

/-- `{ ...origin, ...managerState(swap), profile }`. -/
def managerState (origin : RfqSwapOrigin) (profile : Profile) (swap : RfqSwap) : RfqSwapRecord :=
  { origin with
    profile := profile
    rfqId := swap.rfqId
    state := swap.state
    createdAt := swap.createdAt
    updatedAt := swap.updatedAt
    refundArkTxid := spelled swap.refundArkTxid
    lockupSpendArkTxids := listed swap.lockupSpendArkTxids
    failure := spelledMessage swap.failure
    blockedReason := spelledMessage swap.blockedReason }

def assertSameSwap (origin : RfqSwapOrigin) (swap : RfqSwap) : Except Message Unit :=
  Rfq.assertSameSwap ⟨origin.kind, L.decodeAddress origin.lockupAddress⟩ swap

def createRfqSwapRecord (origin : RfqSwapOrigin) (swap : RfqSwap) : Except Message RfqSwapRecord := do
  assertSameSwap L origin swap
  return managerState origin (origin.profile.spread (project origin.kind swap)) swap

def updateRfqSwapRecord (record : RfqSwapRecord) (swap : RfqSwap) : Except Message RfqSwapRecord := do
  assertSameSwap L record.toRfqSwapOrigin swap
  return managerState record.toRfqSwapOrigin
    (record.profile.spread (project record.kind swap)) swap

def rfqSwapOriginOf (record : RfqSwapRecord) : RfqSwapOrigin :=
  { record.toRfqSwapOrigin with fundingArkTxid := spelled record.fundingArkTxid }

def throwText (text : String) : Refusal := refusal [.text text]

def isHexDigit (c : Char) : Bool :=
  '0' ≤ c && c ≤ '9' || 'a' ≤ c && c ≤ 'f' || 'A' ≤ c && c ≤ 'F'

def lowerCase (s : String) : String := String.ofList (s.toList.map Char.toLower)

/-- 64 characters of hex, case-folded. -/
def parseHex32 (value : Option Value) (field : String) : Except Refusal String :=
  match value with
  | some (.string s) =>
    if s.toList.length = 64 ∧ s.toList.all isHexDigit = true then .ok (lowerCase s)
    else .error (refusal [.text (field ++ " must be 32 bytes of hex, got "), .value value])
  | _ => .error (refusal [.text (field ++ " must be 32 bytes of hex, got "), .value value])

def property (value : Option Value) (name : String) : Option Value := value.bind (·.field name)

structure Hashlock where
  paymentHash : String
  preimageHex : Option String
  preimageSaltHex : Option String

def optionalHex32 (value : Option Value) (field : String) : Except Refusal (Option String) :=
  match value with
  | none => .ok none
  | some value => some <$> parseHex32 (some value) field

def parseHashlock (value : Option Value) : Except Refusal Hashlock := do
  let paymentHash ← parseHex32 (property value "paymentHash") "rfq profile.hashlock.paymentHash"
  let preimageHex ← optionalHex32 (property value "preimageHex") "rfq profile.hashlock.preimageHex"
  let preimageSaltHex ← optionalHex32 (property value "preimageSaltHex")
    "rfq profile.hashlock.preimageSaltHex"
  return ⟨paymentHash, preimageHex, preimageSaltHex⟩

def hydrateHashlock (profile : Profile) : Except Refusal String :=
  match parseHashlock (profile.get "hashlock") with
  | .ok hashlock => .ok hashlock.paymentHash
  | .error cause => .error ⟨none, .text
      "rfq record carries no usable hashlock; it cannot verify a preimage: " :: cause.text⟩

def stringField (profile : Profile) (name : String) : Option String :=
  match profile.get name with
  | some (.string s) => some s
  | _ => none

def textField (profile : Profile) (name : String) : Option String :=
  spelled (stringField profile name)

def fundingField (profile : Profile) : Option Outpoint :=
  match property (profile.get "funding") "txid", property (profile.get "funding") "vout" with
  | some (.string txid), some (.number (.finite vout)) => some ⟨txid, (Number.trunc vout).toNat⟩
  | _, _ => none

/-- The fields of one kind; those of the others are left empty. -/
structure Hydrated where
  paymentHash : String
  htlc : OnchainHtlc := ⟨[], "", 0⟩
  minConfirmations : ℤ := 0
  expectedAmount : Number := .nan
  funding : Option Outpoint := none
  claimTxid : Option String := none
  claimArkTxid : Option String := none

def hydrateReceive (profile : Profile) : Except Refusal Hydrated :=
  match profile.get "expectedAmount" with
  | some (.number (.finite amount)) => do
    let paymentHash ← hydrateHashlock profile
    return { paymentHash, expectedAmount := .finite amount,
             claimArkTxid := textField profile "claimArkTxid" }
  | _ => .error (throwText "lightning_receive record carries no expectedAmount; it cannot claim")

def parseNetwork (name : Option Value) : Except Refusal OnchainNetwork :=
  match name with
  | some (.string "bitcoin") => .ok .bitcoin
  | some (.string "testnet") => .ok .testnet
  | some (.string "regtest") => .ok .regtest
  | name => .error (refusal [.text "unknown L1 network '", .value name,
      .text "' — expected one of bitcoin, testnet, regtest"])

def parseMinConfirmations (value : Option Value) : Except Refusal ℤ :=
  match asInteger value with
  | some n => do
    refuseIf (n < 1) noMinConfirmations
    return n
  | none => .error noMinConfirmations
where
  noMinConfirmations : Refusal := refusal
    [.text "onchain_send record carries no usable minConfirmations (", .value value,
      .text ("); the confirmation gate cannot be checked — refusing to restore a swap that " ++
        "would claim an unconfirmed fill")]

def hydrateOnchain (profile : Profile) : Except Refusal Hydrated := do
  let paymentHash ← hydrateHashlock profile
  match textField profile "claimKey", textField profile "refundKey" with
  | some claimKeyHex, some refundKeyHex =>
    let minConfirmations ← parseMinConfirmations (profile.get "minConfirmations")
    let claimKey ← orThrow (hexField (some (.string claimKeyHex)))
    let refundKey ← orThrow (hexField (some (.string refundKeyHex)))
    let network ← parseNetwork (profile.get "network")
    let locktime := (profile.get "htlcLocktime").getD .null
    let htlc ← onchainHtlcScript L.contract paymentHash claimKey refundKey locktime network
    refuseIf (stringField profile "htlcAddress" ≠ some htlc.address)
      (refusal [.text ("onchain_send record's L1 inputs derive " ++ htlc.address ++
        ", but the fill was expected at "), .value (profile.get "htlcAddress"),
        .text " — these are not this swap's"])
    return { paymentHash, htlc := htlc.toOnchainHtlc, minConfirmations,
             funding := fundingField profile, claimTxid := textField profile "claimTxid" }
  | _, _ => throw (throwText ("onchain_send record carries no L1 keys; its HTLC cannot be " ++
      "rebuilt and its refund window would pass unwatched"))

def hydrate (kind : RfqSwapKind) (profile : Profile) : Except Refusal Hydrated :=
  match kind with
  | .lightning_send => do
    let paymentHash ← hydrateHashlock profile
    return { paymentHash }
  | .lightning_receive => hydrateReceive profile
  | .onchain_send => hydrateOnchain L profile

/-- The covenant of the parameters, which has to be the one that was funded. -/
def lockupScript (params : VHTLC.Params) (lockupAddress : String) :
    Except Refusal (VHTLC.ScriptV2 Tree) := do
  let script ← orThrow (VHTLC.createScript L.program params)
  match L.decodeAddress lockupAddress with
  | .error error => throw (throwText error)
  | .ok funded =>
    refuseIf (funded ≠ L.pkScript script.vtxoScript)
      (throwText ("rfq swap covenant params derive " ++
        base16.encode (L.pkScript script.vtxoScript) ++ ", but the record's lockup address holds " ++
        base16.encode funded ++ " — these params are not this swap's"))
    return script

def rebuildRfqSwap (record : RfqSwapRecord) (params : VHTLC.Params) : Except Refusal RfqSwap := do
  let script ← lockupScript L params record.lockupAddress
  let hydrated ← hydrate L record.kind record.profile
  let pkScript := L.pkScript script.vtxoScript
  return {
    rfqId := record.rfqId
    kind := record.kind
    lockupPkScript := pkScript
    lockup := some ⟨pkScript, record.lockupAddress⟩
    paymentHash := hydrated.paymentHash
    refundLocktime := script.options.refundLocktime
    createdAt := record.createdAt
    htlc := hydrated.htlc
    minConfirmations := hydrated.minConfirmations
    expectedAmount := hydrated.expectedAmount
    state := record.state
    updatedAt := record.updatedAt
    refundArkTxid := spelled record.refundArkTxid
    lockupSpendArkTxids := listed record.lockupSpendArkTxids
    failure := spelledMessage record.failure
    blockedReason := spelledMessage record.blockedReason
    funding := hydrated.funding
    claimTxid := hydrated.claimTxid
    claimArkTxid := hydrated.claimArkTxid }

def RFQ_SWAP_RETENTION_SECONDS : ℤ := 30 * 24 * 60 * 60

def shouldRetainRfqSwap (record : RfqSwapRecord) (now : ℤ) : Bool :=
  !isRfqSwapTerminal record.state || now - record.updatedAt < RFQ_SWAP_RETENTION_SECONDS

end ArkadeSdk.RfqRecord
