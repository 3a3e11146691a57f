import ArkadeSdk.Script.Vhtlc
import ArkadeSdk.Swap.Quote

/-! The four corridors: ask for a quote, derive every contract locally, check the quote against
what was asked for and derived, and hand back what to fund or to pay. -/

namespace ArkadeSdk.Rfq

open WireFormat JsNumber JsCoercion BtcScript HexCodec
open Json (Value)

def SEQUENCE_GRANULARITY_SECONDS : ℤ := 512

def SOLO_REFUND_HEADROOM_SECONDS : ℤ := 8 * SEQUENCE_GRANULARITY_SECONDS

inductive OnchainNetwork
  | bitcoin
  | testnet
  | regtest
  deriving DecidableEq

def l1NetworkFromArk (network : String) : OnchainNetwork :=
  if network = "bitcoin" then .bitcoin else if network = "regtest" then .regtest else .testnet

/-- Hashing, and the taproot outputs that scripts compile to. -/
structure ContractLibraries where
  ripemd160 : Bytes → Bytes
  vhtlcPkScript : VHTLC.Options → Except Message Bytes
  arkAddress : String → Bytes → Bytes → String
  p2tr : OnchainNetwork → List Item → List Item → Except Message (String × Bytes)

/-- A covenant with the address it is funded at. -/
structure Lockup where
  options : VHTLC.Options
  pkScript : Bytes

/-- `onchainHtlcScript`'s result, and the address it is compared by. -/
structure DerivedHtlc extends OnchainHtlc where
  address : String

variable (L : ContractLibraries)

def unilateralClaimDelay (serverExitDelaySeconds : Number) : Except Message ℤ :=
  match serverExitDelaySeconds with
  | .finite delay => do
    rejectIf (delay < SEQUENCE_GRANULARITY_SECONDS)
      [.text "server exit delay must be at least 512s of seconds, got ", .value (.finite delay)]
    rejectIf (delay > (0xffff * SEQUENCE_GRANULARITY_SECONDS - SOLO_REFUND_HEADROOM_SECONDS : ℤ))
      [.text "server exit delay ", .value (.finite delay),
        .text "s exceeds what BIP68 can encode once the solo refund's headroom is stacked above it"]
    return ⌈delay / SEQUENCE_GRANULARITY_SECONDS⌉ * SEQUENCE_GRANULARITY_SECONDS
  | delay => .error
    [.text "server exit delay must be at least 512s of seconds, got ", .value delay]

def unilateralRefundDelay (claimDelay : ℤ) : ℤ := claimDelay

def unilateralRefundWithoutReceiverDelay (claimDelay : ℤ) : ℤ :=
  claimDelay + SOLO_REFUND_HEADROOM_SECONDS

def toXOnly (key : Bytes) (label : String) : Except Message Bytes :=
  if key.length = 32 then .ok key
  else match key with
    | parity :: rest =>
      if rest.length = 32 ∧ (parity = 0x02 ∨ parity = 0x03) then .ok rest
      else .error (message (label ++ " is not a compressed or x-only public key"))
    | [] => .error (message (label ++ " is not a compressed or x-only public key"))

/-- `hex.decode` of a field that should be text. -/
def hexField (v : Option Value) : Except Message Bytes :=
  match v with
  | some (.string s) => match base16.decode s with
    | some b => .ok b
    | none => .error (message "hex.decode: invalid input")
  | _ => .error (message "hex.decode: expected a string")

def solverHex (v : Value) (field : String) : Except Message Bytes :=
  match hexField (some v) with
  | .ok b => .ok b
  | .error _ => .error (message ("solver sent malformed hex for " ++ field))

/-- What both covenants of the corridors are built from: who funds, who claims, and where each
side is paid. -/
structure TreeParams where
  sender : Bytes
  receiver : Bytes
  server : Bytes
  emulator : Bytes
  refundLocktime : Value
  paymentHash : String
  claimDelay : ℤ
  senderPkScript : Bytes
  receiverPkScript : Bytes

def compileTree (params : TreeParams) : Except Message Lockup := do
  let paymentHash ← hexField (some (.string params.paymentHash))
  let refundLocktime ← toBigInt (some params.refundLocktime)
  let options : VHTLC.Options :=
    { sender := params.sender
      receiver := params.receiver
      server := params.server
      preimageHash := L.ripemd160 paymentHash
      refundLocktime := refundLocktime
      unilateralClaimDelay := ⟨params.claimDelay, .seconds⟩
      unilateralRefundDelay := ⟨unilateralRefundDelay params.claimDelay, .seconds⟩
      unilateralRefundWithoutReceiverDelay :=
        ⟨unilateralRefundWithoutReceiverDelay params.claimDelay, .seconds⟩
      nonInteractiveClaim := some ⟨params.receiverPkScript, params.emulator, none⟩
      nonInteractiveRefund := some ⟨params.senderPkScript, params.emulator⟩
      asset := none }
  VHTLC.validateOptions options
  let pkScript ← L.vhtlcPkScript options
  return ⟨options, pkScript⟩

def lightningSendVtxoScript (solverPubkey : Bytes) (refundLocktime : Value) (serverPubkey : Bytes)
    (paymentHash : String) (claimDelay : ℤ) (emulatorPubkey refundPkScript senderPubkey
    receiverPkScript : Bytes) : Except Message Lockup :=
  compileTree L ⟨senderPubkey, solverPubkey, serverPubkey, emulatorPubkey, refundLocktime,
    paymentHash, claimDelay, refundPkScript, receiverPkScript⟩

def receiveVtxoScript (solverPubkey : Bytes) (refundLocktime : Value) (serverPubkey : Bytes)
    (paymentHash : String) (claimDelay : ℤ) (emulatorPubkey solverRefundPkScript payoutPubkey
    payoutPkScript : Bytes) : Except Message Lockup :=
  compileTree L ⟨solverPubkey, payoutPubkey, serverPubkey, emulatorPubkey, refundLocktime,
    paymentHash, claimDelay, solverRefundPkScript, payoutPkScript⟩

def onchainHtlcScript (paymentHash : String) (claimKey refundKey : Bytes) (refundLocktime : Value)
    (network : OnchainNetwork) : Except Refusal DerivedHtlc := do
  refuseIf (claimKey.length ≠ 32 ∨ refundKey.length ≠ 32)
    (refusal [.text "claimKey and refundKey must be 32-byte x-only keys"])
  match asInteger (some refundLocktime) with
  | none => .error (positive refundLocktime)
  | some locktime => do
    refuseIf (locktime ≤ 0) (positive refundLocktime)
    refuseIf (locktime < LOCKTIME_THRESHOLD)
      (refusal [.text "refundLocktime ", .value (some refundLocktime),
        .text " is below LOCKTIME_THRESHOLD (500000000) and would be interpreted as a block height"])
    let hash ← orThrow (hexField (some (.string paymentHash)))
    let claim : List Item := [.op "SIZE", .num 32, .op "EQUALVERIFY", .op "HASH160",
      .data (L.ripemd160 hash), .op "EQUALVERIFY", .data claimKey, .op "CHECKSIG"]
    let refund : List Item := [.data (ScriptNumber.encode locktime), .op "CHECKLOCKTIMEVERIFY",
      .op "DROP", .data refundKey, .op "CHECKSIG"]
    let (address, pkScript) ← orThrow (L.p2tr network claim refund)
    return ⟨⟨pkScript, paymentHash, locktime⟩, address⟩
where
  positive (refundLocktime : Value) : Refusal :=
    refusal [.text "refundLocktime must be a positive unix timestamp, got ",
      .value (some refundLocktime)]

/-- What the trader's own wallet, server and clock answer during a request. -/
structure Trader where
  rfqId : String
  /-- The provisioned key, and the hash of the provisioned preimage where there is one. -/
  pubkey : Bytes
  paymentHash : String
  address : String
  addressPkScript : Except Message Bytes
  signerPubkey : Except Message Bytes
  emulatorPubkey : Except Message Bytes
  unilateralExitDelay : Number
  hrp : String
  network : String
  claimPacket : Except Message String
  now : ℤ
  registerLockup : Lockup → String → Except Refusal Unit

/-- Asks the solver. What is not a quote for this request throws. -/
abbrev RfqTransport := Value → Except Refusal RfqQuote

def rfqRequest (rfqId pair : String) (amount : List (String × Value))
    (profile : List (String × Value)) : Value :=
  .object ([("v", Value.number (.ofInt 1)), ("type", .string "rfq_request"),
    ("rfq_id", .string rfqId), ("pair", .string pair)] ++ amount ++
      [("profile", Value.object profile)])

def fixedAmount (amountSide : AmountSide) (amount : Number) : List (String × Value) :=
  [("amount_side", .string (match amountSide with
    | .fromSide => "from"
    | .toSide => "to")), ("amount", .number amount)]

def lightningSendRequest (rfqId invoice refundAddress : String) (senderPubkey : Bytes) : Value :=
  rfqRequest rfqId "arkade:BTC->lightning:BTC" [("amount_side", .string "to")]
    [("invoice", .string invoice), ("refund_address", .string refundAddress),
      ("client_refund_pubkey", .string (base16.encode senderPubkey))]

def onchainSendRequest (rfqId paymentHash : String) (payoutPubkey : Bytes) (refundAddress : String)
    (senderPubkey : Bytes) (amountSide : AmountSide) (amount : Number) : Value :=
  rfqRequest rfqId "arkade:BTC->onchain:BTC" (fixedAmount amountSide amount)
    [("payment_hash", .string paymentHash), ("payout_pubkey", .string (base16.encode payoutPubkey)),
      ("refund_address", .string refundAddress),
      ("client_refund_pubkey", .string (base16.encode senderPubkey))]

def lightningReceiveRequest (rfqId paymentHash payoutAddress : String) (payoutPubkey : Bytes)
    (claimPacket : String) (amountSide : AmountSide) (amount : Number) : Value :=
  rfqRequest rfqId "lightning:BTC->arkade:BTC" (fixedAmount amountSide amount)
    [("payment_hash", .string paymentHash), ("payout_address", .string payoutAddress),
      ("payout_pubkey", .string (base16.encode payoutPubkey)), ("claim_packet", .string claimPacket)]

def onchainReceiveRequest (rfqId paymentHash payoutAddress : String) (payoutPubkey : Bytes)
    (refundPubkey : Bytes) (claimPacket : String) (amountSide : AmountSide) (amount : Number) :
    Value :=
  rfqRequest rfqId "onchain:BTC->arkade:BTC" (fixedAmount amountSide amount)
    [("payment_hash", .string paymentHash), ("claim_packet", .string claimPacket),
      ("refund_pubkey", .string (base16.encode refundPubkey)),
      ("payout_address", .string payoutAddress),
      ("payout_pubkey", .string (base16.encode payoutPubkey))]

def missing (corridor : String) : Refusal :=
  refusal [.text (corridor ++ " quote is missing a binding field")]

structure SendResult where
  quote : RfqQuote
  address : String
  fundAmount : Option Value
  lockup : Lockup

def requestLightningSend (trader : Trader) (transport : RfqTransport) (invoice : InvoiceFacts) :
    Except Refusal SendResult := do
  let quote ← transport (lightningSendRequest trader.rfqId invoice.raw trader.address trader.pubkey)
  let refundLocktime ← defined quote.refund_locktime
    (refusal [.text "lightning-send quote is missing refund_locktime"])
  let receiverPkScriptHex ← defined (quote.profile "receiver_pk_script")
    (refusal [.text "lightning-send quote is missing profile.receiver_pk_script"])
  refuseIf (strictlyEquals quote.to_amount invoice.amountSats = false)
    (refusal [.text "quote to_amount ", .value quote.to_amount,
      .text " does not match the invoice's ", .value (some (.number invoice.amountSats))])
  let negativeSpread ← lessThan quote.from_amount quote.to_amount
  refuseIf (negativeSpread = true)
    (refusal [.text "quote from_amount ", .value quote.from_amount,
      .text " is below the invoice amount — a negative spread is not a quote"])
  let serverPubkey ← orThrow trader.signerPubkey
  let solverKey ← orThrow (hexField quote.solver_pubkey)
  let solverPubkey ← orThrow (toXOnly solverKey "solver key")
  let claimDelay ← orThrow (unilateralClaimDelay trader.unilateralExitDelay)
  let emulatorPubkey ← orThrow trader.emulatorPubkey
  let receiverPkScript ← orThrow (solverHex receiverPkScriptHex "profile.receiver_pk_script")
  let refundPkScript ← orThrow trader.addressPkScript
  let lockup ← orThrow (lightningSendVtxoScript L solverPubkey refundLocktime serverPubkey
    invoice.paymentHash claimDelay emulatorPubkey refundPkScript trader.pubkey receiverPkScript)
  let address := L.arkAddress trader.hrp serverPubkey lockup.pkScript
  verifyLockupAddress quote address
  assertFundable quote (some invoice.expiresAt) trader.now none
  trader.registerLockup lockup address
  return ⟨quote, address, quote.from_amount, lockup⟩

structure OnchainSend where
  address : String
  lockup : Lockup
  htlc : DerivedHtlc
  refundLocktime : Value
  minConfirmations : Value

def deriveOnchainSend (quote : RfqQuote) (paymentHash : String) (payoutPubkey serverPubkey
    emulatorPubkey : Bytes) (claimDelay : ℤ) (hrp : String) (l1Network : OnchainNetwork)
    (refundPkScript : Except Message Bytes) (senderPubkey : Bytes) :
    Except Refusal OnchainSend := do
  -- `??` reads past null, which `assertFundable` does not.
  let refundLocktime ← defined
    ((quote.refund_locktime.filter (!·.isNull)).or (quote.profile "refund_locktime"))
    (missing "onchain-send")
  let htlcPubkey ← defined (quote.profile "htlc_pubkey") (missing "onchain-send")
  let htlcLocktime ← defined (quote.profile "htlc_locktime") (missing "onchain-send")
  let minConfirmations ← defined (quote.profile "min_confirmations") (missing "onchain-send")
  let receiverPkScriptHex ← defined (quote.profile "receiver_pk_script") (missing "onchain-send")
  let solverKey ← orThrow (hexField quote.solver_pubkey)
  let solverPubkey ← orThrow (toXOnly solverKey "solver key")
  let receiverPkScript ← orThrow (solverHex receiverPkScriptHex "profile.receiver_pk_script")
  let refundPkScript ← orThrow refundPkScript
  let lockup ← orThrow (lightningSendVtxoScript L solverPubkey refundLocktime serverPubkey
    paymentHash claimDelay emulatorPubkey refundPkScript senderPubkey receiverPkScript)
  let address := L.arkAddress hrp serverPubkey lockup.pkScript
  verifyLockupAddress quote address
  let refundKey ← orThrow (hexField (some htlcPubkey))
  let refundKey ← orThrow (toXOnly refundKey "solver L1 htlc key")
  let htlc ← onchainHtlcScript L paymentHash payoutPubkey refundKey htlcLocktime l1Network
  match quote.profile "htlc_address" with
  | some (.string quoted) => refuseIf (htlc.address ≠ quoted) addressMismatch
  | _ => .error addressMismatch
  return ⟨address, lockup, htlc, refundLocktime, minConfirmations⟩

structure OnchainSendResult extends SendResult where
  htlc : DerivedHtlc
  minConfirmations : Value

def requestOnchainSend (trader : Trader) (transport : RfqTransport) (amount : Number)
    (amountSide : AmountSide) (payoutPubkey : Bytes) : Except Refusal OnchainSendResult := do
  let quote ← transport (onchainSendRequest trader.rfqId trader.paymentHash payoutPubkey
    trader.address trader.pubkey amountSide amount)
  let serverPubkey ← orThrow trader.signerPubkey
  let emulatorPubkey ← orThrow trader.emulatorPubkey
  let claimDelay ← orThrow (unilateralClaimDelay trader.unilateralExitDelay)
  let derived ← deriveOnchainSend L quote trader.paymentHash payoutPubkey serverPubkey
    emulatorPubkey claimDelay trader.hrp (l1NetworkFromArk trader.network) trader.addressPkScript
    trader.pubkey
  assertFundable quote none trader.now
    (some ⟨derived.htlc.refundLocktime, derived.minConfirmations, .send⟩)
  trader.registerLockup derived.lockup derived.address
  return ⟨⟨quote, derived.address, quote.from_amount, derived.lockup⟩, derived.htlc,
    derived.minConfirmations⟩

structure LightningReceive where
  address : String
  lockup : Lockup
  invoice : Value
  refundLocktime : Value

def deriveLightningReceive (quote : RfqQuote) (paymentHash : String) (payoutPubkey : Bytes)
    (payoutPkScript : Except Message Bytes) (serverPubkey emulatorPubkey : Bytes) (claimDelay : ℤ)
    (hrp : String) : Except Refusal LightningReceive := do
  let refundLocktime ← defined quote.refund_locktime (missing "lightning-receive")
  let invoice ← defined (quote.profile "invoice") (missing "lightning-receive")
  let solverRefundPkScriptHex ← defined (quote.profile "solver_refund_pk_script")
    (missing "lightning-receive")
  let solverKey ← orThrow (hexField quote.solver_pubkey)
  let solverPubkey ← orThrow (toXOnly solverKey "solver key")
  let solverRefundPkScript ← orThrow
    (solverHex solverRefundPkScriptHex "profile.solver_refund_pk_script")
  let payoutPkScript ← orThrow payoutPkScript
  let lockup ← orThrow (receiveVtxoScript L solverPubkey refundLocktime serverPubkey paymentHash
    claimDelay emulatorPubkey solverRefundPkScript payoutPubkey payoutPkScript)
  let address := L.arkAddress hrp serverPubkey lockup.pkScript
  verifyLockupAddress quote address
  return ⟨address, lockup, invoice, refundLocktime⟩

structure LightningReceiveResult where
  quote : RfqQuote
  invoice : Value
  payAmount : Option Value
  expectedAmount : Option Value
  invoiceExpiresAt : Number
  address : String
  lockup : Lockup

def requestLightningReceive (trader : Trader) (transport : RfqTransport) (amount : Number)
    (amountSide : AmountSide) (decodeInvoice : Value → Except String InvoiceFacts)
    (maxPayAmount : Option Number) : Except Refusal LightningReceiveResult := do
  let claimPacket ← orThrow trader.claimPacket
  let quote ← transport (lightningReceiveRequest trader.rfqId trader.paymentHash trader.address
    trader.pubkey claimPacket amountSide amount)
  assertQuotedAmount quote amountSide amount
  let serverPubkey ← orThrow trader.signerPubkey
  let emulatorPubkey ← orThrow trader.emulatorPubkey
  let claimDelay ← orThrow (unilateralClaimDelay trader.unilateralExitDelay)
  let derived ← deriveLightningReceive L quote trader.paymentHash trader.pubkey
    trader.addressPkScript serverPubkey emulatorPubkey claimDelay trader.hrp
  let payDeadline ← verifyReceiveInvoice (decodeInvoice derived.invoice) trader.paymentHash quote
  assertReceivable quote payDeadline trader.now maxPayAmount
  trader.registerLockup derived.lockup derived.address
  return ⟨quote, derived.invoice, quote.from_amount, quote.to_amount, payDeadline,
    derived.address, derived.lockup⟩

structure OnchainReceive where
  address : String
  lockup : Lockup
  htlc : DerivedHtlc
  minConfirmations : Value

def deriveOnchainReceive (quote : RfqQuote) (paymentHash : String) (payoutPubkey : Bytes)
    (payoutPkScript : Except Message Bytes) (refundPubkey serverPubkey emulatorPubkey : Bytes)
    (claimDelay : ℤ) (hrp : String) (l1Network : OnchainNetwork) :
    Except Refusal OnchainReceive := do
  let refundLocktime ← defined quote.refund_locktime (missing "onchain-receive")
  let claimPubkey ← defined (quote.profile "claim_pubkey") (missing "onchain-receive")
  let htlcLocktime ← defined (quote.profile "htlc_locktime") (missing "onchain-receive")
  let minConfirmations ← defined (quote.profile "min_confirmations") (missing "onchain-receive")
  let solverRefundPkScriptHex ← defined (quote.profile "solver_refund_pk_script")
    (missing "onchain-receive")
  let solverKey ← orThrow (hexField quote.solver_pubkey)
  let solverPubkey ← orThrow (toXOnly solverKey "solver key")
  let solverRefundPkScript ← orThrow
    (solverHex solverRefundPkScriptHex "profile.solver_refund_pk_script")
  let payoutPkScript ← orThrow payoutPkScript
  let lockup ← orThrow (receiveVtxoScript L solverPubkey refundLocktime serverPubkey paymentHash
    claimDelay emulatorPubkey solverRefundPkScript payoutPubkey payoutPkScript)
  let address := L.arkAddress hrp serverPubkey lockup.pkScript
  verifyLockupAddress quote address
  let claimKey ← orThrow (hexField (some claimPubkey))
  let claimKey ← orThrow (toXOnly claimKey "solver L1 claim key")
  let htlc ← onchainHtlcScript L paymentHash claimKey refundPubkey htlcLocktime l1Network
  match quote.profile "htlc_address" with
  | some (.string quoted) => refuseIf (htlc.address ≠ quoted) addressMismatch
  | _ => .error addressMismatch
  return ⟨address, lockup, htlc, minConfirmations⟩

structure OnchainReceiveResult where
  quote : RfqQuote
  address : String
  fundAmount : Option Value
  expectedAmount : Option Value
  lockup : Lockup
  htlc : DerivedHtlc

def requestOnchainReceive (trader : Trader) (transport : RfqTransport) (amount : Number)
    (amountSide : AmountSide) (refundPubkey : Bytes) : Except Refusal OnchainReceiveResult := do
  let claimPacket ← orThrow trader.claimPacket
  let quote ← transport (onchainReceiveRequest trader.rfqId trader.paymentHash trader.address
    trader.pubkey refundPubkey claimPacket amountSide amount)
  assertQuotedAmount quote amountSide amount
  let serverPubkey ← orThrow trader.signerPubkey
  let emulatorPubkey ← orThrow trader.emulatorPubkey
  let claimDelay ← orThrow (unilateralClaimDelay trader.unilateralExitDelay)
  let derived ← deriveOnchainReceive L quote trader.paymentHash trader.pubkey
    trader.addressPkScript refundPubkey serverPubkey emulatorPubkey claimDelay trader.hrp
    (l1NetworkFromArk trader.network)
  assertFundable quote none trader.now
    (some ⟨derived.htlc.refundLocktime, derived.minConfirmations, .receive⟩)
  trader.registerLockup derived.lockup derived.address
  return ⟨quote, derived.address, quote.from_amount, quote.to_amount, derived.lockup, derived.htlc⟩

variable {L} {trader : Trader} {transport : RfqTransport}

theorem compileTree_ok {params : TreeParams} {lockup : Lockup}
    (h : compileTree L params = .ok lockup) :
    toBigInt (some params.refundLocktime) = .ok lockup.options.refundLocktime := by
  simp only [compileTree, bind_ok, pure_ok] at h
  obtain ⟨hash, -, refundLocktime, hlocktime, -, -, pkScript, -, rfl⟩ := h
  exact hlocktime

theorem requestLightningSend_ok {invoice : InvoiceFacts} {r : SendResult}
    (h : requestLightningSend L trader transport invoice = .ok r) :
    transport (lightningSendRequest trader.rfqId invoice.raw trader.address trader.pubkey) =
        .ok r.quote ∧ r.fundAmount = r.quote.from_amount ∧
      strictlyEquals r.quote.to_amount invoice.amountSats = true ∧
      lessThan r.quote.from_amount r.quote.to_amount = .ok false ∧
      (∃ v, r.quote.refund_locktime = some v ∧
        toBigInt (some v) = .ok r.lockup.options.refundLocktime) ∧
      assertFundable r.quote (some invoice.expiresAt) trader.now none = .ok () := by
  simp only [requestLightningSend, bind_ok, pure_ok, orThrow_ok, defined_ok, refuseIf_ok,
    exists_const, Bool.not_eq_false, Bool.not_eq_true] at h
  obtain ⟨quote, hquote, refundLocktime, hrefund, receiverHex, -, hto, below, hbelow, hspread,
    server, -, key, -, solver, -, delay, -, emulator, -, receiver, -, refundScript, -, lockup,
    hlockup, -, -, ⟨⟩, hfundable, -, -, rfl⟩ := h
  subst hspread
  exact ⟨hquote, rfl, hto, hbelow, ⟨refundLocktime, hrefund, compileTree_ok hlockup⟩, hfundable⟩

theorem onchainHtlcScript_ok {paymentHash : String} {claimKey refundKey : Bytes}
    {refundLocktime : Value} {network : OnchainNetwork} {htlc : DerivedHtlc}
    (h : onchainHtlcScript L paymentHash claimKey refundKey refundLocktime network = .ok htlc) :
    some refundLocktime = seconds htlc.refundLocktime := by
  rw [onchainHtlcScript, bind_ok] at h
  obtain ⟨-, -, h⟩ := h
  split at h
  · cases h
  · rename_i locktime hlocktime
    simp only [bind_ok, pure_ok, orThrow_ok] at h
    obtain ⟨-, -, -, -, hash, -, output, -, rfl⟩ := h
    exact asInteger_eq_some hlocktime

theorem requestOnchainSend_ok {amount : Number} {amountSide : AmountSide} {payoutPubkey : Bytes}
    {r : OnchainSendResult}
    (h : requestOnchainSend L trader transport amount amountSide payoutPubkey = .ok r) :
    transport (onchainSendRequest trader.rfqId trader.paymentHash payoutPubkey trader.address
        trader.pubkey amountSide amount) = .ok r.quote ∧ r.fundAmount = r.quote.from_amount ∧
      r.quote.profile "htlc_locktime" = seconds r.htlc.refundLocktime ∧
      r.quote.profile "min_confirmations" = some r.minConfirmations ∧
      toBigInt ((r.quote.refund_locktime.filter (!·.isNull)).or
        (r.quote.profile "refund_locktime")) = .ok r.lockup.options.refundLocktime ∧
      assertFundable r.quote none trader.now
        (some ⟨r.htlc.refundLocktime, r.minConfirmations, .send⟩) = .ok () := by
  simp only [requestOnchainSend, bind_ok, pure_ok, orThrow_ok] at h
  obtain ⟨quote, hquote, server, -, emulator, -, delay, -, derived, hderived, ⟨⟩, hfundable, -,
    -, rfl⟩ := h
  simp only [deriveOnchainSend, bind_ok, orThrow_ok, defined_ok] at hderived
  obtain ⟨refundLocktime, hrefund, htlcPubkey, -, htlcLocktime, hhtlc, minConfirmations, hmin,
    receiverHex, -, key, -, solver, -, receiver, -, refundScript, -, lockup, hlockup, -, -, key', -,
    refundKey, -, htlc, hscript, hderived⟩ := hderived
  split at hderived
  · simp only [bind_ok, pure_ok] at hderived
    obtain ⟨-, -, rfl⟩ := hderived
    refine ⟨hquote, rfl, hhtlc.trans (onchainHtlcScript_ok hscript), hmin, ?_, hfundable⟩
    rw [hrefund]
    exact compileTree_ok hlockup
  · cases hderived

theorem requestLightningReceive_ok {amount : Number} {amountSide : AmountSide}
    {decodeInvoice : Value → Except String InvoiceFacts} {maxPayAmount : Option Number}
    {r : LightningReceiveResult}
    (h : requestLightningReceive L trader transport amount amountSide decodeInvoice maxPayAmount =
      .ok r) :
    (∃ claimPacket, transport (lightningReceiveRequest trader.rfqId trader.paymentHash
        trader.address trader.pubkey claimPacket amountSide amount) = .ok r.quote) ∧
      r.payAmount = r.quote.from_amount ∧ r.expectedAmount = r.quote.to_amount ∧
      assertQuotedAmount r.quote amountSide amount = .ok () ∧
      verifyReceiveInvoice (decodeInvoice r.invoice) trader.paymentHash r.quote =
        .ok r.invoiceExpiresAt ∧
      assertReceivable r.quote r.invoiceExpiresAt trader.now maxPayAmount = .ok () := by
  simp only [requestLightningReceive, bind_ok, pure_ok, orThrow_ok] at h
  obtain ⟨claimPacket, -, quote, hquote, ⟨⟩, hamount, server, -, emulator, -, delay, -, derived,
    -, payDeadline, hinvoice, ⟨⟩, hreceivable, -, -, rfl⟩ := h
  exact ⟨⟨claimPacket, hquote⟩, rfl, rfl, hamount, hinvoice, hreceivable⟩

theorem requestOnchainReceive_ok {amount : Number} {amountSide : AmountSide} {refundPubkey : Bytes}
    {r : OnchainReceiveResult}
    (h : requestOnchainReceive L trader transport amount amountSide refundPubkey = .ok r) :
    (∃ claimPacket, transport (onchainReceiveRequest trader.rfqId trader.paymentHash trader.address
        trader.pubkey refundPubkey claimPacket amountSide amount) = .ok r.quote) ∧
      r.fundAmount = r.quote.from_amount ∧ r.expectedAmount = r.quote.to_amount ∧
      assertQuotedAmount r.quote amountSide amount = .ok () := by
  simp only [requestOnchainReceive, bind_ok, pure_ok, orThrow_ok] at h
  obtain ⟨claimPacket, -, quote, hquote, ⟨⟩, hamount, server, -, emulator, -, delay, -, derived,
    -, -, -, -, -, rfl⟩ := h
  exact ⟨⟨claimPacket, hquote⟩, rfl, rfl, hamount⟩

end ArkadeSdk.Rfq
