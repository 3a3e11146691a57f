import ArkadeSdk.Arkade.ArkadeScript
import ArkadeSdk.Script.Tapscript

namespace ArkadeSdk.VHTLC

open WireFormat JsNumber BtcScript ScriptCoder

/-- The opt-in quoted bounds. -/
structure Strict where
  amount : ℤ
  assetAmount : Option ℤ
  deriving DecidableEq

structure NonInteractiveClaim where
  receiverPkScript : Bytes
  emulatorPubkey : Bytes
  strict : Option Strict
  deriving DecidableEq

structure NonInteractiveRefund where
  senderPkScript : Bytes
  emulatorPubkey : Bytes
  deriving DecidableEq

/-- An asset by its genesis transaction in canonical byte order and its group there. -/
structure Asset where
  txid : Bytes
  groupIndex : Number
  deriving DecidableEq

structure Options where
  sender : Bytes
  receiver : Bytes
  server : Bytes
  preimageHash : Bytes
  refundLocktime : ℤ
  unilateralClaimDelay : RelativeTimelock
  unilateralRefundDelay : RelativeTimelock
  unilateralRefundWithoutReceiverDelay : RelativeTimelock
  nonInteractiveClaim : Option NonInteractiveClaim
  nonInteractiveRefund : Option NonInteractiveRefund
  asset : Option Asset

/-- `OP_1 <32-byte program>`, 34 bytes. -/
def isP2trPkScript (pkScript : Bytes) : Bool :=
  pkScript.length = 34 && pkScript[0]? = some 0x51 && pkScript[1]? = some 0x20

/-- The part of `validateOptions` about the quoted bounds. -/
def validateStrict (asset : Option Asset) (strict : Strict) : Except Message Unit := do
  rejectIf (strict.amount ≤ 0)
    [.text "strict claim amount must be positive, got ", .value (.ofInt strict.amount)]
  rejectIf (asset.isSome = true ∧ strict.assetAmount = none)
    (message ("strict claim needs assetAmount when the contract is denominated in an asset: " ++
      "bounding only the sats would leave the asset amount unenforced"))
  rejectIf (asset.isNone = true ∧ strict.assetAmount ≠ none)
    (message "strict claim assetAmount has no effect without asset")
  match strict.assetAmount with
  | none => return ()
  | some assetAmount =>
    rejectIf (assetAmount ≤ 0)
      [.text "strict claim assetAmount must be positive, got ", .value (.ofInt assetAmount)]

def validateEmulator (emulatorPubkey pkScript : Bytes) : Except Message Unit := do
  rejectIf (emulatorPubkey.length ≠ 32 ∧ emulatorPubkey.length ≠ 33)
    (message "Invalid public key length (emulator)")
  rejectIf (!isP2trPkScript pkScript) (message "Invalid P2TR script")

def validateDelay (text : String) (delay : RelativeTimelock) : Except Message Unit := do
  rejectIf (delay.value ≤ 0) (message text)
  rejectIf (delay.type = .seconds ∧ delay.value % 512 ≠ 0)
    (message "seconds timelock must be multiple of 512")
  rejectIf (delay.type = .seconds ∧ delay.value < 512)
    (message "seconds timelock must be greater or equal to 512")

def validateOptions (options : Options) : Except Message Unit := do
  rejectIf (options.preimageHash.length ≠ 20) (message "preimage hash must be 20 bytes")
  rejectIf (options.asset.isSome = true ∧ options.nonInteractiveClaim = none ∧
      options.nonInteractiveRefund = none)
    (message "asset has no effect without nonInteractiveClaim or nonInteractiveRefund")
  match options.nonInteractiveClaim.bind NonInteractiveClaim.strict with
  | none => pure ()
  | some strict => validateStrict options.asset strict
  match options.nonInteractiveClaim with
  | none => pure ()
  | some claim => validateEmulator claim.emulatorPubkey claim.receiverPkScript
  match options.nonInteractiveRefund with
  | none => pure ()
  | some refund => validateEmulator refund.emulatorPubkey refund.senderPkScript
  rejectIf (options.receiver.length ≠ 32) (message "Invalid public key length (receiver)")
  rejectIf (options.sender.length ≠ 32) (message "Invalid public key length (sender)")
  rejectIf (options.server.length ≠ 32) (message "Invalid public key length (server)")
  rejectIf (options.refundLocktime ≤ 0) (message "refund locktime must be greater than 0")
  validateDelay "unilateral claim delay must greater than 0" options.unilateralClaimDelay
  validateDelay "unilateral refund delay must greater than 0" options.unilateralRefundDelay
  validateDelay "unilateral refund without receiver delay must greater than 0"
    options.unilateralRefundWithoutReceiverDelay

variable (OP : OpTable)

/-- `DUP <quoted> GREATERTHANOREQUAL VERIFY`, only when there is a quote. -/
def quotedBound : Option ℤ → List Item
  | none => []
  | some quoted => [.op "DUP", .num quoted, .op "GREATERTHANOREQUAL", .op "VERIFY"]

def satClause (destinationPkScript : Bytes) (quotedSats : Option ℤ) : List Item :=
  [Item.op "PUSHCURRENTINPUTINDEX", .op "DUP", .op "INSPECTOUTPUTSCRIPTPUBKEY", .num 1,
    .op "EQUALVERIFY", .data (destinationPkScript.drop 2), .op "EQUALVERIFY",
    .op "INSPECTOUTPUTVALUE"] ++
  (quotedBound quotedSats ++
    [Item.op "PUSHCURRENTINPUTINDEX", .op "INSPECTINPUTVALUE", .op "GREATERTHANOREQUAL"])

def enforcePayTo (destinationPkScript : Bytes) (quotedSats : Option ℤ) : Except Message Bytes := do
  rejectIf (!isP2trPkScript destinationPkScript) (message "invalid P2TR script")
  ArkadeScript.encode OP (satClause destinationPkScript quotedSats)

/-- The items of the asset covenant; `inspectionTxid` is in wire order. -/
def assetClause (inspectionTxid : Bytes) (groupIndex : ℤ) (quotedAsset : Option ℤ) : List Item :=
  [Item.op "PUSHCURRENTINPUTINDEX", .data inspectionTxid, .num groupIndex,
    .op "INSPECTOUTASSETLOOKUP", .op "VERIFY"] ++
  (quotedBound quotedAsset ++
    [Item.op "PUSHCURRENTINPUTINDEX", .data inspectionTxid, .num groupIndex,
      .op "INSPECTINASSETLOOKUP", .op "VERIFY", .op "GREATERTHANOREQUAL", .op "VERIFY",
      .op "PUSHCURRENTINPUTINDEX", .op "INSPECTOUTASSETCOUNT", .num 1, .op "EQUALVERIFY"])

def enforcePayToAsset (destinationPkScript : Bytes) (asset : Asset) (strict : Option Strict) :
    Except Message Bytes := do
  rejectIf (!isP2trPkScript destinationPkScript) (message "invalid P2TR script")
  rejectIf (asset.txid.length ≠ 32)
    [.text "asset txid must be 32 bytes, got ", .value (.ofNat asset.txid.length)]
  rejectIf (!asset.groupIndex.inRange 0xffff)
    [.text "asset group index must be an integer in [0, 65535], got ", .value asset.groupIndex]
  let inspectionTxid := asset.txid.reverse
  let groupIndex ← asset.groupIndex.toBigInt
  ArkadeScript.encode OP (assetClause inspectionTxid groupIndex (strict.bind Strict.assetAmount) ++
    satClause destinationPkScript (strict.map Strict.amount))

/-- Pick the covenant the contract's denomination calls for. -/
def enforcePayToMaybeAsset (destinationPkScript : Bytes) (asset : Option Asset)
    (strict : Option Strict) : Except Message Bytes :=
  match asset with
  | none => enforcePayTo OP destinationPkScript (strict.map Strict.amount)
  | some asset => enforcePayToAsset OP destinationPkScript asset strict

end ArkadeSdk.VHTLC
