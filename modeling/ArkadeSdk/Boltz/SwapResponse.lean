import ArkadeSdk.Lib.Json

/-! What the type guards of the provider client let through: any JSON value goes in, and a typed
response comes out or the call throws. -/

namespace ArkadeSdk.SwapCreation

open JsNumber
open Json (Value)

/-- `typeof v === "number"`. -/
def isNumber : Option Value → Option Number
  | some (.number a) => some a
  | _ => none

/-- `typeof v === "string"`. -/
def isString : Option Value → Option String
  | some (.string s) => some s
  | _ => none

/-- `typeof v === "boolean"`. -/
def isBoolean : Option Value → Option Bool
  | some (.bool b) => some b
  | _ => none

/-- `v === undefined || guard(v)`. -/
def orUndefined {α : Type} (guard : Option Value → Option α) : Option Value → Option (Option α)
  | none => some none
  | v => (guard v).map some

structure TimeoutBlockHeights where
  refund : Number
  unilateralClaim : Number
  unilateralRefund : Number
  unilateralRefundWithoutReceiver : Number
  deriving DecidableEq

def isTimeoutBlockHeights : Option Value → Option TimeoutBlockHeights
  | none => none
  | some data => do
    let refund ← isNumber (data.field "refund")
    let unilateralClaim ← isNumber (data.field "unilateralClaim")
    let unilateralRefund ← isNumber (data.field "unilateralRefund")
    let unilateralRefundWithoutReceiver ← isNumber (data.field "unilateralRefundWithoutReceiver")
    return { refund, unilateralClaim, unilateralRefund, unilateralRefundWithoutReceiver }

structure CreateSubmarineSwapResponse where
  id : String
  expectedAmount : Number
  address : Option String
  claimPublicKey : Option String
  acceptZeroConf : Option Bool
  timeoutBlockHeight : Option Number
  timeoutBlockHeights : Option TimeoutBlockHeights
  deriving DecidableEq

def isCreateSubmarineSwapResponse (data : Value) : Option CreateSubmarineSwapResponse := do
  let id ← isString (data.field "id")
  let expectedAmount ← isNumber (data.field "expectedAmount")
  let address ← orUndefined isString (data.field "address")
  let claimPublicKey ← orUndefined isString (data.field "claimPublicKey")
  let acceptZeroConf ← orUndefined isBoolean (data.field "acceptZeroConf")
  let timeoutBlockHeight ← orUndefined isNumber (data.field "timeoutBlockHeight")
  let timeoutBlockHeights ← orUndefined isTimeoutBlockHeights (data.field "timeoutBlockHeights")
  return { id, expectedAmount, address, claimPublicKey, acceptZeroConf, timeoutBlockHeight,
           timeoutBlockHeights }

structure CreateReverseSwapResponse where
  id : String
  invoice : String
  onchainAmount : Option Number
  lockupAddress : Option String
  refundPublicKey : Option String
  timeoutBlockHeight : Option Number
  timeoutBlockHeights : Option TimeoutBlockHeights
  deriving DecidableEq

def isCreateReverseSwapResponse (data : Value) : Option CreateReverseSwapResponse := do
  let id ← isString (data.field "id")
  let invoice ← isString (data.field "invoice")
  let onchainAmount ← orUndefined isNumber (data.field "onchainAmount")
  let lockupAddress ← orUndefined isString (data.field "lockupAddress")
  let refundPublicKey ← orUndefined isString (data.field "refundPublicKey")
  let timeoutBlockHeight ← orUndefined isNumber (data.field "timeoutBlockHeight")
  let timeoutBlockHeights ← orUndefined isTimeoutBlockHeights (data.field "timeoutBlockHeights")
  return { id, invoice, onchainAmount, lockupAddress, refundPublicKey, timeoutBlockHeight,
           timeoutBlockHeights }

structure SerializedLeaf where
  version : Number
  output : String
  deriving DecidableEq

structure SerializedTree where
  claimLeaf : SerializedLeaf
  refundLeaf : SerializedLeaf
  deriving DecidableEq

def isSerializedLeaf : Option Value → Option SerializedLeaf
  | none => none
  | some leaf => do
    let version ← isNumber (leaf.field "version")
    let output ← isString (leaf.field "output")
    return { version, output }

def isSwapTree : Option Value → Option SerializedTree
  | none => none
  | some data => do
    let claimLeaf ← isSerializedLeaf (data.field "claimLeaf")
    let refundLeaf ← isSerializedLeaf (data.field "refundLeaf")
    return { claimLeaf, refundLeaf }

structure ChainSwapDetailsResponse where
  amount : Number
  lockupAddress : String
  timeoutBlockHeight : Number
  serverPublicKey : String
  swapTree : Option SerializedTree
  timeouts : Option TimeoutBlockHeights
  bip21 : Option String
  deriving DecidableEq

def isChainSwapDetailsResponse : Option Value → Option ChainSwapDetailsResponse
  | none => none
  | some data => do
    let amount ← isNumber (data.field "amount")
    let lockupAddress ← isString (data.field "lockupAddress")
    let serverPublicKey ← isString (data.field "serverPublicKey")
    let timeoutBlockHeight ← isNumber (data.field "timeoutBlockHeight")
    let swapTree ← orUndefined isSwapTree (data.field "swapTree")
    let timeouts ← orUndefined isTimeoutBlockHeights (data.field "timeouts")
    let bip21 ← orUndefined isString (data.field "bip21")
    return { amount, lockupAddress, timeoutBlockHeight, serverPublicKey, swapTree, timeouts, bip21 }

structure CreateChainSwapResponse where
  id : String
  claimDetails : ChainSwapDetailsResponse
  lockupDetails : ChainSwapDetailsResponse
  deriving DecidableEq

def isCreateChainSwapResponse (data : Value) : Option CreateChainSwapResponse := do
  let id ← isString (data.field "id")
  let claimDetails ← isChainSwapDetailsResponse (data.field "claimDetails")
  let lockupDetails ← isChainSwapDetailsResponse (data.field "lockupDetails")
  return { id, claimDetails, lockupDetails }

end ArkadeSdk.SwapCreation
