import ArkadeSdk.Extension.Buffer
import ArkadeSdk.Lib.HexCodec

namespace ArkadeSdk.Asset

open WireFormat JsNumber Buffer

def TX_HASH_SIZE : ℕ := 32
def ASSET_ID_SIZE : ℕ := 34

def isZeroBytes (bytes : Bytes) : Bool := bytes.all (· == 0)

structure AssetId where
  txid : Bytes
  groupIndex : Number
  deriving DecidableEq

namespace AssetId

def validate (self : AssetId) : Except Message Unit := do
  rejectIf (isZeroBytes self.txid) (message "empty txid")
  rejectIf (!self.groupIndex.inRange 0xffff)
    [.text "invalid group index: ", .value self.groupIndex, .text ", must be in range [0, 65535]"]

def create (hex : HexCodec.Codec) (txid : String) (groupIndex : Number) : Except Message AssetId := do
  rejectIf (txid = "") (message "missing txid")
  match hex.decode txid with
  | none => throw (message "invalid txid format, must be hex")
  | some buf =>
    rejectIf (buf.length ≠ TX_HASH_SIZE)
      [.text "invalid txid length: got ", .value (.ofNat buf.length),
        .text " bytes, want ", .value (.ofNat TX_HASH_SIZE), .text " bytes"]
    let assetId : AssetId := ⟨buf, groupIndex⟩
    assetId.validate
    return assetId

def serializeTo (self : AssetId) : Bytes := self.txid ++ writeUint16LE self.groupIndex

def fromReader : Reader AssetId := do
  let left ← remaining
  rejectIf (left < ASSET_ID_SIZE)
    [.text "invalid asset id length: got ", .value (.ofNat left),
      .text ", want ", .value (.ofNat ASSET_ID_SIZE)]
  let txid ← readSlice TX_HASH_SIZE
  let index ← readUint16LE
  let assetId : AssetId := ⟨txid, .ofNat index⟩
  assetId.validate
  return assetId

def fromBytes (buf : Bytes) : Except Message AssetId := do
  rejectIf (buf.length = 0) (message "missing asset id")
  rejectIf (buf.length ≠ ASSET_ID_SIZE)
    [.text "invalid asset id length: got ", .value (.ofNat buf.length),
      .text " bytes, want ", .value (.ofNat ASSET_ID_SIZE), .text " bytes"]
  let (assetId, _) ← fromReader.run buf
  return assetId

def fromString (hex : HexCodec.Codec) (s : String) : Except Message AssetId :=
  match hex.decode s with
  | none => .error (message "invalid asset id format, must be hex")
  | some buf => fromBytes buf

end AssetId

inductive AssetRef
  | byID (assetId : AssetId)
  | byGroup (groupIndex : Number)
  deriving DecidableEq

namespace AssetRef

def fromId (assetId : AssetId) : AssetRef := .byID assetId

/-- Unchecked: the only bound on the index is the one `Packet.validate` puts on it. -/
def fromGroupIndex (groupIndex : Number) : AssetRef := .byGroup groupIndex

def serializeTo : AssetRef → Bytes
  | .byID assetId => writeByte 1 ++ assetId.serializeTo
  | .byGroup groupIndex => writeByte 2 ++ writeUint16LE groupIndex

def fromReader : Reader AssetRef := do
  let type ← readByte
  if type = 1 then
    let assetId ← AssetId.fromReader
    return .byID assetId
  else if type = 2 then
    let left ← remaining
    rejectIf (left < 2) (message "invalid asset ref length")
    let groupIndex ← readUint16LE
    return .byGroup (.ofNat groupIndex)
  else if type = 0 then throw (message "asset ref type unspecified")
  else throw [.text "asset ref type unknown ", .value (.ofNat type.toNat)]

end AssetRef

structure Metadata where
  key : Bytes
  value : Bytes
  deriving DecidableEq

namespace Metadata

def validate (self : Metadata) : Except Message Unit := do
  rejectIf (self.key.length = 0) (message "missing metadata key")
  rejectIf (self.value.length = 0) (message "missing metadata value")

def create (key value : Bytes) : Except Message Metadata := do
  let md : Metadata := ⟨key, value⟩
  md.validate
  return md

def serializeTo (self : Metadata) : Bytes := writeVarSlice self.key ++ writeVarSlice self.value

def fromReader : Reader Metadata := do
  let key ← orThrow readVarSlice "invalid metadata length"
  let value ← orThrow readVarSlice "invalid metadata length"
  let md : Metadata := ⟨key, value⟩
  md.validate
  return md

end Metadata

namespace MetadataList

def serializeTo (items : List Metadata) : Bytes :=
  leb128 items.length ++ items.flatMap Metadata.serializeTo

/-- A count no array can hold runs out of input long before it is reached. -/
def fromReader : Reader (List Metadata) := do
  let count ← readVarUint
  readMany Metadata.fromReader count

end MetadataList

inductive AssetInput
  | local (vin : Number) (amount : ℤ)
  | intent (txid : Bytes) (vin : Number) (amount : ℤ)
  deriving DecidableEq

namespace AssetInput

def type : AssetInput → ℕ
  | .local .. => 1
  | .intent .. => 2

def vin : AssetInput → Number
  | .local vin _ | .intent _ vin _ => vin

def amount : AssetInput → ℤ
  | .local _ amount | .intent _ _ amount => amount

/-- Neither arm looks at `vin` or `amount`. -/
def validate : AssetInput → Except Message Unit
  | .local .. => .ok ()
  | .intent txid _ _ => rejectIf (isZeroBytes txid) (message "missing input intent txid")

def create (vin : Number) (amount : Numeric) : Except Message AssetInput := do
  let input : AssetInput := .local vin (← amount.toBigInt)
  input.validate
  return input

def createIntent (hex : HexCodec.Codec) (txid : String) (vin : Number) (amount : Numeric) :
    Except Message AssetInput := do
  rejectIf (txid = "") (message "missing input intent txid")
  match hex.decode txid with
  | none => throw (message "invalid input intent txid format, must be hex")
  | some buf =>
    rejectIf (buf.length ≠ TX_HASH_SIZE) (message "invalid input intent txid length")
    let input : AssetInput := .intent buf vin (← amount.toBigInt)
    input.validate
    return input

def serializeTo : AssetInput → Except Message Bytes
  | .local vin amount => do
    let amount ← writeVarUint amount
    return writeByte 1 ++ (writeUint16LE vin ++ amount)
  | .intent txid vin amount => do
    let amount ← writeVarUint amount
    return writeByte 2 ++ (txid ++ (writeUint16LE vin ++ amount))

def fromReader : Reader AssetInput := do
  let type ← readByte
  if type = 1 then
    let vin ← readUint16LE
    let amount ← readVarUint
    let input : AssetInput := .local (.ofNat vin) amount
    input.validate
    return input
  else if type = 2 then
    let left ← remaining
    rejectIf (left < TX_HASH_SIZE) (message "invalid input intent txid length")
    let txid ← readSlice TX_HASH_SIZE
    let vin ← readUint16LE
    let amount ← readVarUint
    let input : AssetInput := .intent txid (.ofNat vin) amount
    input.validate
    return input
  else if type = 0 then throw (message "asset input type unspecified")
  else throw [.text "asset input type ", .value (.ofNat type.toNat), .text " unknown"]

end AssetInput

namespace AssetInputs

/-- The loop of `AssetInputs.validate`: the vins seen so far, and the type of the
list once its first element has set it. -/
def validateFrom (seen : List Number) (listType : ℕ) : List AssetInput → Except Message Unit
  | [] => .ok ()
  | input :: inputs => do
    input.validate
    rejectIf (listType ≠ 0 ∧ listType ≠ input.type)
      (message "all inputs must be of the same type")
    match input with
    | .local vin _ =>
      rejectIf (vin ∈ seen) [.text "duplicated input vin ", .value vin]
      validateFrom (vin :: seen) input.type inputs
    | .intent .. => validateFrom seen input.type inputs

def validate (inputs : List AssetInput) : Except Message Unit := validateFrom [] 0 inputs

def fromReader : Reader (List AssetInput) := do
  let count ← readVarUint
  let inputs ← readMany AssetInput.fromReader count
  validate inputs
  return inputs

end AssetInputs

structure AssetOutput where
  vout : Number
  amount : ℤ
  deriving DecidableEq

namespace AssetOutput

def validate (self : AssetOutput) : Except Message Unit := do
  rejectIf (!self.vout.inRange 0xffff)
    (message "asset output vout must be an integer in range [0, 65535]")
  rejectIf (self.amount ≤ 0) (message "asset output amount must be greater than 0")

def create (vout : Number) (amount : Numeric) : Except Message AssetOutput := do
  let output : AssetOutput := ⟨vout, ← amount.toBigInt⟩
  output.validate
  return output

def serializeTo (self : AssetOutput) : Except Message Bytes := do
  let amount ← writeVarUint self.amount
  return writeByte 1 ++ (writeUint16LE self.vout ++ amount)

def fromReader : Reader AssetOutput := do
  let left ← remaining
  rejectIf (left < 2) (message "invalid asset output vout length")
  let type ← readByte
  rejectIf (type = 0) (message "output type unspecified")
  rejectIf (type ≠ 1) (message "unknown asset output type")
  let vout ← orThrow readUint16LE "invalid asset output vout length"
  let amount ← readVarUint
  return ⟨.ofNat vout, amount⟩

end AssetOutput

namespace AssetOutputs

def validateFrom (seen : List Number) : List AssetOutput → Except Message Unit
  | [] => .ok ()
  | output :: outputs => do
    output.validate
    rejectIf (output.vout ∈ seen) [.text "duplicated output vout ", .value output.vout]
    validateFrom (output.vout :: seen) outputs

def validate (outputs : List AssetOutput) : Except Message Unit := validateFrom [] outputs

def fromReader : Reader (List AssetOutput) := do
  let count ← readVarUint
  if count = 0 then return []
  let outputs ← readMany AssetOutput.fromReader count
  validate outputs
  return outputs

end AssetOutputs

structure AssetGroup where
  assetId : Option AssetId
  controlAsset : Option AssetRef
  inputs : List AssetInput
  outputs : List AssetOutput
  metadata : List Metadata
  deriving DecidableEq

def MASK_ASSET_ID : UInt8 := 0x01
def MASK_CONTROL_ASSET : UInt8 := 0x02
def MASK_METADATA : UInt8 := 0x04

/-- The serializer's loop `for (const x of xs) x.serializeTo(writer)`. -/
def serializeAll {α : Type} (serializeTo : α → Except Message Bytes) : List α → Except Message Bytes
  | [] => .ok []
  | a :: as => do
    let head ← serializeTo a
    let tail ← serializeAll serializeTo as
    return head ++ tail

namespace AssetGroup

def isIssuance (self : AssetGroup) : Bool := self.assetId.isNone

/-- The two lists are only asked whether they are both empty. -/
def validate (self : AssetGroup) : Except Message Unit := do
  rejectIf (self.inputs.length = 0 ∧ self.outputs.length = 0) (message "empty asset group")
  if self.isIssuance then
    rejectIf (self.inputs.length ≠ 0) (message "issuance must have no inputs")
  else
    rejectIf self.controlAsset.isSome (message "only issuance can have a control asset")

def create (assetId : Option AssetId) (controlAsset : Option AssetRef) (inputs : List AssetInput)
    (outputs : List AssetOutput) (metadata : List Metadata) : Except Message AssetGroup := do
  let ag : AssetGroup := ⟨assetId, controlAsset, inputs, outputs, metadata⟩
  ag.validate
  return ag

def presence (self : AssetGroup) : UInt8 :=
  (if self.assetId.isSome then MASK_ASSET_ID else 0) |||
  (if self.controlAsset.isSome then MASK_CONTROL_ASSET else 0) |||
  (if self.metadata.length > 0 then MASK_METADATA else 0)

def serializeTo (self : AssetGroup) : Except Message Bytes := do
  let assetId := match self.assetId with
    | some assetId => assetId.serializeTo
    | none => []
  let controlAsset := match self.controlAsset with
    | some controlAsset => controlAsset.serializeTo
    | none => []
  let metadata := if self.metadata.length > 0 then MetadataList.serializeTo self.metadata else []
  let inputs ← serializeAll AssetInput.serializeTo self.inputs
  let outputs ← serializeAll AssetOutput.serializeTo self.outputs
  return [self.presence] ++ (assetId ++ (controlAsset ++ (metadata ++
    ((leb128 self.inputs.length ++ inputs) ++ (leb128 self.outputs.length ++ outputs)))))

/-- A section is read only when its presence bit is set. -/
def readSection {α : Type} (presence mask : UInt8) (r : Reader α) (absent : α) : Reader α :=
  if presence &&& mask ≠ 0 then r else pure absent

def fromReader : Reader AssetGroup := do
  let presence ← readByte
  let assetId ← readSection presence MASK_ASSET_ID (some <$> AssetId.fromReader) none
  let controlAsset ← readSection presence MASK_CONTROL_ASSET (some <$> AssetRef.fromReader) none
  let metadata ← readSection presence MASK_METADATA MetadataList.fromReader []
  let inputs ← AssetInputs.fromReader
  let outputs ← AssetOutputs.fromReader
  let ag : AssetGroup := ⟨assetId, controlAsset, inputs, outputs, metadata⟩
  ag.validate
  return ag

end AssetGroup

end ArkadeSdk.Asset
