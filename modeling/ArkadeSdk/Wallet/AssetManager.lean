import ArkadeSdk.Extension.Envelope
import ArkadeSdk.Lib.Tally
import ArkadeSdk.Wallet.Vtxo

/-! Issuing, reissuing and burning assets: the coins that are spent and the packet that says what
becomes of the assets they hold. -/

namespace ArkadeSdk.AssetManager

open WireFormat JsNumber Asset Vtxo

/-- What the wallet and the libraries answer. -/
structure Surroundings where
  hex : HexCodec.Codec
  encodeText : String → Bytes
  numberToText : Number → String
  virtualCoins : List VirtualCoin
  dustAmount : ℤ
  pkScript : Bytes
  getAssetDetails : String → Except Message (Option String)

inductive MetadataValue
  | text (value : String)
  | number (value : Number)
  | bytes (value : Bytes)
  | other
  deriving DecidableEq

structure TxOut where
  script : Bytes
  amount : ℤ
  deriving DecidableEq

/-- What `buildAndSubmitOffchainTx` is called with. -/
structure Submission where
  inputs : List VirtualCoin
  outputs : List TxOut
  deriving DecidableEq

variable (env : Surroundings)

def valueBytes : MetadataValue → Except Message Bytes
  | .text value => .ok (env.encodeText value)
  | .number value => .ok (env.encodeText (env.numberToText value))
  | .bytes value => .ok value
  | .other => .error (message "Invalid metadata value type")

def castMetadata (metadata : List (String × MetadataValue)) : Except Message (List Metadata) :=
  metadata.mapM fun (key, value) ↦ do
    let valueBytes ← valueBytes env value
    Metadata.create (env.encodeText key) valueBytes

/-- `selectedCoinsToAssetInputs`: the assets of the inputs that hold any, by index. -/
def selectedCoinsToAssetInputs (selectedCoins : List VirtualCoin) :
    List (ℕ × List Vtxo.Asset) :=
  (selectedCoins.zipIdx.filter fun (coin, _) ↦ coin.assetList ≠ []).map
    fun (coin, inputIndex) ↦ (inputIndex, coin.assetList)

def changeInputs (assetInputs : List (ℕ × List Vtxo.Asset)) (assetId : String) :
    Except Message (List AssetInput) :=
  (assetInputs.flatMap fun (inputIndex, assets) ↦
    (assets.filter (·.assetId = assetId)).map fun asset ↦ (inputIndex, asset.amount)).mapM
    fun (inputIndex, amount) ↦ AssetInput.create (.ofNat inputIndex) (.bigint amount)

def assetGroup (assetInputs : List (ℕ × List Vtxo.Asset))
    (outputs : ℤ → Except Message (List AssetOutput)) (assetId : String) (amount : ℤ) :
    Except Message AssetGroup := do
  let inputs ← changeInputs assetInputs assetId
  let id ← AssetId.fromString env.hex assetId
  let outputs ← outputs amount
  AssetGroup.create (some id) none inputs outputs []

/-- `[AssetOutput.create(0, amount)]` -/
def wholeOutput (amount : ℤ) : Except Message (List AssetOutput) := do
  let output ← AssetOutput.create (.ofNat 0) (.bigint amount)
  return [output]

/-- `amount > 0n ? [AssetOutput.create(0, amount)] : []` -/
def remainingOutput (amount : ℤ) : Except Message (List AssetOutput) :=
  if amount > 0 then wholeOutput amount else .ok []

def assetsOf (coins : List VirtualCoin) : List (String × ℤ) :=
  coins.flatMap fun coin ↦ coin.assetList.map fun asset ↦ (asset.assetId, asset.amount)

def submission (inputs : List VirtualCoin) (totalBtcSelected : ℤ) (groups : List AssetGroup) :
    Except Message Submission := do
  let packet ← Packet.create env.hex groups
  let extension ← Extension.create [.asset packet]
  let script ← extension.serialize
  return ⟨inputs, [⟨env.pkScript, totalBtcSelected⟩, ⟨script, 0⟩]⟩

structure IssuanceParams where
  amount : ℤ
  controlAssetId : Option String
  metadata : List (String × MetadataValue)

def controlAssetRef (params : IssuanceParams) : Except Message (Option AssetRef) :=
  match params.controlAssetId.filter (· ≠ "") with
  | some controlAssetId =>
    (AssetId.fromString env.hex controlAssetId).map fun id ↦ some (AssetRef.fromId id)
  | none => .ok none

def issue (params : IssuanceParams) : Except Message Submission := do
  rejectIf (params.amount ≤ 0)
    [.text "Issue amount must be greater than 0, got ", .value (.ofInt params.amount)]
  let metadata ← castMetadata env params.metadata
  let controlAssetRef ← controlAssetRef env params
  let coinSelection ← selectVirtualCoins env.virtualCoins env.dustAmount
  let assetChanges := (assetsOf coinSelection.inputs).foldl Tally.add []
  let issuedAssetOutput ← AssetOutput.create (.ofNat 0) (.bigint params.amount)
  let issuedAssetGroup ← AssetGroup.create none controlAssetRef [] [issuedAssetOutput] metadata
  let assetInputs := selectedCoinsToAssetInputs coinSelection.inputs
  let groups ← assetChanges.mapM fun (assetId, amount) ↦
    assetGroup env assetInputs wholeOutput assetId amount
  submission env coinSelection.inputs (totalValue coinSelection.inputs)
    (issuedAssetGroup :: groups)

/-- The coins added to a selection that is worth less than the dust threshold. -/
def additionalCoins (selectedCoins : List VirtualCoin) : Except Message (List VirtualCoin) :=
  let totalBtcSelected := totalValue selectedCoins
  if totalBtcSelected < env.dustAmount then do
    let remainingCoins := env.virtualCoins.filter fun c ↦
      !selectedCoins.any fun sc ↦ sc.txid = c.txid && sc.vout = c.vout
    let additional ← selectVirtualCoins remainingCoins (env.dustAmount - totalBtcSelected)
    return additional.inputs
  else .ok []

structure ReissuanceParams where
  assetId : String
  amount : ℤ

/-- The asset to reissue is counted apart from the others. -/
def countReissued (assetId : String) (counted : ℤ × JsMap.Entries String ℤ) (a : String × ℤ) :
    ℤ × JsMap.Entries String ℤ :=
  if a.1 = assetId then (counted.1 + a.2, counted.2) else (counted.1, Tally.add counted.2 a)

def reissue (params : ReissuanceParams) : Except Message Submission := do
  rejectIf (params.amount ≤ 0)
    [.text "Reissuance amount must be greater than 0, got ", .value (.ofInt params.amount)]
  match (← env.getAssetDetails params.assetId).filter (· ≠ "") with
  | none => throw (message ("Asset " ++ params.assetId ++ " is not reissuable"))
  | some controlAssetId =>
    let controlCoins ← selectCoinsWithAsset env.virtualCoins controlAssetId 1
    let counted := (assetsOf controlCoins).foldl (countReissued params.assetId) (0, [])
    let additional ← additionalCoins env controlCoins
    let (assetToReissueAmount, assetChanges) :=
      (assetsOf additional).foldl (countReissued params.assetId) counted
    let selectedCoins := controlCoins ++ additional
    let assetInputs := selectedCoinsToAssetInputs selectedCoins
    let reissueAssetGroup ← assetGroup env assetInputs wholeOutput params.assetId
      (assetToReissueAmount + params.amount)
    let groups ← assetChanges.mapM fun (assetId, amount) ↦
      assetGroup env assetInputs wholeOutput assetId amount
    submission env selectedCoins (totalValue controlCoins + totalValue additional)
      (reissueAssetGroup :: groups)

structure BurnParams where
  assetId : String
  amount : ℤ

def burn (params : BurnParams) : Except Message Submission := do
  rejectIf (params.amount ≤ 0)
    [.text "Burn amount must be greater than 0, got ", .value (.ofInt params.amount)]
  let assetCoins ← selectCoinsWithAsset env.virtualCoins params.assetId params.amount
  let held := (assetsOf assetCoins).foldl Tally.add []
  let assetChanges := JsMap.set params.assetId
    ((JsMap.get held params.assetId).getD 0 - params.amount) held
  let additional ← additionalCoins env assetCoins
  let assetChanges := (assetsOf additional).foldl Tally.add assetChanges
  let selectedCoins := assetCoins ++ additional
  let assetInputs := selectedCoinsToAssetInputs selectedCoins
  let groups ← assetChanges.mapM fun (assetId, amount) ↦
    assetGroup env assetInputs remainingOutput assetId amount
  submission env selectedCoins (totalValue assetCoins + totalValue additional) groups

end ArkadeSdk.AssetManager
