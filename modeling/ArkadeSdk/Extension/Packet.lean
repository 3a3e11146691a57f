import ArkadeSdk.Extension.Asset

namespace ArkadeSdk.Asset

open WireFormat JsNumber Buffer

structure Packet where
  groups : List AssetGroup
  deriving DecidableEq

namespace Packet

def PACKET_TYPE : ℕ := 0

/-- The upper bound is the only one: neither a negative index nor one that is not
an integer is refused. -/
def validateControlAsset (count : ℕ) : Option AssetRef → Except Message Unit
  | some (.byGroup groupIndex) =>
    rejectIf ((Number.ofNat count).le groupIndex)
      [.text "invalid control asset group index, ", .value groupIndex, .text " out of range [0, ",
        .value (.ofNat (count - 1)), .text "]"]
  | _ => .ok ()

/-- The ids seen after one more group, by their hexadecimal text. -/
def validateAssetId (hex : HexCodec.Codec) (seenAssetIds : List String) :
    Option AssetId → Except Message (List String)
  | none => .ok seenAssetIds
  | some assetId => do
    let key := hex.encode assetId.serializeTo
    rejectIf (key ∈ seenAssetIds) (message ("duplicate asset group for asset " ++ key))
    return key :: seenAssetIds

/-- The loop of `Packet.validate`, over the ids seen so far. -/
def validateFrom (hex : HexCodec.Codec) (count : ℕ) (seenAssetIds : List String) :
    List AssetGroup → Except Message Unit
  | [] => .ok ()
  | group :: groups => do
    let seen ← validateAssetId hex seenAssetIds group.assetId
    validateControlAsset count group.controlAsset
    validateFrom hex count seen groups

def validate (hex : HexCodec.Codec) (self : Packet) : Except Message Unit := do
  rejectIf (self.groups.length = 0) (message "missing assets")
  validateFrom hex self.groups.length [] self.groups

def create (hex : HexCodec.Codec) (groups : List AssetGroup) : Except Message Packet := do
  let p : Packet := ⟨groups⟩
  p.validate hex
  return p

/-- A packet with no groups serializes to nothing, not to a zero count. -/
def serialize (self : Packet) : Except Message Bytes :=
  if self.groups.length = 0 then .ok []
  else do
    let groups ← serializeAll AssetGroup.serializeTo self.groups
    return leb128 self.groups.length ++ groups

def fromReader (hex : HexCodec.Codec) : Reader Packet := do
  let count ← readVarUint
  let groups ← readMany AssetGroup.fromReader count
  let left ← remaining
  rejectIf (left > 0)
    [.text "invalid packet length, left ", .value (.ofNat left), .text " unknown bytes to read"]
  let packet : Packet := ⟨groups⟩
  packet.validate hex
  return packet

def fromBytes (hex : HexCodec.Codec) (buf : Bytes) : Except Message Packet :=
  Prod.fst <$> (fromReader hex).run buf

end Packet

end ArkadeSdk.Asset
