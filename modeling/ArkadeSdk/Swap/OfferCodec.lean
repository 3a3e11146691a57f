import ArkadeSdk.Swap.Offer

/-! The TLV payload of an offer packet. -/

namespace ArkadeSdk.Offer

open WireFormat JsNumber Asset

inductive FieldName
  | swapPkScript
  | wantAmount
  | wantAsset
  | makerPkScript
  | makerPublicKey
  | emulatorPubkey
  | offerAsset
  deriving DecidableEq, Repr

namespace FieldName

def tag : FieldName → ℕ
  | .swapPkScript => 0x01
  | .wantAmount => 0x02
  | .wantAsset => 0x03
  | .makerPkScript => 0x05
  | .makerPublicKey => 0x07
  | .emulatorPubkey => 0x08
  | .offerAsset => 0x0b

/-- The exact length, for all but the asset ids. -/
def width : FieldName → Option ℕ
  | .swapPkScript | .makerPkScript => some 34
  | .wantAmount => some 8
  | .makerPublicKey | .emulatorPubkey => some 32
  | .wantAsset | .offerAsset => none

def text : FieldName → String
  | .swapPkScript => "swapPkScript"
  | .wantAmount => "wantAmount"
  | .wantAsset => "wantAsset"
  | .makerPkScript => "makerPkScript"
  | .makerPublicKey => "makerPublicKey"
  | .emulatorPubkey => "emulatorPubkey"
  | .offerAsset => "offerAsset"

/-- `NAMES[type]`. -/
def ofTag (type : ℕ) : Option FieldName :=
  [swapPkScript, wantAmount, wantAsset, makerPkScript, makerPublicKey, emulatorPubkey,
    offerAsset].find? (·.tag = type)

end FieldName

/-- The records read so far. -/
abbrev Fields := List (FieldName × Bytes)

def OFFER_PACKET_TYPE : ℕ := 0x03

def readRecord (fields : Fields) (data : Bytes) : Except Message (Fields × Bytes) :=
  match data with
  | type :: hi :: lo :: rest => do
    let length := 256 * hi.toNat + lo.toNat
    rejectIf (rest.length < length) (message
      ("truncated TLV value for type 0x" ++ String.ofList (Nat.toDigits 16 type.toNat)))
    match FieldName.ofTag type.toNat with
    | none => throw (message
        ("unknown TLV type: 0x" ++ String.ofList (Nat.toDigits 16 type.toNat)))
    | some name =>
      rejectIf ((fields.lookup name).isSome) (message ("duplicate TLV record: " ++ name.text))
      return ((name, rest.take length) :: fields, rest.drop length)
  | _ => .error (message "truncated TLV header")

/-- The loop. A record takes three bytes at least, so that there are no more turns than bytes. -/
def readRecords : ℕ → Fields → Bytes → Except Message Fields
  | _, fields, [] => .ok fields
  | 0, _, _ => .error (message "truncated TLV header")
  | turns + 1, fields, data => do
    let (fields, rest) ← readRecord fields data
    readRecords turns fields rest

def need (fields : Fields) (name : FieldName) : Except Message Bytes :=
  match fields.lookup name with
  | some v =>
    if name.width.all (v.length = ·) then .ok v
    else .error (message ("missing/invalid " ++ name.text))
  | none => .error (message ("missing/invalid " ++ name.text))

/-- `getBigUint64(0, false)`. -/
def bigUint64 (b : Bytes) : ℕ := b.foldl (fun n x ↦ 256 * n + x.toNat) 0

def optionalAsset (value : Option Bytes) : Except Message (Option AssetId) :=
  match value with
  | none => .ok none
  | some b => some <$> AssetId.fromBytes b

def ofFields (fields : Fields) : Except Message Offer := do
  rejectIf (fields.lookup .wantAsset = some []) (message "missing/invalid wantAsset")
  rejectIf (fields.lookup .offerAsset = some []) (message "missing/invalid offerAsset")
  let amount ← need fields .wantAmount
  rejectIf ((fields.lookup .wantAsset).isSome = (fields.lookup .offerAsset).isSome)
    (message "offer must carry exactly one of wantAsset or offerAsset")
  let swapPkScript ← need fields .swapPkScript
  let wantAsset ← optionalAsset (fields.lookup .wantAsset)
  let offerAsset ← optionalAsset (fields.lookup .offerAsset)
  let makerPkScript ← need fields .makerPkScript
  let makerPublicKey ← need fields .makerPublicKey
  let emulatorPubkey ← need fields .emulatorPubkey
  return ⟨swapPkScript, bigUint64 amount, wantAsset, offerAsset, makerPkScript, makerPublicKey,
    emulatorPubkey⟩

/-- Parse the records into an offer. -/
def decodeOffer (data : Bytes) : Except Message Offer := do
  let fields ← readRecords data.length [] data
  ofFields fields

end ArkadeSdk.Offer
