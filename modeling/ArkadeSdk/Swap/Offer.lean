import ArkadeSdk.Arkade.Program
import ArkadeSdk.Extension.Asset

namespace ArkadeSdk

open WireFormat JsNumber BtcScript ScriptCoder JsRecord

/-- A full-fill offer: exactly one of the two asset fields is set. -/
structure Offer where
  swapPkScript : Bytes
  wantAmount : ℤ
  wantAsset : Option Asset.AssetId
  offerAsset : Option Asset.AssetId
  makerPkScript : Bytes
  makerPublicKey : Bytes
  emulatorPubkey : Bytes

namespace Offer

/-- `{ "signers": ["$server"] }` with the covenant, and the path that pays the deposit back. -/
def programFunctions (asm : List AsmToken) : Record ArkadeFunction := Record.ofEntries
  [("fulfill", ⟨none, ⟨[.string "$server"], none, none, none, none⟩, some ⟨asm, none⟩⟩),
    ("cancel", ⟨none, ⟨[.string "$user", .string "$server"], none, none, none, none⟩, none⟩)]

def literal (z : ℤ) : AsmToken := .number (.ofInt z)

/-- Where both covenants end: output 0 pays the maker. -/
def payAsm : List AsmToken :=
  [literal 0, .string "INSPECTOUTPUTSCRIPTPUBKEY", literal 1, .string "EQUALVERIFY",
    .string "$makerWP", .string "EQUAL"]

def wantBtcAsm : List AsmToken :=
  [literal 0, .string "INSPECTOUTPUTVALUE", .string "$wantAmount",
    .string "GREATERTHANOREQUAL", .string "VERIFY"] ++ payAsm

def wantAssetAsm : List AsmToken :=
  [literal 0, .string "$wantAssetTxid", .string "$wantAssetGroupIndex",
    .string "INSPECTOUTASSETLOOKUP", .string "VERIFY", .string "$wantAmount",
    .string "GREATERTHANOREQUAL", .string "VERIFY"] ++ payAsm

/-- `swap-want-btc.program.json`. -/
def wantBtc : Program where
  version := .ofInt 0
  name := some "banco-asset-to-btc"
  params := some [.typed "makerWP" .pubkey, .typed "wantAmount" .int, .typed "server" .pubkey,
    .typed "user" .pubkey]
  functions := programFunctions wantBtcAsm

/-- `swap-want-asset.program.json`. -/
def wantAssetProgram : Program where
  version := .ofInt 0
  name := some "banco-btc-to-asset"
  params := some [.typed "makerWP" .pubkey, .typed "wantAmount" .int, .typed "wantAssetTxid" .hash,
    .typed "wantAssetGroupIndex" .int, .typed "server" .pubkey, .typed "user" .pubkey]
  functions := programFunctions wantAssetAsm

structure SwapProgramBinding where
  program : Program
  args : Args
  keys : ProgramKeys

/-- The asset goes into the covenant in internal byte order. -/
def assetArgs (asset : Option Asset.AssetId) : List (String × ArkadeParamValue) :=
  match asset with
  | none => []
  | some asset => [("wantAssetTxid", .bytes asset.txid.reverse),
      ("wantAssetGroupIndex", .number asset.groupIndex)]

def argEntries (offer : Offer) (serverPubkey : Bytes) : List (String × ArkadeParamValue) :=
  [("makerWP", ArkadeParamValue.bytes (offer.makerPkScript.drop 2)),
    ("wantAmount", .bigint offer.wantAmount), ("server", .bytes serverPubkey), ("user", .bytes offer.makerPublicKey)] ++
      assetArgs offer.wantAsset

def args (offer : Offer) (serverPubkey : Bytes) : Args :=
  Record.ofEntries (offer.argEntries serverPubkey)

def swapProgramBinding (offer : Offer) (serverPubkey : Bytes) :
    Except Message SwapProgramBinding := do
  rejectIf (offer.makerPkScript.length ≠ 34)
    (message "makerPkScript is not a 34-byte taproot scriptPubKey")
  return ⟨if offer.wantAsset.isSome then wantAssetProgram else wantBtc, offer.args serverPubkey,
    ⟨serverPubkey, some offer.makerPublicKey, some offer.emulatorPubkey⟩⟩

def offerVtxoScript {Tree : Type} (L : ProgramLibraries Tree) (offer : Offer)
    (serverPubkey : Bytes) : Except Message (ArkadeProgramScript Tree) := do
  let binding ← swapProgramBinding offer serverPubkey
  ArkadeProgramScript.new L binding.program binding.args binding.keys

end Offer

end ArkadeSdk
