import ArkadeSdk.Arkade.ProgramRederive
import ArkadeSdk.Contracts.ForfeitExitPaths
import ArkadeSdk.Contracts.LockupPaths
import ArkadeSdk.Contracts.ProgramPaths

/-! Every built-in handler offers the paths that its row lets the wallet sign, once their locks have
matured, and goes on offering them. -/

namespace ArkadeSdk.Paths

open WireFormat JsNumber HexCodec
open Contracts (Contract)

inductive HandlerType
  | default
  | delegate
  | boarding
  | vhtlc
  | vhtlcV2
  | arkade
  deriving DecidableEq, Repr

def ScriptOf (Tree : Type) : HandlerType → Type
  | .default | .boarding => DefaultVtxo.Script
  | .delegate => DelegateVtxo.Script
  | .vhtlc | .vhtlcV2 => LockupScript Tree
  | .arkade => ArkadeProgramScript Tree

variable (expandKey : String → Except Message Bytes) (J : Json.Text) {Tree : Type}
  (L : ProgramLibraries Tree)

def handlerOf : (type : HandlerType) → PathHandler (ScriptOf Tree type)
  | .default => DefaultContractHandler expandKey L.toLibraries
  | .delegate => DelegateContractHandler expandKey L.toLibraries
  | .boarding => BoardingContractHandler expandKey L.toLibraries
  | .vhtlc => VHTLCContractHandler expandKey L
  | .vhtlcV2 => VHTLCV2ContractHandler expandKey L
  | .arkade => ArkadeContractHandler expandKey J L

/-- The leaves that the wallet can sign, and what it shows to their conditions. -/
def mineOf : (type : HandlerType) → ScriptOf Tree type → Contract → PathContext → TapscriptParams →
    PathSelection → Prop
  | .default, _, contract, _, params, path => DefaultMine expandKey contract params path
  | .boarding, _, contract, _, params, path => DefaultMine expandKey contract params path
  | .delegate, _, contract, _, params, path => DelegateMine expandKey contract params path
  | .vhtlc, _, contract, context, params, path => ∃ role own server,
      LockupMine expandKey (VHTLC.preimageConditionScript L) contract context params path role own
        server
  | .vhtlcV2, _, contract, context, params, path => ∃ role own server,
      LockupMine expandKey (VHTLC.preimageConditionScriptV2 L) contract context params path role own
        server
  | .arkade, script, _, context, params, path => ∃ fn witness,
      ProgramMine expandKey script context params path fn witness

def recordsDelay (contract : Contract) : HandlerType → Prop
  | .default | .delegate | .boarding => (exitSequence contract).isSome
  | .vhtlc | .vhtlcV2 | .arkade => True

theorem pathSelection_right (type : HandlerType) (contract : Contract) {script : ScriptOf Tree type}
    (h : (handlerOf expandKey J L type).createScript contract.params = .ok script) :
    PathsRight L.toLibraries (handlerOf expandKey J L type) script contract
      (mineOf expandKey L type script contract) (recordsDelay contract type) := by
  cases type with
  | default => exact DefaultContractHandler.paths expandKey h
  | delegate => exact DelegateContractHandler.paths expandKey h
  | boarding => exact BoardingContractHandler.paths expandKey h
  | vhtlc => exact VHTLCContractHandler.paths expandKey L h
  | vhtlcV2 => exact VHTLCV2ContractHandler.paths expandKey L h
  | arkade => exact ArkadeContractHandler.paths expandKey J L h

def readKey (descriptor : String) : Except Message Bytes :=
  VHTLC.decodeHex (some (String.ofList ((descriptor.toList.drop 3).dropLast)))

def descriptorOf (key : Bytes) : String := "tr(" ++ (base16.encode key ++ ")")

theorem readKey_descriptorOf (key : Bytes) : readKey (descriptorOf key) = .ok key := by
  have hchars : (descriptorOf key).toList = 't' :: 'r' :: '(' :: ((base16.encode key).toList ++ [')']) := by
    simp [descriptorOf, String.toList_append]
  simp only [readKey, hchars, List.drop_succ_cons, List.drop_zero, List.dropLast_concat,
    String.ofList_toList, VHTLC.decodeHex_encode]

theorem isDescriptor_descriptorOf {key : Bytes} (h : key ≠ []) :
    isDescriptor (descriptorOf key) = true := by
  have hlength : 0 < key.length := List.length_pos_iff.mpr h
  have hhex := base16.length_encode key
  have hpre : Json.startsWith "tr(" (descriptorOf key) = true := Json.startsWith_append _ _
  have hchars : (descriptorOf key).toList = ("tr(".toList ++ (base16.encode key).toList) ++ [')'] := by
    simp [descriptorOf, String.toList_append]
  have hlast : (descriptorOf key).toList.getLast? = some ')' := by
    rw [hchars, List.getLast?_concat]
  have hlong : 4 < (descriptorOf key).toList.length := by
    have hopening : "tr(".toList.length = 3 := rfl
    simp only [hchars, List.length_append, hhex, hopening, List.length_singleton]
    omega
  simp [isDescriptor, hpre, hlast, hlong]

theorem extractPubKeyBytes_descriptorOf {key : Bytes} (h : key ≠ []) :
    extractPubKeyBytes readKey (some (descriptorOf key)) = .ok key := by
  have hdescriptor := isDescriptor_descriptorOf h
  have hgiven : givenText (some (descriptorOf key)) = some (descriptorOf key) := by
    have hne : descriptorOf key ≠ "" := by
      intro he
      rw [he] at hdescriptor
      cases hdescriptor
    simp [givenText, Option.filter, hne]
  unfold extractPubKeyBytes normalizeToDescriptor extractPubKey
  simp only [hgiven, hdescriptor, if_true]
  refine bind_ok.mpr ⟨_, rfl, bind_ok.mpr ⟨base16.encode key, ?_, VHTLC.decodeHex_encode key⟩⟩
  rw [if_pos hdescriptor, readKey_descriptorOf]
  rfl

/-- A wallet's own row, whose exit opens 512 seconds after the coin was confirmed. -/
def ownRow : Contract where
  label := none
  type := "default"
  params := [("pubKey", descriptorOf (List.replicate 32 7)),
    ("serverPubKey", descriptorOf (List.replicate 32 9)), ("csvTimelock", "4194305")]
  script := ""
  address := ""
  state := .active
  watch := none
  createdAt := 0

def ownScript : DefaultVtxo.Script where
  options := ⟨List.replicate 32 7, List.replicate 32 9, ⟨512, .seconds⟩⟩
  forfeitScript := (0x20 :: List.replicate 32 7 ++ [0xad]) ++ (0x20 :: List.replicate 32 9 ++ [0xac])
  exitScript := [0x03, 0x01, 0x00, 0x40, 0xb2, 0x75, 0x20] ++ List.replicate 32 7 ++ [0xac]

theorem ownRow_delay : exitSequence ownRow = some (.ofNat 4194305) := by decide +kernel

theorem ownRow_builds :
    DefaultContractHandler.createScript readKey standardLibraries ownRow.params = .ok ownScript := by
  refine bind_ok.mpr ⟨ownScript.options, ?_, rfl⟩
  refine bind_ok.mpr ⟨_, extractPubKeyBytes_descriptorOf (List.cons_ne_nil _ _), ?_⟩
  refine bind_ok.mpr ⟨_, extractPubKeyBytes_descriptorOf (List.cons_ne_nil _ _), ?_⟩
  exact bind_ok.mpr ⟨⟨512, .seconds⟩, by decide +kernel, rfl⟩

/-- A swap's lockup, refunded by its sender at height 800000 or two days after it was confirmed. -/
def lockupRow : Contract where
  label := none
  type := "vhtlc"
  params := [("sender", base16.encode (List.replicate 32 7)),
    ("receiver", base16.encode (List.replicate 32 8)),
    ("server", base16.encode (List.replicate 32 9)),
    ("hash", base16.encode (List.replicate 20 5)), ("refundLocktime", "800000"),
    ("claimDelay", "144"), ("refundDelay", "144"), ("refundNoReceiverDelay", "288")]
  script := ""
  address := ""
  state := .active
  watch := none
  createdAt := 0

theorem lockupRow_builds : ∃ script,
    (handlerOf readKey lockText leafLibraries .vhtlc).createScript lockupRow.params =
      .ok script := isOk_iff.mp (by decide +kernel)

theorem sampleRows_paths :
    (recordsDelay ownRow .default ∧
      PathsRight standardLibraries (handlerOf readKey lockText leafLibraries .default) ownScript
        ownRow (mineOf readKey leafLibraries .default ownScript ownRow)
        (recordsDelay ownRow .default)) ∧
    ∃ script, PathsRight standardLibraries (handlerOf readKey lockText leafLibraries .vhtlc) script
      lockupRow (mineOf readKey leafLibraries .vhtlc script lockupRow) True := by
  obtain ⟨script, hscript⟩ := lockupRow_builds
  refine ⟨⟨by rw [recordsDelay, ownRow_delay]; rfl, ?_⟩, script, ?_⟩
  · exact pathSelection_right readKey lockText leafLibraries .default ownRow ownRow_builds
  · exact pathSelection_right readKey lockText leafLibraries .vhtlc lockupRow hscript

/-- A wallet with some other key, with the server at hand. -/
def foreignContext : PathContext where
  collaborative := true
  currentTime := 0
  blockHeight := none
  walletDescriptor := none
  walletPubKey := some (base16.encode (List.replicate 32 5))
  role := none
  chainTime := none
  vtxo := none

/-- A wallet that knows its own clock, and nothing of the chain. -/
def clockContext : PathContext where
  collaborative := false
  currentTime := 2000000
  blockHeight := none
  walletDescriptor := none
  walletPubKey := none
  role := none
  chainTime := none
  vtxo := some ⟨none, some 1000⟩

theorem ownRow_unread_delay (context : PathContext) (h : context.vtxo = none) :
    isCsvSpendable standardLibraries context (exitSequence ownRow) = .ok false := by
  rw [ownRow_delay, isCsvSpendable, h]

/-- A leaf is offered that the wallet's key does not sign, and a delay in seconds is over by the
wallet's own clock. -/
theorem offered_to_stranger_by_clock :
    ((handlerOf readKey lockText leafLibraries .default).getSpendablePaths ownScript ownRow
        foreignContext = .ok [⟨ownScript.forfeitScript, none, none⟩] ∧
      LeafOf standardLibraries (.multisig ⟨[List.replicate 32 7, List.replicate 32 9], none⟩)
        ownScript.forfeitScript ∧
      foreignContext.walletPubKey ≠ some (base16.encode (List.replicate 32 7)) ∧
      foreignContext.walletPubKey ≠ some (base16.encode (List.replicate 32 9))) ∧
    ((handlerOf readKey lockText leafLibraries .default).getSpendablePaths ownScript ownRow
        clockContext = .ok [⟨ownScript.exitScript, none, some (.ofNat 4194305)⟩] ∧
      LeafOf standardLibraries (.csvMultisig ⟨⟨[List.replicate 32 7], none⟩, ⟨512, .seconds⟩⟩)
        ownScript.exitScript ∧
      clockContext.chainTime = none ∧ clockContext.blockHeight = none) := by
  refine ⟨⟨?_, ⟨_, rfl, rfl⟩, ?_, ?_⟩, ?_, ⟨_, rfl, rfl⟩, rfl, rfl⟩
  · show forfeitExitSpendablePaths standardLibraries _ _ _ = _
    rw [forfeitExitSpendablePaths, ownRow_unread_delay foreignContext rfl]
    rfl
  · intro h
    exact absurd (base16.encode_injective (Option.some.inj h)) (by decide)
  · intro h
    exact absurd (base16.encode_injective (Option.some.inj h)) (by decide)
  · show forfeitExitSpendablePaths standardLibraries _ _ _ = _
    rw [forfeitExitSpendablePaths, ownRow_delay]
    decide +kernel

end ArkadeSdk.Paths
