import ArkadeSdk.Script.VhtlcContract

/-! The builder that both versions of the lockup share, with the preimage condition left open. -/

namespace ArkadeSdk.VHTLC

open WireFormat JsNumber BtcScript ScriptCoder

variable {Tree : Type} (L : ProgramLibraries Tree)

def preimageConditionScript (preimageHash : Bytes) : Except Message Bytes :=
  ScriptCoder.encode L.OP [.op "HASH160", .data preimageHash, .op "EQUAL"]

structure BaseScript (Tree : Type) where
  options : Options
  claimScript : Bytes
  refundScript : Bytes
  vtxoScript : Tree

def BaseScript.new (preimageCondition : Bytes → Except Message Bytes) (options : Options) :
    Except Message (BaseScript Tree) := do
  validateOptions options
  let conditionScript ← preimageCondition options.preimageHash
  let claim ← ConditionMultisigTapscript.encode L.toLibraries
    ⟨⟨[options.receiver, options.server], none⟩, conditionScript⟩
  let refund ← MultisigTapscript.encode L.toLibraries
    ⟨[options.sender, options.receiver, options.server], none⟩
  let refundWithoutReceiver ← CLTVMultisigTapscript.encode L.toLibraries
    ⟨⟨[options.sender, options.server], none⟩, options.refundLocktime⟩
  let unilateralClaim ← ConditionCSVMultisigTapscript.encode L.toLibraries
    ⟨⟨⟨[options.receiver], none⟩, options.unilateralClaimDelay⟩, conditionScript⟩
  let unilateralRefund ← CSVMultisigTapscript.encode L.toLibraries
    ⟨⟨[options.sender, options.receiver], none⟩, options.unilateralRefundDelay⟩
  let unilateralRefundWithoutReceiver ← CSVMultisigTapscript.encode L.toLibraries
    ⟨⟨[options.sender], none⟩, options.unilateralRefundWithoutReceiverDelay⟩
  let nonInteractiveClaim ← claimLeaf L options conditionScript
  let nonInteractiveRefund ← refundLeaf L options
  let vtxoScript ← L.vtxoScript ([claim.script, refund.script, refundWithoutReceiver.script,
    unilateralClaim.script, unilateralRefund.script, unilateralRefundWithoutReceiver.script] ++
    nonInteractiveClaim ++ nonInteractiveRefund)
  return ⟨options, claim.script, refund.script, vtxoScript⟩

/-- `VHTLC.Script`. -/
def Script.new (options : Options) : Except Message (BaseScript Tree) :=
  BaseScript.new L (preimageConditionScript L) options

theorem BaseScript.new_options {preimageCondition : Bytes → Except Message Bytes}
    {options : Options} {script : BaseScript Tree}
    (h : BaseScript.new L preimageCondition options = .ok script) : script.options = options := by
  simp only [BaseScript.new, bind_ok, pure_ok] at h
  obtain ⟨_, -, _, -, _, -, _, -, _, -, _, -, _, -, _, -, _, -, _, -, _, -, rfl⟩ := h
  rfl

theorem Script.new_options {options : Options} {script : BaseScript Tree}
    (h : Script.new L options = .ok script) : script.options = options :=
  BaseScript.new_options L h

theorem ScriptV2.new_eq (options : Options) :
    ScriptV2.new L options = (fun script ↦ ⟨script.options, script.vtxoScript⟩) <$>
      BaseScript.new L (preimageConditionScriptV2 L) options := by
  simp only [ScriptV2.new, BaseScript.new, map_bind, map_pure]

end ArkadeSdk.VHTLC
