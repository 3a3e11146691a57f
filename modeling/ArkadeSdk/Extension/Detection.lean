import ArkadeSdk.Extension.Envelope

/-! Which scripts are taken for an extension, and which can be read as one. -/

namespace ArkadeSdk.Extension

open WireFormat JsNumber BtcScript ScriptCoder

inductive TxError
  | notFound
  | invalid (reason : Message)
  deriving DecidableEq

/-- The scripts of a transaction's outputs. -/
def fromTx (OP : OpTable) (hex : HexCodec.Codec) : List (Option Bytes) → Except TxError Extension
  | [] => .error .notFound
  | none :: outputs => fromTx OP hex outputs
  | some script :: outputs =>
    if isExtension OP script then (fromBytes OP hex script).mapError .invalid
    else fromTx OP hex outputs

variable (OP : OpTable) (hex : HexCodec.Codec)

def Parses (script : Bytes) : Prop := ∃ extension, fromBytes OP hex script = .ok extension

/-- The element after the opcode is a push that is long enough for the magic. -/
def startsWithPush (script : Bytes) : Bool :=
  match decode OP script with
  | .ok (_ :: .data data :: _) => ARKADE_MAGIC.length ≤ data.length
  | _ => false

structure Detects (outputs : List (Option Bytes)) : Prop where
  isExtension : ∀ script, some script ∈ outputs → Parses OP hex script →
    isExtension OP script = true
  not_skipped : ∀ before script after, outputs = before ++ some script :: after →
    (∀ s, some s ∈ before → Extension.isExtension OP s = false) → Parses OP hex script →
    ∃ extension, fromBytes OP hex script = .ok extension ∧ fromTx OP hex outputs = .ok extension
  not_found : fromTx OP hex outputs = .error .notFound →
    ∀ script, some script ∈ outputs → ¬Parses OP hex script

variable {OP hex}

theorem fromBytes_ok {script : Bytes} {extension : Extension}
    (h : fromBytes OP hex script = .ok extension) :
    ∃ items, decode OP script = .ok (.op "RETURN" :: items) ∧
      (dataPushes items).flatten.take ARKADE_MAGIC.length = ARKADE_MAGIC := by
  obtain ⟨-, h⟩ := then_ok.mp h
  split at h
  · rename_i items hdecode
    obtain ⟨-, h⟩ := then_ok.mp h
    obtain ⟨hmagic, -⟩ := then_ok.mp h
    exact ⟨items, hdecode, not_not.mp (rejectIf_ok.mp hmagic)⟩
  · cases h

/-- The magic of all pushes together is that of the first one when it is long enough. -/
theorem isExtension_eq {script : Bytes} (h : Parses OP hex script) :
    isExtension OP script = startsWithPush OP script := by
  obtain ⟨extension, h⟩ := h
  obtain ⟨items, hdecode, hmagic⟩ := fromBytes_ok h
  unfold isExtension startsWithPush
  rw [hdecode]
  cases items with
  | nil => rfl
  | cons item items =>
    cases item with
    | op name => rfl
    | num n => rfl
    | data data =>
      dsimp only
      by_cases hlen : ARKADE_MAGIC.length ≤ data.length
      · have hfirst : data.take ARKADE_MAGIC.length = ARKADE_MAGIC := by
          rw [dataPushes, List.flatten_cons, List.take_append_of_le_length hlen] at hmagic
          exact hmagic
        simp [hfirst]
      · simp [hlen]

theorem fromTx_append {before after : List (Option Bytes)} {script : Bytes}
    (hbefore : ∀ s, some s ∈ before → isExtension OP s = false) :
    fromTx OP hex (before ++ some script :: after) = fromTx OP hex (some script :: after) := by
  induction before with
  | nil => rfl
  | cons output before ih =>
    have hrest := ih fun s hs ↦ hbefore s (List.mem_cons_of_mem output hs)
    cases output with
    | none => exact hrest
    | some s => rw [List.cons_append, fromTx, hbefore s List.mem_cons_self, ← hrest]; rfl

theorem fromTx_notFound {outputs : List (Option Bytes)}
    (h : fromTx OP hex outputs = .error .notFound) {script : Bytes} (hmem : some script ∈ outputs) :
    isExtension OP script = false := by
  induction outputs with
  | nil => cases hmem
  | cons output outputs ih =>
    cases output with
    | none =>
      rcases List.mem_cons.mp hmem with heq | hmem
      · cases heq
      · exact ih h hmem
    | some s =>
      rw [fromTx] at h
      split at h
      · cases hbytes : fromBytes OP hex s <;> rw [hbytes] at h <;> cases h
      · rename_i hs
        rcases List.mem_cons.mp hmem with heq | hmem
        · obtain rfl := Option.some.inj heq
          simpa using hs
        · exact ih h hmem

/-- A transaction is read as the parser would read it when no parseable output splits its magic. -/
theorem detects_iff (OP : OpTable) (hex : HexCodec.Codec) (outputs : List (Option Bytes)) :
    Detects OP hex outputs ↔
      ∀ script, some script ∈ outputs → Parses OP hex script → startsWithPush OP script = true := by
  constructor
  · intro h script hmem hparses
    rw [← isExtension_eq hparses]
    exact h.isExtension script hmem hparses
  · intro h
    have hisExtension : ∀ script, some script ∈ outputs → Parses OP hex script →
        isExtension OP script = true := by
      intro script hmem hparses
      rw [isExtension_eq hparses]
      exact h script hmem hparses
    refine ⟨hisExtension, ?_, ?_⟩
    · rintro before script after rfl hbefore hparses
      obtain ⟨extension, hbytes⟩ := hparses
      refine ⟨extension, hbytes, ?_⟩
      rw [fromTx_append hbefore, fromTx,
        if_pos (hisExtension script (by simp) ⟨extension, hbytes⟩), hbytes]
      rfl
    · intro hnone script hmem hparses
      have hfound := hisExtension script hmem hparses
      rw [fromTx_notFound hnone hmem] at hfound
      cases hfound

/-- `OP_RETURN`, a push of the first byte of the magic, and one of the rest and a record. -/
def splitMagic : Bytes := [0x6a, 0x01, 0x41, 0x05, 0x52, 0x4b, 0x09, 0x01, 0xff]

/-- `OP_RETURN`, a small number, and a push of the magic and a record. -/
def afterNumber : Bytes := [0x6a, 0x51, 0x06, 0x41, 0x52, 0x4b, 0x09, 0x01, 0xff]

def record : List ExtensionPacket := [.unknown (.ofNat 9) [0xff]]

theorem splitMagic_not_detected :
    (∃ extension, fromBytes standardOps HexCodec.base16 splitMagic = .ok extension) ∧
      isExtension standardOps splitMagic = false ∧
      fromTx standardOps HexCodec.base16 [some splitMagic] = .error .notFound ∧
    (∃ extension, fromBytes standardOps HexCodec.base16 afterNumber = .ok extension) ∧
      isExtension standardOps afterNumber = false ∧
      fromTx standardOps HexCodec.base16 [some afterNumber] = .error .notFound := by
  refine ⟨⟨⟨record⟩, ?_⟩, ?_, ?_, ⟨⟨record⟩, ?_⟩, ?_, ?_⟩
  · decide +kernel
  · decide +kernel
  · decide +kernel
  · decide +kernel
  · decide +kernel
  · decide +kernel

end ArkadeSdk.Extension
