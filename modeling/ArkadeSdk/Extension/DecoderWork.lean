import ArkadeSdk.Extension.BufferView
import ArkadeSdk.Extension.Envelope

/-! The work of the decoders is bounded by the input, whatever counts the input names. -/

namespace ArkadeSdk

open WireFormat JsNumber Buffer BtcScript ScriptCoder Metered

theorem consumes_varSlice : Consumes readVarSlice 1 :=
  consumes_leb128.bind_left fun length ↦ (consumes_slice length).mono (Nat.zero_le _)

theorem consumes_compactSize : Consumes readCompactSize 1 := by
  refine consumes_byte.bind_left fun first ↦ .ite (consumes_pure _) (.ite ?_ (.ite ?_ ?_))
  · exact consumes_uint16LE.mono (Nat.zero_le _)
  · exact consumes_uint32LE.mono (Nat.zero_le _)
  · exact consumes_throw _

theorem consumes_compactSlice : Consumes readCompactSlice 1 :=
  consumes_compactSize.bind_left fun length ↦ (consumes_slice length).mono (Nat.zero_le _)

theorem consumes_orThrow {α : Type} {r : Reader α} {n : ℕ} (h : Consumes r n) (text : String) :
    Consumes (orThrow r text) n :=
  fun s a rest hrun ↦ h s a rest (orThrow_ok hrun)

theorem consumes_after_check {α : Type} {x : Except Message Unit} {f : Unit → Reader α} {n : ℕ}
    (hf : Consumes (f ()) n) : Consumes (liftM x >>= f) n :=
  (consumes_check x).bind_right fun _ ↦ hf

theorem consumes_checked {α : Type} (x : Except Message Unit) (a : α) :
    Consumes (liftM x >>= fun _ ↦ pure a : Reader α) 0 :=
  consumes_after_check (consumes_pure a)

namespace Asset

theorem AssetId.consumes : Consumes AssetId.fromReader 0 := by
  refine consumes_remaining.bind_right fun left ↦ consumes_after_check ?_
  refine .bind_right ((consumes_slice _).mono (Nat.zero_le _)) fun txid ↦ ?_
  exact .bind_right (consumes_uint16LE.mono (Nat.zero_le _)) fun index ↦ consumes_checked _ _

theorem AssetRef.consumes : Consumes AssetRef.fromReader 0 := by
  refine .bind_right (consumes_byte.mono (Nat.zero_le _)) fun type ↦ .ite ?_ (.ite ?_ ?_)
  · exact AssetId.consumes.bind_left fun assetId ↦ consumes_pure _
  · refine consumes_remaining.bind_right fun left ↦ consumes_after_check ?_
    exact .bind_left (consumes_uint16LE.mono (Nat.zero_le _)) fun groupIndex ↦ consumes_pure _
  · exact .ite (consumes_throw _) (consumes_throw _)

theorem Metadata.consumes : Consumes Metadata.fromReader 1 := by
  refine (consumes_orThrow consumes_varSlice _).bind_left fun key ↦ ?_
  refine .bind_left ((consumes_orThrow consumes_varSlice _).mono (Nat.zero_le _)) fun value ↦ ?_
  exact consumes_checked _ _

theorem AssetInput.consumes : Consumes AssetInput.fromReader 1 := by
  refine consumes_byte.bind_left fun type ↦ .ite ?_ (.ite ?_ ?_)
  · refine .bind_left (consumes_uint16LE.mono (Nat.zero_le _)) fun vin ↦ ?_
    exact .bind_left (consumes_leb128.mono (Nat.zero_le _)) fun amount ↦ consumes_checked _ _
  · refine consumes_remaining.bind_right fun left ↦ consumes_after_check ?_
    refine .bind_left ((consumes_slice _).mono (Nat.zero_le _)) fun txid ↦ ?_
    refine .bind_left (consumes_uint16LE.mono (Nat.zero_le _)) fun vin ↦ ?_
    exact .bind_left (consumes_leb128.mono (Nat.zero_le _)) fun amount ↦ consumes_checked _ _
  · exact .ite (consumes_throw _) (consumes_throw _)

theorem AssetOutput.consumes : Consumes AssetOutput.fromReader 1 := by
  refine consumes_remaining.bind_right fun left ↦ consumes_after_check ?_
  refine consumes_byte.bind_left fun type ↦ consumes_after_check (consumes_after_check ?_)
  refine .bind_left ((consumes_orThrow consumes_uint16LE _).mono (Nat.zero_le _)) fun vout ↦ ?_
  exact .bind_left (consumes_leb128.mono (Nat.zero_le _)) fun amount ↦ consumes_pure _

/-- A count, then as many elements as it says. -/
def countedList {α : Type} (m : Metered α) : Metered (List α) := do
  let count ← free readVarUint
  many (element m) count

def MetadataList.metered : Metered (List Metadata) := countedList (free Metadata.fromReader)

def AssetInputs.metered : Metered (List AssetInput) := do
  let inputs ← countedList (free AssetInput.fromReader)
  free (liftM (AssetInputs.validate inputs))
  return inputs

def AssetOutputs.metered : Metered (List AssetOutput) := do
  let count ← free readVarUint
  if count = 0 then return []
  let outputs ← many (element (free AssetOutput.fromReader)) count
  free (liftM (AssetOutputs.validate outputs))
  return outputs

def meteredSection {α : Type} (presence mask : UInt8) (m : Metered α) (absent : α) : Metered α :=
  if presence &&& mask ≠ 0 then m else pure absent

def AssetGroup.metered : Metered AssetGroup := do
  let presence ← free readByte
  let assetId ← free (readSection presence MASK_ASSET_ID (some <$> AssetId.fromReader) none)
  let controlAsset ←
    free (readSection presence MASK_CONTROL_ASSET (some <$> AssetRef.fromReader) none)
  let metadata ← meteredSection presence MASK_METADATA MetadataList.metered []
  let inputs ← AssetInputs.metered
  let outputs ← AssetOutputs.metered
  let ag : AssetGroup := ⟨assetId, controlAsset, inputs, outputs, metadata⟩
  free (liftM ag.validate)
  return ag

def Packet.metered (hex : HexCodec.Codec) : Metered Packet := do
  let groups ← countedList AssetGroup.metered
  let left ← free remaining
  free (liftM (rejectIf (left > 0)
    [.text "invalid packet length, left ", .value (.ofNat left), .text " unknown bytes to read"]))
  let packet : Packet := ⟨groups⟩
  free (liftM (packet.validate hex))
  return packet

variable {hex : HexCodec.Codec}

theorem value_countedList {α : Type} (m : Metered α) : (countedList m).value = (do
    let count ← readVarUint
    readMany m.value count) := by
  simp [countedList]

theorem MetadataList.value_metered : MetadataList.metered.value = MetadataList.fromReader :=
  value_countedList _

theorem AssetInputs.value_metered : AssetInputs.metered.value = AssetInputs.fromReader := by
  simp [AssetInputs.metered, AssetInputs.fromReader, value_countedList]

theorem AssetOutputs.value_metered : AssetOutputs.metered.value = AssetOutputs.fromReader := by
  simp [AssetOutputs.metered, AssetOutputs.fromReader]

theorem value_meteredSection {α : Type} (presence mask : UInt8) (m : Metered α) (absent : α) :
    (meteredSection presence mask m absent).value =
      AssetGroup.readSection presence mask m.value absent := by
  simp only [meteredSection, AssetGroup.readSection, value_ite, value_pure]

theorem AssetGroup.value_metered : AssetGroup.metered.value = AssetGroup.fromReader := by
  simp [AssetGroup.metered, AssetGroup.fromReader, AssetInputs.value_metered,
    AssetOutputs.value_metered, MetadataList.value_metered, value_meteredSection]

theorem Packet.value_metered : (Packet.metered hex).value = Packet.fromReader hex := by
  simp [Packet.metered, Packet.fromReader, value_countedList, AssetGroup.value_metered]

theorem paid_countedList {α : Type} {m : Metered α} (h : Paid m 1) : Paid (countedList m) 1 :=
  (paid_free consumes_leb128).bind_left fun count ↦ (h.element).many count

theorem paid_checked {α : Type} (x : Except Message Unit) (a : α) :
    Paid (free (liftM x) >>= fun _ ↦ pure a) 0 :=
  (paid_free (consumes_check x)).bind_left fun _ ↦ paid_pure a

theorem MetadataList.paid : Paid MetadataList.metered 1 :=
  paid_countedList (paid_free Metadata.consumes)

theorem AssetInputs.paid : Paid AssetInputs.metered 1 :=
  (paid_countedList (paid_free AssetInput.consumes)).bind_left fun _ ↦ paid_checked _ _

theorem AssetOutputs.paid : Paid AssetOutputs.metered 1 := by
  refine (paid_free consumes_leb128).bind_left fun count ↦ .ite (paid_pure _) ?_
  refine ((paid_free AssetOutput.consumes).element.many count).bind_left fun outputs ↦ ?_
  exact paid_checked _ _

theorem paid_meteredSection {α : Type} {m : Metered α} {n : ℕ} (presence mask : UInt8) (absent : α)
    (h : Paid m n) : Paid (meteredSection presence mask m absent) 0 :=
  .ite (h.mono (Nat.zero_le n)) (paid_pure absent)

theorem consumes_readSection {α : Type} {r : Reader α} (presence mask : UInt8) (absent : α)
    (h : Consumes r 0) : Consumes (AssetGroup.readSection presence mask r absent) 0 :=
  .ite h (consumes_pure absent)

theorem AssetGroup.paid : Paid AssetGroup.metered 1 := by
  refine (paid_free consumes_byte).bind_left fun presence ↦ ?_
  refine (paid_free (consumes_readSection _ _ _ AssetId.consumes.map)).bind_left fun assetId ↦ ?_
  refine (paid_free (consumes_readSection _ _ _ AssetRef.consumes.map)).bind_left fun ref ↦ ?_
  refine (paid_meteredSection _ _ _ MetadataList.paid).bind_left fun metadata ↦ ?_
  refine (AssetInputs.paid.mono (Nat.zero_le 1)).bind_left fun inputs ↦ ?_
  refine (AssetOutputs.paid.mono (Nat.zero_le 1)).bind_left fun outputs ↦ ?_
  exact paid_checked _ _

theorem Packet.paid : Paid (Packet.metered hex) 1 := by
  refine (paid_countedList AssetGroup.paid).bind_left fun groups ↦ ?_
  refine (paid_free consumes_remaining).bind_left fun left ↦ ?_
  refine (paid_free (consumes_check _)).bind_left fun _ ↦ ?_
  exact paid_checked _ _

end Asset

namespace EmulatorPacket

def metered : Metered EmulatorPacket := do
  let entryCount ← free readCompactSize
  let entries ← many (element (free readEntry)) entryCount
  let left ← free remaining
  free (liftM (rejectIf (left > 0)
    [.text "unexpected ", .value (.ofNat left), .text " trailing bytes"]))
  free (liftM (create entries))

theorem value_metered : metered.value = fromReader := by
  simp [metered, fromReader]

theorem consumes_readEntry : Consumes readEntry 1 := by
  refine .bind_left (consumes_uint16LE.mono (Nat.le_succ 1)) fun vin ↦ ?_
  refine .bind_left (consumes_compactSlice.mono (Nat.zero_le 1)) fun script ↦ ?_
  exact .bind_left (consumes_compactSlice.mono (Nat.zero_le 1)) fun witness ↦ consumes_pure _

theorem paid : Paid metered 1 := by
  refine (paid_free consumes_compactSize).bind_left fun entryCount ↦ ?_
  refine ((paid_free consumes_readEntry).element.many entryCount).bind_left fun entries ↦ ?_
  refine (paid_free consumes_remaining).bind_left fun left ↦ ?_
  refine (paid_free (consumes_check _)).bind_left fun _ ↦ ?_
  exact paid_free (consumes_check _)

end EmulatorPacket

end ArkadeSdk
