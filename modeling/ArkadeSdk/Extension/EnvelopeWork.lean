import ArkadeSdk.Extension.DecoderWork

/-! The work of decoding an extension, with the packets nested in it. -/

namespace ArkadeSdk

open WireFormat JsNumber Buffer BtcScript ScriptCoder Metered

variable {α : Type} {OP : OpTable} {hex : HexCodec.Codec}

/-- What a decoder makes of an input of its own. -/
def ofBytes (m : Metered α) (bs : Bytes) : ℕ × Except Message α := ((m bs).1, Prod.fst <$> (m bs).2)

def meteredParse (hex : HexCodec.Codec) (packetType : ℕ) (data : Bytes) :
    ℕ × Except Message ExtensionPacket :=
  if packetType = Asset.Packet.PACKET_TYPE then
    ((ofBytes (Asset.Packet.metered hex) data).1,
      .asset <$> (ofBytes (Asset.Packet.metered hex) data).2)
  else if packetType = EmulatorPacket.PACKET_TYPE then
    ((ofBytes EmulatorPacket.metered data).1, .emulator <$> (ofBytes EmulatorPacket.metered data).2)
  else (0, .ok (.unknown (.ofNat packetType) data))

theorem meteredParse_value (packetType : ℕ) (data : Bytes) :
    (meteredParse hex packetType data).2 = parsePacket hex packetType data := by
  have hpacket : (ofBytes (Asset.Packet.metered hex) data).2 = Asset.Packet.fromBytes hex data := by
    rw [Asset.Packet.fromBytes, ← Asset.Packet.value_metered]
    rfl
  have hemulator : (ofBytes EmulatorPacket.metered data).2 = EmulatorPacket.fromBytes data := by
    rw [EmulatorPacket.fromBytes, ← EmulatorPacket.value_metered]
    rfl
  unfold meteredParse parsePacket
  split
  · rw [hpacket]
  · split
    · rw [hemulator]
    · rfl

theorem meteredParse_le (packetType : ℕ) (data : Bytes) :
    (meteredParse hex packetType data).1 ≤ data.length := by
  unfold meteredParse
  split
  · exact Asset.Packet.paid.count_le data
  · split
    · exact EmulatorPacket.paid.count_le data
    · exact Nat.zero_le _

namespace Extension

def meteredRecord (hex : HexCodec.Codec) : Metered ExtensionPacket := fun s ↦
  match readRecord.run s with
  | .ok ((packetType, data), rest) => ((meteredParse hex packetType data).1,
      (fun packet ↦ (packet, rest)) <$> (meteredParse hex packetType data).2)
  | .error e => (0, .error e)

/-- The packet has its data to itself; the type and the length come on top. -/
theorem readRecord_length {s rest data : Bytes} {packetType : ℕ}
    (h : readRecord.run s = .ok ((packetType, data), rest)) :
    ∃ used, s = used ++ rest ∧ data.length + 2 ≤ used.length := by
  obtain ⟨byte, s', hbyte, h₁⟩ := run_bind_ok h
  obtain ⟨used, rfl, hused⟩ := consumes_byte s byte s' hbyte
  obtain ⟨data', s'', hdata, h₂⟩ := run_bind_ok h₁
  obtain ⟨heq, rfl⟩ := run_pure_ok.mp h₂
  obtain rfl := (Prod.mk.inj heq).2
  obtain ⟨length, s₃, hlength, hslice⟩ := run_bind_ok (orThrow_ok hdata)
  obtain ⟨used', rfl, hused'⟩ := consumes_leb128 s' length s₃ hlength
  obtain rfl := WireFormat.readSlice_ok hslice
  refine ⟨used ++ (used' ++ data'), by simp only [List.append_assoc], ?_⟩
  simp only [List.length_append]
  omega

theorem paid_meteredRecord : Paid (meteredRecord hex) 1 where
  ok s k packet rest h := by
    unfold meteredRecord at h
    split at h
    · next packetType data rest' hrecord =>
      obtain ⟨rfl, hpacket⟩ := Prod.mk.inj h
      obtain ⟨packet', -, heq⟩ := map_ok.mp hpacket
      obtain rfl := (Prod.mk.inj heq).2
      obtain ⟨used, hs, hused⟩ := readRecord_length hrecord
      have hle : (meteredParse hex packetType data).1 ≤ data.length :=
        meteredParse_le packetType data
      exact ⟨used, hs, by omega⟩
    · cases h
  error s k e h := by
    unfold meteredRecord at h
    split at h
    · next packetType data rest' hrecord =>
      obtain ⟨rfl, -⟩ := Prod.mk.inj h
      obtain ⟨used, rfl, hused⟩ := readRecord_length hrecord
      have hle : (meteredParse hex packetType data).1 ≤ data.length :=
        meteredParse_le packetType data
      rw [List.length_append]
      omega
    · cases h
      exact Nat.zero_le _

theorem meteredRecord_value (s : Bytes) : (meteredRecord hex).value.run s =
    (readRecord.run s >>= fun p ↦ (·, p.2) <$> parsePacket hex p.1.1 p.1.2) := by
  simp only [value, meteredRecord, StateT.run]
  cases readRecord s with
  | error e => rfl
  | ok p =>
    dsimp only [Bind.bind, Except.bind]
    rw [meteredParse_value]

/-- The loop `while (reader.remaining() > 0)`. -/
def meteredPackets (hex : HexCodec.Codec) : ℕ → Metered (List ExtensionPacket)
  | 0 => pure []
  | fuel + 1 => do
    let left ← free remaining
    if left = 0 then return []
    let packet ← element (meteredRecord hex)
    let packets ← meteredPackets hex fuel
    return packet :: packets

theorem meteredPackets_value (fuel : ℕ) (s : Bytes) :
    (ofBytes (meteredPackets hex fuel) s).2 = readPackets hex fuel s := by
  induction fuel generalizing s with
  | zero => rfl
  | succ fuel ih =>
    have hvalue : (meteredPackets hex (fuel + 1)).value = (do
        let left ← remaining
        if left = 0 then return []
        let packet ← (meteredRecord hex).value
        let packets ← (meteredPackets hex fuel).value
        return packet :: packets) := by simp [meteredPackets]
    have hstart : (ofBytes (meteredPackets hex (fuel + 1)) s).2 =
        Prod.fst <$> (meteredPackets hex (fuel + 1)).value.run s := rfl
    rw [hstart, hvalue, run_bind_eq (rfl : remaining.run s = .ok (s.length, s)), readPackets]
    split
    · rfl
    · rw [StateT.run_bind, meteredRecord_value]
      cases readRecord.run s with
      | error e => rfl
      | ok p =>
        obtain ⟨⟨packetType, data⟩, rest⟩ := p
        dsimp only [Bind.bind, Except.bind]
        cases parsePacket hex packetType data with
        | error e => rfl
        | ok packet =>
          dsimp only [Functor.map, Except.map]
          rw [← ih rest]
          simp only [ofBytes, value, StateT.run, StateT.bind, Bind.bind, Except.bind]
          cases (meteredPackets hex fuel rest).2 with
          | error e => rfl
          | ok q => rfl

theorem paid_meteredPackets (fuel : ℕ) : Paid (meteredPackets hex fuel) 0 := by
  induction fuel with
  | zero => exact paid_pure []
  | succ fuel ih =>
    refine (paid_free consumes_remaining).bind_left fun left ↦ .ite (paid_pure []) ?_
    refine paid_meteredRecord.element.bind_left fun packet ↦ ?_
    exact ih.bind_left fun packets ↦ paid_pure _

def recordBytes (OP : OpTable) (hex : HexCodec.Codec) (script : Bytes) : Except Message Bytes := do
  rejectIf (script.length = 0) (message "missing OP_RETURN")
  match decode OP script with
  | .ok (.op "RETURN" :: items) =>
    rejectIf (dataPushes items = []) (message "missing magic prefix: EOF")
    let payload := (dataPushes items).flatten
    rejectIf (payload.take ARKADE_MAGIC.length ≠ ARKADE_MAGIC)
      (message ("expected magic prefix " ++ hex.encode ARKADE_MAGIC ++ ", got " ++
        hex.encode (payload.take ARKADE_MAGIC.length)))
    return payload.drop ARKADE_MAGIC.length
  | _ => throw (message "expected OP_RETURN")

/-- The checks on the packets when all of them have been read. -/
def ofPackets (packets : List ExtensionPacket) : Except Message Extension := do
  rejectIf (packets = []) (message "missing packets")
  rejectDuplicates [] packets
  return ⟨packets⟩

def metered (OP : OpTable) (hex : HexCodec.Codec) (script : Bytes) :
    ℕ × Except Message Extension :=
  match recordBytes OP hex script with
  | .ok records =>
    ((meteredPackets hex records.length records).1,
      (ofBytes (meteredPackets hex records.length) records).2 >>= ofPackets)
  | .error e => (0, .error e)

theorem fromBytes_eq (script : Bytes) : fromBytes OP hex script = (do
    let records ← recordBytes OP hex script
    let packets ← readPackets hex records.length records
    ofPackets packets) := by
  unfold fromBytes recordBytes
  rw [bind_assoc]
  refine congrArg _ (funext fun _ ↦ ?_)
  split
  · next items heq =>
    simp only [heq, bind_assoc, pure_bind]
    rfl
  · next hnot =>
    -- the two functions may share their matcher, and then both are split already
    first
    | rfl
    | split
      · next items heq => exact absurd heq (hnot items)
      · rfl

theorem metered_value (script : Bytes) :
    (metered OP hex script).2 = fromBytes OP hex script := by
  rw [fromBytes_eq, metered]
  cases recordBytes OP hex script with
  | error e => rfl
  | ok records =>
    dsimp only
    rw [meteredPackets_value]
    rfl

theorem readItem_data_length {s rest data : Bytes}
    (h : (readItem (decodeOp OP)).run s = .ok (.data data, rest)) :
    data.length + rest.length ≤ s.length := by
  obtain ⟨cur, s', hcur, h₁⟩ := run_bind_ok h
  obtain ⟨used, rfl, -⟩ := consumes_byte s cur s' hcur
  split at h₁
  · obtain ⟨len, s₂, hlen, h₂⟩ := run_bind_ok h₁
    obtain ⟨b, s₃, hb, h₃⟩ := run_bind_ok h₂
    obtain ⟨heq, rfl⟩ := run_pure_ok.mp h₃
    cases heq
    obtain ⟨used', rfl, -⟩ := prefixed_readPushLength cur s' len s₂ hlen
    obtain rfl := WireFormat.readSlice_ok hb
    simp only [List.length_append]
    omega
  · obtain ⟨hop, -⟩ := run_liftM_ok.mp h₁
    unfold decodeOp at hop
    split at hop
    · cases hop
    · split at hop
      · cases hop
      · split at hop
        · cases hop
        · cases hop

theorem dataPushes_length {s : Bytes} {items : List Item} (h : decode OP s = .ok items) :
    (dataPushes items).flatten.length ≤ s.length := by
  induction hn : s.length using Nat.strong_induction_on generalizing s items with
  | _ n ih =>
    by_cases hs : s = []
    · subst hs
      rw [decode, decodeWith_nil] at h
      cases h
      exact Nat.zero_le _
    · obtain ⟨bs, t, x, ys, hbs, rfl, hread, hys, rfl⟩ := decodeWith_cons_ok hs h
      have hpos := List.length_pos_iff.mpr hbs
      rw [List.length_append] at hn
      have hrest := ih t.length (by omega) hys rfl
      cases x with
      | data b =>
        have hitem := readItem_data_length (hread t)
        rw [List.length_append] at hitem
        rw [dataPushes, List.flatten_cons, List.length_append]
        omega
      | num n =>
        rw [dataPushes]
        · omega
        · exact fun b hb ↦ by cases hb
      | op name =>
        rw [dataPushes]
        · omega
        · exact fun b hb ↦ by cases hb

theorem recordBytes_length {script records : Bytes}
    (h : recordBytes OP hex script = .ok records) : records.length ≤ script.length := by
  obtain ⟨-, h⟩ := then_ok.mp h
  split at h
  · next items hdecode =>
    obtain ⟨-, h⟩ := then_ok.mp h
    obtain ⟨-, h⟩ := then_ok.mp h
    cases h
    have hle := dataPushes_length hdecode
    rw [dataPushes] at hle
    · rw [List.length_drop]
      omega
    · exact fun b hb ↦ by cases hb
  · cases h

end Extension

/-- A decoder, and a bound on the elements it decodes before it returns or throws. -/
structure WorkBounded (metered : Bytes → ℕ × Except Message α)
    (decode : Bytes → Except Message α) : Prop where
  value : ∀ bs, (metered bs).2 = decode bs
  elements : ∀ bs, (metered bs).1 ≤ bs.length

/-- A loop over these elements, whatever makes it go on: a turn that does not throw consumes
something, so that the loop ends, and has decoded no more elements than there are bytes. -/
structure ElementLoop (m : Metered α) (r : Reader α) : Prop where
  value : m.value = r
  consumes : Consumes r 1
  ends : ∀ more i s, ∃ out, (∀ out', LoopRuns (element m) more i s out' ↔ out' = out) ∧
    out.1 ≤ s.length
  counted : ∀ n s, LoopRuns (element m) (fun i _ ↦ i < n) 0 s (many (element m) n s)

theorem elementLoop {m : Metered α} {r : Reader α} (hvalue : m.value = r) (h : Paid m 1) :
    ElementLoop m r where
  value := hvalue
  consumes := hvalue ▸ h.consumes
  ends more i s := by
    have hconsumes : Consumes (element m).value 1 := by
      rw [value_element]
      exact h.consumes
    obtain ⟨out, hloop, hle⟩ := exists_loopRuns h.element hconsumes more i s
    refine ⟨out, fun out' ↦ ⟨fun h' ↦ h'.unique hloop, ?_⟩, hle⟩
    rintro rfl
    exact hloop
  counted n s := by
    have hloop := loopRuns_many (m := element m) n 0 s
    simpa only [Nat.zero_add] using hloop

structure DecodersBounded (OP : OpTable) (hex : HexCodec.Codec) : Prop where
  packet : WorkBounded (ofBytes (Asset.Packet.metered hex)) (Asset.Packet.fromBytes hex)
  emulator : WorkBounded (ofBytes EmulatorPacket.metered) EmulatorPacket.fromBytes
  records : WorkBounded (fun bs ↦ ofBytes (Extension.meteredPackets hex bs.length) bs)
    (fun bs ↦ Extension.readPackets hex bs.length bs)
  extension : WorkBounded (Extension.metered OP hex) (Extension.fromBytes OP hex)

structure LoopsEnd (hex : HexCodec.Codec) : Prop where
  groups : ElementLoop Asset.AssetGroup.metered Asset.AssetGroup.fromReader
  metadata : ElementLoop (free Asset.Metadata.fromReader) Asset.Metadata.fromReader
  inputs : ElementLoop (free Asset.AssetInput.fromReader) Asset.AssetInput.fromReader
  outputs : ElementLoop (free Asset.AssetOutput.fromReader) Asset.AssetOutput.fromReader
  entries : ElementLoop (free EmulatorPacket.readEntry) EmulatorPacket.readEntry
  records : ElementLoop (Extension.meteredRecord hex) (Extension.meteredRecord hex).value

/-- Every read of the source's reader, against the same read of nothing but the input. -/
structure ReadsInside : Prop where
  byte : StaysInside BufferReader.readByte readByte
  slice : ∀ size, StaysInside (BufferReader.readSlice size) (readSlice size)
  uint16 : StaysInside BufferReader.readUint16LE readUint16LE
  varUint : StaysInside BufferReader.readVarUint readVarUint
  varSlice : StaysInside BufferReader.readVarSlice readVarSlice
  compactSize : StaysInside BufferReader.readCompactSize readCompactSize
  compactSlice : StaysInside BufferReader.readCompactSlice readCompactSlice

theorem decodersBounded : DecodersBounded OP hex where
  packet := by
    refine ⟨fun bs ↦ ?_, fun bs ↦ Asset.Packet.paid.count_le bs⟩
    rw [Asset.Packet.fromBytes, ← Asset.Packet.value_metered]
    rfl
  emulator := by
    refine ⟨fun bs ↦ ?_, fun bs ↦ EmulatorPacket.paid.count_le bs⟩
    rw [EmulatorPacket.fromBytes, ← EmulatorPacket.value_metered]
    rfl
  records := ⟨fun bs ↦ Extension.meteredPackets_value bs.length bs,
    fun bs ↦ (Extension.paid_meteredPackets bs.length).count_le bs⟩
  extension := by
    refine ⟨Extension.metered_value, fun script ↦ ?_⟩
    unfold Extension.metered
    split
    · next records hrecords =>
      exact ((Extension.paid_meteredPackets _).count_le records).trans
        (Extension.recordBytes_length hrecords)
    · exact Nat.zero_le _

theorem loopsEnd : LoopsEnd hex where
  groups := elementLoop Asset.AssetGroup.value_metered Asset.AssetGroup.paid
  metadata := elementLoop rfl (paid_free Asset.Metadata.consumes)
  inputs := elementLoop rfl (paid_free Asset.AssetInput.consumes)
  outputs := elementLoop rfl (paid_free Asset.AssetOutput.consumes)
  entries := elementLoop rfl (paid_free EmulatorPacket.consumes_readEntry)
  records := elementLoop rfl Extension.paid_meteredRecord

theorem readsInside : ReadsInside where
  byte := staysInside_readByte
  slice := staysInside_readSlice
  uint16 := staysInside_readUint16LE
  varUint := staysInside_readVarUint
  varSlice := staysInside_readVarSlice
  compactSize := staysInside_readCompactSize
  compactSlice := staysInside_readCompactSlice

/-- However many elements the input claims to hold, the decoders stop after as many as it has
bytes at most, and never read outside it. -/
theorem decoders_work_bounded (OP : OpTable) (hex : HexCodec.Codec) :
    DecodersBounded OP hex ∧ LoopsEnd hex ∧ ReadsInside :=
  ⟨decodersBounded, loopsEnd, readsInside⟩

end ArkadeSdk
