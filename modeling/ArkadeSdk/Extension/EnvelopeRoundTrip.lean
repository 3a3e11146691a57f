import ArkadeSdk.Extension.Envelope

namespace ArkadeSdk

open WireFormat JsNumber Buffer BtcScript ScriptCoder

theorem encodeVarUint_eq_leb128Within (n : ℕ) (h : n < 2 ^ 32) (fuel : ℕ) (hfuel : n ≤ fuel) :
    encodeVarUint n = leb128Within fuel n := by
  induction n using Nat.strong_induction_on generalizing fuel with
  | _ n ih =>
    have hmod : n % 2 ^ 32 = n := Nat.mod_eq_of_lt h
    rw [encodeVarUint]
    simp only [hmod]
    cases fuel with
    | zero =>
      obtain rfl : n = 0 := by omega
      rfl
    | succ fuel =>
      by_cases hn : n / 128 = 0
      · rw [dif_neg (by omega), leb128Within, if_pos hn]
      · rw [dif_pos (by omega), leb128Within, if_neg hn,
          ih (n / 128) (by omega) (by omega) fuel (by omega)]

theorem encodeVarUint_eq_leb128 {n : ℕ} (h : n < 2 ^ 32) : encodeVarUint n = leb128 n :=
  encodeVarUint_eq_leb128Within n h n le_rfl

theorem buildOpReturnScript_eq {data : Bytes} (h : data.length < 2 ^ 32) :
    ∃ push, pushData data = .ok push ∧ buildOpReturnScript data = 0x6a :: push := by
  unfold pushData buildOpReturnScript PUSHDATA1
  by_cases h75 : data.length ≤ 75
  · exact ⟨_, if_pos (by omega), if_pos h75⟩
  · by_cases h255 : data.length ≤ 255
    · simp only [if_neg h75, if_pos h255, if_neg (show ¬data.length < 76 by omega)]
      exact ⟨_, rfl, rfl⟩
    · by_cases h65535 : data.length ≤ 65535
      · simp only [if_neg h75, if_neg h255, if_pos h65535,
          if_neg (show ¬data.length < 76 by omega)]
        exact ⟨_, rfl, rfl⟩
      · simp only [if_neg h75, if_neg h255, if_neg h65535,
          if_neg (show ¬data.length < 76 by omega),
          if_pos (show data.length ≤ 4294967295 by omega)]
        exact ⟨_, rfl, rfl⟩

theorem decode_buildOpReturnScript {OP : OpTable} {data : Bytes} (hne : data ≠ [])
    (h : data.length < 2 ^ 32) :
    decode OP (buildOpReturnScript data) = .ok [.op "RETURN", .data data] := by
  obtain ⟨push, hpush, heq⟩ := buildOpReturnScript_eq h
  obtain ⟨hread, hpushne⟩ := @reads_pushData (decodeOp OP) _ _ hne hpush
  have hcode : OP.code "RETURN" = some 0x6a := OP.standard ("RETURN", 0x6a) (by decide)
  have hop : Reads (readItem (decodeOp OP)) [0x6a] (.op "RETURN") := by
    refine reads_op (by decide) ?_
    simp [decodeOp, OP.name_code hcode (by decide)]
  have hrest : decodeWith (decodeOp OP) push = .ok [.data data] := by
    have h := @decodeWith_reads _ _ [] _ hread hpushne
    simpa using h
  rw [heq, decode, ← List.singleton_append, decodeWith_reads hop (by simp), hrest]
  rfl

namespace ExtensionPacket

def Survives (hex : HexCodec.Codec) : ExtensionPacket → Prop
  | .asset p => ∃ bs, p.serialize = .ok bs ∧ Asset.Packet.fromBytes hex bs = .ok p
  | .emulator p => ∃ bs, p.serialize = .ok bs ∧ EmulatorPacket.fromBytes bs = .ok p
  | .unknown .. => True

/-- The two assigned type tags are used by their own classes only. -/
structure WellTyped (p : ExtensionPacket) : Prop where
  asset : p.type = .ofNat Asset.Packet.PACKET_TYPE → ∃ packet, p = .asset packet
  emulator : p.type = .ofNat EmulatorPacket.PACKET_TYPE → ∃ packet, p = .emulator packet

/-- What one record needs in order to be read back. -/
structure Recorded (hex : HexCodec.Codec) (p : ExtensionPacket) (n : ℕ) (data : Bytes) : Prop where
  type : p.type = .ofNat n
  lt : n < 256
  serialize : p.serialize = .ok data
  parse : parsePacket hex n data = .ok p

theorem recorded {hex : HexCodec.Codec} {p : ExtensionPacket} (htype : p.type.inRange 0xff = true)
    (htyped : p.WellTyped) (hs : p.Survives hex) : ∃ n data, p.Recorded hex n data := by
  cases p with
  | asset packet =>
    obtain ⟨bs, hbs, hread⟩ := hs
    exact ⟨0, bs, rfl, by omega, hbs, by simp [parsePacket, Asset.Packet.PACKET_TYPE, hread]⟩
  | emulator packet =>
    obtain ⟨bs, hbs, hread⟩ := hs
    refine ⟨1, bs, rfl, by omega, hbs, ?_⟩
    simp [parsePacket, Asset.Packet.PACKET_TYPE, EmulatorPacket.PACKET_TYPE, hread]
  | unknown packetType data =>
    obtain ⟨n, hn, rfl⟩ := Number.inRange_iff.mp htype
    refine ⟨n, data, rfl, by omega, rfl, ?_⟩
    have h0 : n ≠ Asset.Packet.PACKET_TYPE := by
      rintro rfl
      obtain ⟨packet, h⟩ := htyped.asset rfl
      cases h
    have h1 : n ≠ EmulatorPacket.PACKET_TYPE := by
      rintro rfl
      obtain ⟨packet, h⟩ := htyped.emulator rfl
      cases h
    rw [parsePacket, if_neg h0, if_neg h1]

end ExtensionPacket

namespace Extension

theorem reads_record {n : ℕ} {data : Bytes} (hn : n < 256) (h : data.length < 2 ^ 32) :
    Reads readRecord ([UInt8.ofNat n] ++ (encodeVarUint data.length ++ data)) (n, data) := by
  refine (reads_byte (UInt8.ofNat n)).bind ?_
  rw [encodeVarUint_eq_leb128 h]
  refine (Reads.orThrow (reads_varSlice data) _).bind_pure ?_
  rw [toNat_byte hn]
  exact reads_pure _

theorem readPackets_serializeRecords {hex : HexCodec.Codec} {ps : List ExtensionPacket}
    (h : ∀ p ∈ ps, ∃ n data, p.Recorded hex n data) :
    ∃ bs, serializeRecords ps = .ok bs ∧
      (bs.length < 2 ^ 32 → ∀ fuel, bs.length ≤ fuel → readPackets hex fuel bs = .ok ps) := by
  induction ps with
  | nil =>
    refine ⟨[], rfl, fun _ fuel _ ↦ ?_⟩
    cases fuel <;> rfl
  | cons p ps ih =>
    obtain ⟨n, data, hp⟩ := h p List.mem_cons_self
    obtain ⟨rest, hrest, hread⟩ := ih fun q hq ↦ h q (List.mem_cons_of_mem p hq)
    refine ⟨[UInt8.ofNat n] ++ (encodeVarUint data.length ++ (data ++ rest)), ?_, ?_⟩
    · have hbyte : p.type.toUint8 = n := by rw [hp.type, Number.toUint8_ofNat hp.lt]
      rw [serializeRecords, hp.serialize, hrest, hbyte]
      rfl
    · intro hlen fuel hfuel
      simp only [List.length_append, List.length_singleton] at hlen hfuel
      cases fuel with
      | zero => omega
      | succ fuel =>
        have hrecord := @reads_record _ data hp.lt (by omega) rest
        simp only [List.append_assoc] at hrecord
        rw [readPackets, if_neg (by simp), hrecord]
        refine bind_ok.mpr ⟨_, rfl, bind_ok.mpr ⟨p, hp.parse, bind_ok.mpr ⟨ps, ?_, rfl⟩⟩⟩
        exact hread (by omega) fuel (by omega)

theorem checkTypes_ok {seen : List Number} {ps : List ExtensionPacket}
    (h : checkTypes seen ps = .ok ()) :
    (∀ p ∈ ps, p.type.inRange 0xff = true) ∧ rejectDuplicates seen ps = .ok () := by
  induction ps generalizing seen with
  | nil => exact ⟨by simp, rfl⟩
  | cons p ps ih =>
    obtain ⟨hrange, h⟩ := then_ok.mp h
    obtain ⟨hseen, h⟩ := then_ok.mp h
    obtain ⟨hall, hdup⟩ := ih h
    refine ⟨List.forall_mem_cons.mpr ⟨by simpa using hrange, hall⟩, ?_⟩
    exact then_ok.mpr ⟨hseen, hdup⟩

/-- What `Extension.create` accepted comes back from its script. -/
theorem fromBytes_serialize {OP : OpTable} {hex : HexCodec.Codec} {packets : List ExtensionPacket}
    {ext : Extension} (hc : create packets = .ok ext) (htyped : ∀ p ∈ packets, p.WellTyped)
    (hsurvives : ∀ p ∈ packets, p.Survives hex)
    (hsize : ∀ bs, ext.payload = .ok bs → bs.length < 2 ^ 32) :
    ∃ script, ext.serialize = .ok script ∧ fromBytes OP hex script = .ok ext ∧
      isExtension OP script = true := by
  obtain ⟨hne, hc⟩ := then_ok.mp hc
  obtain ⟨htypes, hc⟩ := then_ok.mp hc
  cases hc
  obtain ⟨hrange, hdup⟩ := checkTypes_ok htypes
  obtain ⟨records, hrecords, hread⟩ := readPackets_serializeRecords fun p hp ↦
    ExtensionPacket.recorded (hrange p hp) (htyped p hp) (hsurvives p hp)
  have hpayload : payload ⟨packets⟩ = .ok (ARKADE_MAGIC ++ records) := by
    rw [payload, hrecords]
    rfl
  have hlen := hsize _ hpayload
  have hdecode := @decode_buildOpReturnScript OP (ARKADE_MAGIC ++ records)
    (by simp [ARKADE_MAGIC]) hlen
  refine ⟨buildOpReturnScript (ARKADE_MAGIC ++ records), ?_, ?_, ?_⟩
  · rw [serialize, hpayload]
    rfl
  · have hscript : ¬(buildOpReturnScript (ARKADE_MAGIC ++ records)).length = 0 := by
      obtain ⟨push, -, heq⟩ := buildOpReturnScript_eq hlen
      simp [heq]
    have hpackets : packets ≠ [] := by
      simpa using hne
    have hreadAll := hread (by simp only [List.length_append] at hlen; omega) records.length le_rfl
    rw [fromBytes, then_ok, rejectIf_ok, hdecode]
    refine ⟨hscript, then_ok.mpr ⟨rejectIf_ok.mpr (by simp [dataPushes]), then_ok.mpr ⟨?_, ?_⟩⟩⟩
    · rw [rejectIf_ok]
      simp [dataPushes, ARKADE_MAGIC]
    · have hdrop : (dataPushes [.data (ARKADE_MAGIC ++ records)]).flatten.drop
          ARKADE_MAGIC.length = records := by simp [dataPushes]
      rw [hdrop]
      refine bind_ok.mpr ⟨packets, hreadAll, ?_⟩
      exact then_ok.mpr ⟨rejectIf_ok.mpr hpackets, then_ok.mpr ⟨hdup, rfl⟩⟩
  · rw [isExtension, hdecode]
    simp

def threePackets : List ExtensionPacket :=
  [.asset ⟨[⟨none, none, [], [⟨.ofNat 0, 1⟩], []⟩]⟩, .emulator ⟨[⟨.ofNat 7, [0x51], some []⟩]⟩,
    .unknown (.ofNat 255) []]

theorem fromBytes_serialize_threePackets :
    ∃ script, serialize ⟨threePackets⟩ = .ok script ∧
      fromBytes standardOps HexCodec.base16 script = .ok ⟨threePackets⟩ ∧
      isExtension standardOps script = true := by
  have hsmall : ∀ n < 128, (encodeVarUint n).length = 1 := by
    intro n hn
    rw [encodeVarUint, dif_neg (by omega)]
    rfl
  refine @Extension.fromBytes_serialize standardOps HexCodec.base16 threePackets _ (by decide) ?_ ?_ ?_
  · simp only [threePackets, List.forall_mem_cons, List.not_mem_nil, false_implies, implies_true,
      and_true]
    exact ⟨⟨fun _ ↦ ⟨_, rfl⟩, fun h ↦ absurd h (by decide)⟩,
      ⟨fun h ↦ absurd h (by decide), fun _ ↦ ⟨_, rfl⟩⟩,
      ⟨fun h ↦ absurd h (by decide), fun h ↦ absurd h (by decide)⟩⟩
  · simp only [threePackets, List.forall_mem_cons, List.not_mem_nil, false_implies, implies_true,
      and_true]
    exact ⟨⟨_, rfl, by decide⟩, ⟨_, rfl, by decide⟩, trivial⟩
  · intro bs hbs
    cases hbs
    simp only [List.length_append, List.length_cons, List.length_nil, ARKADE_MAGIC]
    rw [hsmall _ (by decide), hsmall _ (by decide), hsmall _ (by decide)]
    decide

end Extension

end ArkadeSdk
