import ArkadeSdk.Extension.AssetWire
import ArkadeSdk.Extension.Packet

namespace ArkadeSdk.Asset

open WireFormat JsNumber Buffer

namespace Packet

variable {hex : HexCodec.Codec}

theorem serialize_of_ne_nil {p : Packet} (h : p.groups ≠ []) :
    p.serialize = (do
      let groups ← serializeAll AssetGroup.serializeTo p.groups
      return leb128 p.groups.length ++ groups) := by
  rw [serialize, if_neg (mt List.length_eq_zero_iff.mp h)]

theorem groups_ne_nil {p : Packet} (h : p.validate hex = .ok ()) : p.groups ≠ [] := by
  rintro hnil
  have hmissing := (then_ok.mp h).1
  simp [hnil] at hmissing

theorem fromBytes_of_serialize {p : Packet} (hv : p.validate hex = .ok ())
    (h : ∀ g ∈ p.groups, g.Wire) :
    ∃ bs, p.serialize = .ok bs ∧ fromBytes hex bs = .ok p := by
  obtain ⟨groups, hgroups, hread⟩ := reads_serializeAll p.groups fun g hg ↦ reads_assetGroup (h g hg)
  rw [serialize_of_ne_nil (groups_ne_nil hv)]
  refine ⟨_, bind_ok.mpr ⟨groups, hgroups, rfl⟩, ?_⟩
  have hend := hread []
  rw [List.append_nil] at hend
  unfold fromBytes fromReader readVarUint
  rw [run_bind_eq (reads_leb128 p.groups.length groups), run_bind_eq hend]
  have hvalid : (liftM (p.validate hex) : Reader Unit).run [] = .ok ((), []) :=
    run_liftM_ok.mpr ⟨hv, rfl⟩
  rw [run_bind_eq (a := 0) (t := []) rfl, run_bind_eq (a := ()) (t := []) rfl, run_bind_eq hvalid]
  rfl

theorem fromBytes_wire {bs : Bytes} {p : Packet} (h : fromBytes hex bs = .ok p) :
    ∀ g ∈ p.groups, g.Wire := by
  unfold fromBytes at h
  rw [map_eq_pure_bind] at h
  obtain ⟨⟨q, t⟩, hq, h⟩ := bind_ok.mp h
  obtain rfl : q = p := pure_ok.mp h
  obtain ⟨count, u, -, hq⟩ := run_bind_ok hq
  obtain ⟨groups, v, hgroups, hq⟩ := run_bind_ok hq
  obtain ⟨left, w, -, hq⟩ := run_bind_ok hq
  obtain ⟨-, x, -, hq⟩ := run_bind_ok hq
  obtain ⟨⟨⟩, y, -, hq⟩ := run_bind_ok hq
  obtain ⟨rfl, -⟩ := run_pure_ok.mp hq
  exact readMany_forall (fun _ _ _ ↦ assetGroup_wire) count u groups v hgroups

theorem serializes {p : Packet} (hv : p.validate hex = .ok ()) (h : ∀ g ∈ p.groups, g.Checked) :
    (∃ bs, p.serialize = .ok bs) ↔ ∀ g ∈ p.groups, ¬g.NegativeInput := by
  rw [serialize_of_ne_nil (groups_ne_nil hv)]
  constructor
  · rintro ⟨bs, hbs⟩ g hg
    obtain ⟨groups, hgroups, -⟩ := bind_ok.mp hbs
    exact (assetGroup_serializes (h g hg)).mp (serializeAll_ok hgroups g hg)
  · intro hn
    obtain ⟨groups, hgroups⟩ := serializeAll_exists p.groups fun g hg ↦
      (assetGroup_serializes (h g hg)).mpr (hn g hg)
    exact ⟨_, bind_ok.mpr ⟨groups, hgroups, rfl⟩⟩

end Packet

variable (hex : HexCodec.Codec)

def AssetId.Created (a : AssetId) : Prop :=
  ∃ txid groupIndex, AssetId.create hex txid groupIndex = .ok a

inductive AssetRef.Created : AssetRef → Prop
  | fromId {a : AssetId} : a.Created hex → Created (.fromId a)
  | fromGroupIndex (groupIndex : Number) : Created (.fromGroupIndex groupIndex)

def Metadata.Created (md : Metadata) : Prop := ∃ key value, Metadata.create key value = .ok md

inductive AssetInput.Created (i : AssetInput) : Prop
  | create {vin : Number} {amount : Numeric} : AssetInput.create vin amount = .ok i → i.Created
  | createIntent {txid : String} {vin : Number} {amount : Numeric} :
      AssetInput.createIntent hex txid vin amount = .ok i → i.Created

def AssetOutput.Created (o : AssetOutput) : Prop := ∃ vout amount, AssetOutput.create vout amount = .ok o

structure AssetGroup.Created (g : AssetGroup) : Prop where
  assetId : ∀ a, g.assetId = some a → a.Created hex
  controlAsset : ∀ r, g.controlAsset = some r → r.Created hex
  inputs : ∀ i ∈ g.inputs, i.Created hex
  outputs : ∀ o ∈ g.outputs, o.Created
  metadata : ∀ md ∈ g.metadata, md.Created
  create : AssetGroup.create g.assetId g.controlAsset g.inputs g.outputs g.metadata = .ok g

structure Packet.Created (p : Packet) : Prop where
  groups : ∀ g ∈ p.groups, g.Created hex
  create : Packet.create hex p.groups = .ok p

variable {hex}

theorem AssetId.Created.wire {a : AssetId} (h : a.Created hex) : a.Wire := by
  obtain ⟨txid, groupIndex, h⟩ := h
  have hrest := (then_ok.mp h).2
  split at hrest
  · cases hrest
  · obtain ⟨hlen, hrest⟩ := then_ok.mp hrest
    obtain ⟨hvalid, hrest⟩ := then_ok.mp hrest
    cases hrest
    obtain ⟨hzero, hrange⟩ := AssetId.validate_ok.mp hvalid
    exact ⟨not_not.mp (rejectIf_ok.mp hlen), hzero, hrange⟩

theorem Metadata.Created.wire {md : Metadata} (h : md.Created) : md.Wire := by
  obtain ⟨key, value, h⟩ := h
  obtain ⟨hvalid, h⟩ := then_ok.mp h
  cases h
  exact Metadata.validate_ok.mp hvalid

theorem AssetInput.Created.checked {i : AssetInput} (h : i.Created hex) : i.Checked := by
  cases h with
  | create h =>
    obtain ⟨amount, -, h⟩ := bind_ok.mp h
    obtain ⟨hvalid, h⟩ := then_ok.mp h
    cases h
    exact ⟨by simp, hvalid⟩
  | createIntent h =>
    have hrest := (then_ok.mp h).2
    split at hrest
    · cases hrest
    · obtain ⟨hlen, hrest⟩ := then_ok.mp hrest
      obtain ⟨amount, -, hrest⟩ := bind_ok.mp hrest
      obtain ⟨hvalid, hrest⟩ := then_ok.mp hrest
      cases hrest
      refine ⟨?_, hvalid⟩
      intro txid vin amount he
      cases he
      exact not_not.mp (rejectIf_ok.mp hlen)

theorem AssetOutput.Created.wire {o : AssetOutput} (h : o.Created) : o.Wire := by
  obtain ⟨vout, amount, h⟩ := h
  obtain ⟨z, -, h⟩ := bind_ok.mp h
  obtain ⟨hvalid, h⟩ := then_ok.mp h
  cases h
  exact AssetOutput.validate_ok.mp hvalid

theorem AssetGroup.Created.checked {g : AssetGroup} (h : g.Created hex) : g.Checked where
  assetId a ha := (h.assetId a ha).wire
  controlId a ha := by
    cases h.controlAsset _ ha with
    | fromId hid => exact hid.wire
  metadata md hmd := (h.metadata md hmd).wire
  inputs i hi := (h.inputs i hi).checked
  outputs o ho := (h.outputs o ho).wire
  valid := (then_ok.mp h.create).1

/-- A created packet comes back from its bytes exactly when it has no bytes, or its
groups keep the rules that only the decoder and the field widths enforce. -/
theorem Packet.fromBytes_serialize_iff {p : Packet} (h : p.Created hex) :
    (∀ bs, p.serialize = .ok bs → Packet.fromBytes hex bs = .ok p) ↔
      (∃ g ∈ p.groups, g.NegativeInput) ∨ ∀ g ∈ p.groups, g.Representable := by
  have hvalid : p.validate hex = .ok () := (then_ok.mp h.create).1
  have hchecked : ∀ g ∈ p.groups, g.Checked := fun g hg ↦ (h.groups g hg).checked
  by_cases hneg : ∃ g ∈ p.groups, g.NegativeInput
  · refine iff_of_true (fun bs hbs ↦ ?_) (Or.inl hneg)
    obtain ⟨g, hg, hneg⟩ := hneg
    exact absurd hneg ((serializes hvalid hchecked).mp ⟨bs, hbs⟩ g hg)
  · push Not at hneg
    constructor
    · intro hround
      obtain ⟨bs, hbs⟩ := (serializes hvalid hchecked).mpr hneg
      exact Or.inr fun g hg ↦ (fromBytes_wire (hround bs hbs) g hg).representable
    · rintro (⟨g, hg, hg'⟩ | hrep) bs hbs
      · exact absurd hg' (hneg g hg)
      · have hwire : ∀ g ∈ p.groups, g.Wire := fun g hg ↦
          (hchecked g hg).wire (hrep g hg) (hneg g hg)
        obtain ⟨bs', hbs', hread⟩ := fromBytes_of_serialize hvalid hwire
        obtain rfl : bs' = bs := by
          rw [hbs] at hbs'
          cases hbs'
          rfl
        exact hread

theorem sampleAssetId_created :
    AssetId.Created HexCodec.base16 ⟨List.replicate 32 1, .ofNat 0⟩ := by
  have hne : HexCodec.base16.encode (List.replicate 32 1) ≠ "" := by
    intro h
    have hd := congrArg HexCodec.base16.decode h
    rw [HexCodec.Codec.decode_encode] at hd
    exact absurd hd (by decide)
  refine ⟨HexCodec.base16.encode (List.replicate 32 1), .ofNat 0, ?_⟩
  rw [AssetId.create, then_ok, rejectIf_ok, HexCodec.Codec.decode_encode]
  exact ⟨hne, by decide⟩

def sampleIssuance : AssetGroup where
  assetId := none
  controlAsset := some (.byGroup (.ofNat 1))
  inputs := []
  outputs := [⟨.ofNat 0, 100⟩]
  metadata := [⟨[0x6e], [0x54]⟩]

def sampleTransfer : AssetGroup where
  assetId := some ⟨List.replicate 32 1, .ofNat 0⟩
  controlAsset := none
  inputs := [.local (.ofNat 0) 2, .local (.ofNat 3) 5]
  outputs := [⟨.ofNat 1, 4⟩, ⟨.ofNat 2, 3⟩]
  metadata := []

def samplePacket : Packet := ⟨[sampleIssuance, sampleTransfer]⟩

theorem samplePacket_groups {g : AssetGroup} (hg : g ∈ samplePacket.groups) :
    g = sampleIssuance ∨ g = sampleTransfer := List.mem_pair.mp hg

theorem samplePacket_created : samplePacket.Created HexCodec.base16 := by
  refine ⟨fun g hg ↦ ?_, ?_⟩
  · rcases samplePacket_groups hg with rfl | rfl
    · refine ⟨fun _ ha ↦ (by cases ha), ?_, fun _ hi ↦ (by cases hi), ?_, ?_, by decide⟩
      · rintro _ ⟨⟩
        exact .fromGroupIndex (.ofNat 1)
      · intro o ho
        obtain rfl := List.mem_singleton.mp ho
        exact ⟨.ofNat 0, .bigint 100, by decide⟩
      · intro md hmd
        obtain rfl := List.mem_singleton.mp hmd
        exact ⟨[0x6e], [0x54], by decide⟩
    · refine ⟨?_, fun _ ha ↦ (by cases ha), ?_, ?_, fun _ hmd ↦ (by cases hmd), by decide⟩
      · rintro _ ⟨⟩
        exact sampleAssetId_created
      · intro i hi
        rcases List.mem_pair.mp hi with rfl | rfl
        · exact @AssetInput.Created.create _ _ (.ofNat 0) (.bigint 2) (by decide)
        · exact @AssetInput.Created.create _ _ (.ofNat 3) (.bigint 5) (by decide)
      · intro o ho
        rcases List.mem_pair.mp ho with rfl | rfl
        · exact ⟨.ofNat 1, .bigint 4, by decide⟩
        · exact ⟨.ofNat 2, .bigint 3, by decide⟩
  · rw [Packet.create, then_ok]
    refine ⟨?_, rfl⟩
    decide +kernel

theorem Packet.sample_fromBytes_serialize :
    ∃ bs, samplePacket.serialize = .ok bs ∧
      Packet.fromBytes HexCodec.base16 bs = .ok samplePacket := by
  have hrepresentable : ∀ g ∈ samplePacket.groups, g.Representable := by
    intro g hg
    rcases samplePacket_groups hg with rfl | rfl
    · refine ⟨fun _ hi ↦ (by cases hi), ⟨by decide, by decide⟩, by decide, ?_⟩
      rintro _ ⟨⟩
      decide
    · exact ⟨by decide, ⟨by decide, by decide⟩, by decide, fun _ hc ↦ (by cases hc)⟩
  have hround := (Packet.fromBytes_serialize_iff samplePacket_created).mpr (Or.inr hrepresentable)
  obtain ⟨bs, hbs⟩ := (serializes (then_ok.mp samplePacket_created.create).1 fun g hg ↦
    (samplePacket_created.groups g hg).checked).mpr fun g hg ↦ by
      rcases samplePacket_groups hg with rfl | rfl
      · rintro ⟨i, hi, -⟩
        cases hi
      · rintro ⟨i, hi, hneg⟩
        rcases List.mem_pair.mp hi with rfl | rfl
        · exact absurd hneg (by decide)
        · exact absurd hneg (by decide)
  exact ⟨bs, hbs, hround bs hbs⟩

/-- `AssetInput.create(65536, 1n)`, whose vin needs seventeen bits. -/
def wideInput : AssetInput := .local (.ofNat 65536) 1

def wideGroup : AssetGroup :=
  ⟨some ⟨List.replicate 32 1, .ofNat 0⟩, none, [wideInput], [⟨.ofNat 0, 1⟩], []⟩

def widePacket : Packet := ⟨[wideGroup]⟩

theorem widePacket_created : widePacket.Created HexCodec.base16 := by
  refine ⟨fun g hg ↦ ?_, ?_⟩
  · obtain rfl : g = wideGroup := by simpa [widePacket] using hg
    refine ⟨?_, by simp [wideGroup], ?_, ?_, by simp [wideGroup], by decide⟩
    · rintro a ⟨⟩
      exact sampleAssetId_created
    · intro i hi
      obtain rfl : i = wideInput := by simpa [wideGroup] using hi
      exact @AssetInput.Created.create _ _ (.ofNat 65536) (.bigint 1) (by decide)
    · intro o ho
      obtain rfl : o = ⟨.ofNat 0, 1⟩ := by simpa [wideGroup] using ho
      exact ⟨.ofNat 0, .bigint 1, by decide⟩
  · rw [Packet.create, then_ok]
    refine ⟨?_, rfl⟩
    simp [Packet.validate, Packet.validateFrom, Packet.validateAssetId,
      Packet.validateControlAsset, bind_ok, widePacket, wideGroup]

theorem Packet.wideVin_not_read_back :
    widePacket.Created HexCodec.base16 ∧ ∃ bs, widePacket.serialize = .ok bs ∧
      Packet.fromBytes HexCodec.base16 bs ≠ .ok widePacket := by
  have hvalid := (then_ok.mp widePacket_created.create).1
  have hchecked : ∀ g ∈ widePacket.groups, g.Checked := fun g hg ↦
    (widePacket_created.groups g hg).checked
  obtain ⟨bs, hbs⟩ := (serializes hvalid hchecked).mpr fun g hg ↦ by
    obtain rfl : g = wideGroup := by simpa [widePacket] using hg
    rintro ⟨i, hi, hneg⟩
    obtain rfl : i = wideInput := by simpa [wideGroup] using hi
    exact absurd hneg (by decide)
  refine ⟨widePacket_created, bs, hbs, fun hread ↦ ?_⟩
  have hvin := (fromBytes_wire hread wideGroup (by simp [widePacket])).representable.vins wideInput
    (by simp [wideGroup])
  rw [wideInput, AssetInput.vin, Number.inRange_ofNat] at hvin
  omega

end ArkadeSdk.Asset
