import ArkadeSdk.Extension.PacketRoundTrip

/-! The form of a packet that goes into a batch leaf, and when the decoder accepts it. -/

namespace ArkadeSdk.Asset

open WireFormat JsNumber Buffer

variable {hex : HexCodec.Codec} {intentTxid : Bytes}

/-- The new group is not validated. -/
def AssetGroup.toBatchLeafAssetGroup (hex : HexCodec.Codec) (intentTxid : Bytes)
    (self : AssetGroup) : Except Message AssetGroup := do
  let leafInput ← AssetInput.createIntent hex (hex.encode intentTxid) (.ofNat 0)
    (.number (.ofNat 0))
  return ⟨self.assetId, self.controlAsset, [leafInput], self.outputs, self.metadata⟩

/-- Neither is the new packet. -/
def Packet.leafTxPacket (hex : HexCodec.Codec) (intentTxid : Bytes) (self : Packet) :
    Except Message Packet := do
  let leafGroups ← self.groups.mapM (AssetGroup.toBatchLeafAssetGroup hex intentTxid)
  return ⟨leafGroups⟩

def AssetGroup.inLeaf (intentTxid : Bytes) (g : AssetGroup) : AssetGroup :=
  { g with inputs := [.intent intentTxid (.ofNat 0) 0] }

theorem AssetGroup.toBatchLeafAssetGroup_eq (hlength : intentTxid.length = TX_HASH_SIZE)
    (hnonzero : isZeroBytes intentTxid = false) (g : AssetGroup) :
    g.toBatchLeafAssetGroup hex intentTxid = .ok (g.inLeaf intentTxid) := by
  have htext : hex.encode intentTxid ≠ "" := by
    rw [Ne, hex.encode_eq_empty]
    rintro rfl
    cases hlength
  have hinput : AssetInput.createIntent hex (hex.encode intentTxid) (.ofNat 0)
      (.number (.ofNat 0)) = .ok (.intent intentTxid (.ofNat 0) 0) := by
    rw [AssetInput.createIntent, then_ok, rejectIf_ok, HexCodec.Codec.decode_encode]
    refine ⟨htext, then_ok.mpr ⟨rejectIf_ok.mpr (not_not.mpr hlength), ?_⟩⟩
    refine bind_ok.mpr ⟨0, Number.toBigInt_ofNat 0, then_ok.mpr ⟨?_, rfl⟩⟩
    exact rejectIf_ok.mpr (by simp [hnonzero])
  exact bind_ok.mpr ⟨_, hinput, rfl⟩

theorem Packet.leafTxPacket_eq (hlength : intentTxid.length = TX_HASH_SIZE)
    (hnonzero : isZeroBytes intentTxid = false) (p : Packet) :
    p.leafTxPacket hex intentTxid = .ok ⟨p.groups.map (AssetGroup.inLeaf intentTxid)⟩ := by
  refine bind_ok.mpr ⟨_, mapM_eq_map fun g _ ↦ ?_, rfl⟩
  exact AssetGroup.toBatchLeafAssetGroup_eq hlength hnonzero g

theorem Packet.validateFrom_inLeaf (count : ℕ) (seen : List String) (groups : List AssetGroup) :
    validateFrom hex count seen (groups.map (AssetGroup.inLeaf intentTxid)) =
      validateFrom hex count seen groups := by
  induction groups generalizing seen with
  | nil => rfl
  | cons g groups ih =>
    simp only [List.map_cons, validateFrom, ih]
    rfl

theorem Packet.validate_inLeaf (p : Packet) :
    (⟨p.groups.map (AssetGroup.inLeaf intentTxid)⟩ : Packet).validate hex = p.validate hex := by
  simp only [Packet.validate, List.length_map, validateFrom_inLeaf]

theorem Packet.fromBytes_validate {bs : Bytes} {p : Packet} (h : fromBytes hex bs = .ok p) :
    p.validate hex = .ok () := by
  unfold fromBytes at h
  rw [map_eq_pure_bind] at h
  obtain ⟨⟨q, t⟩, hq, h⟩ := bind_ok.mp h
  obtain rfl : q = p := pure_ok.mp h
  obtain ⟨count, u, -, hq⟩ := run_bind_ok hq
  obtain ⟨groups, v, -, hq⟩ := run_bind_ok hq
  obtain ⟨left, w, -, hq⟩ := run_bind_ok hq
  obtain ⟨-, x, -, hq⟩ := run_bind_ok hq
  obtain ⟨⟨⟩, y, hvalid, hq⟩ := run_bind_ok hq
  obtain ⟨rfl, -⟩ := run_pure_ok.mp hq
  exact (run_liftM_ok.mp hvalid).1

theorem AssetGroup.Wire.inLeaf {g : AssetGroup} (h : g.Wire) (hissuance : g.isIssuance = false)
    (hlength : intentTxid.length = TX_HASH_SIZE) (hnonzero : isZeroBytes intentTxid = false) :
    (g.inLeaf intentTxid).Wire where
  assetId := h.assetId
  controlAsset := h.controlAsset
  metadata := h.metadata
  inputs := by
    have hvalid : (AssetInput.intent intentTxid (.ofNat 0) 0).validate = .ok () :=
      rejectIf_ok.mpr (by simp [hnonzero])
    refine ⟨fun i hi ↦ ?_, ⟨List.pairwise_singleton _ _, List.nodup_nil⟩⟩
    obtain rfl := List.mem_singleton.mp hi
    refine ⟨⟨?_, hvalid⟩, Number.inRange_ofNat.mpr (Nat.zero_le _), le_rfl⟩
    rintro _ _ _ ⟨⟩
    exact hlength
  outputs := h.outputs
  valid := by
    have hcontrol := (then_ok.mp h.valid).2
    rw [hissuance, if_neg Bool.false_ne_true] at hcontrol
    refine then_ok.mpr ⟨rejectIf_ok.mpr fun hempty ↦ absurd hempty.1 Nat.one_ne_zero, ?_⟩
    rw [show (g.inLeaf intentTxid).isIssuance = false from hissuance, if_neg Bool.false_ne_true]
    exact hcontrol

/-- The same group, but for its inputs: the only one refers to the intent. -/
structure AssetGroup.LeafOf (intentTxid : Bytes) (g leaf : AssetGroup) : Prop where
  assetId : leaf.assetId = g.assetId
  controlAsset : leaf.controlAsset = g.controlAsset
  metadata : leaf.metadata = g.metadata
  outputs : leaf.outputs = g.outputs
  input : ∃ vin amount, leaf.inputs = [.intent intentTxid vin amount]

theorem not_issuance_of_leafOf {groups leaves : List AssetGroup} (hwire : ∀ g ∈ leaves, g.Wire)
    (h : List.Forall₂ (AssetGroup.LeafOf intentTxid) groups leaves) :
    ∀ g ∈ groups, g.isIssuance = false := by
  induction h with
  | nil => simp
  | @cons g g' groups groups' hleaf _ ih =>
    obtain ⟨hwire, hrest⟩ := List.forall_mem_cons.mp hwire
    refine List.forall_mem_cons.mpr ⟨?_, ih hrest⟩
    by_contra hissuance
    have hcheck := (then_ok.mp hwire.valid).2
    obtain ⟨vin, amount, hinput⟩ := hleaf.input
    rw [Bool.not_eq_false] at hissuance
    rw [AssetGroup.isIssuance, hleaf.assetId, ← AssetGroup.isIssuance, if_pos hissuance,
      rejectIf_ok, hinput] at hcheck
    exact hcheck Nat.one_ne_zero

/-- The decoder reads a batch leaf's packet back, unless one of its groups issues an asset. -/
theorem Packet.leafTxPacket_read_back_iff {buf : Bytes} {p : Packet}
    (h : Packet.fromBytes hex buf = .ok p) (hlength : intentTxid.length = TX_HASH_SIZE)
    (hnonzero : isZeroBytes intentTxid = false) :
    (∃ leaf bs decoded, p.leafTxPacket hex intentTxid = .ok leaf ∧ leaf.serialize = .ok bs ∧
      Packet.fromBytes hex bs = .ok decoded ∧
      List.Forall₂ (AssetGroup.LeafOf intentTxid) p.groups decoded.groups) ↔
      ∀ g ∈ p.groups, g.isIssuance = false := by
  constructor
  · rintro ⟨leaf, bs, decoded, -, -, hread, hgroups⟩
    exact not_issuance_of_leafOf (fromBytes_wire hread) hgroups
  · intro hissuance
    have hwire := fromBytes_wire h
    have hvalid := Packet.fromBytes_validate h
    rw [← @Packet.validate_inLeaf _ intentTxid] at hvalid
    obtain ⟨bs, hbs, hread⟩ := fromBytes_of_serialize hvalid fun g hg ↦ by
      obtain ⟨g', hg', rfl⟩ := List.mem_map.mp hg
      exact (hwire g' hg').inLeaf (hissuance g' hg') hlength hnonzero
    refine ⟨_, bs, _, Packet.leafTxPacket_eq hlength hnonzero p, hbs, hread, ?_⟩
    rw [List.forall₂_map_right_iff]
    exact List.forall₂_same.mpr fun g _ ↦ ⟨rfl, rfl, rfl, rfl, _, _, rfl⟩

def sampleTxid : Bytes := List.replicate 32 1

def issuance : Packet := ⟨[⟨none, none, [], [⟨.ofNat 0, 1⟩], []⟩]⟩

/-- The leaf form of an issuance has an input, which the decoder refuses. -/
theorem Packet.issuance_leaf_refused :
    Packet.fromBytes HexCodec.base16 [1, 0, 0, 1, 1, 0, 0, 1] = .ok issuance ∧
      ∃ leaf bs, issuance.leafTxPacket HexCodec.base16 sampleTxid = .ok leaf ∧
        leaf.serialize = .ok bs ∧ Packet.fromBytes HexCodec.base16 bs =
          .error (message "issuance must have no inputs") := by
  refine ⟨by decide, _, [1, 0, 1, 2] ++ (sampleTxid ++ [0, 0, 0, 1, 1, 0, 0, 1]),
    Packet.leafTxPacket_eq rfl (by decide) issuance, by decide, by decide⟩

def transfer : Packet :=
  ⟨[⟨some ⟨sampleTxid, .ofNat 0⟩, none, [.local (.ofNat 0) 5], [⟨.ofNat 0, 5⟩], []⟩]⟩

theorem Packet.transfer_leaf_read_back : ∃ leaf bs decoded,
    transfer.leafTxPacket HexCodec.base16 sampleTxid = .ok leaf ∧ leaf.serialize = .ok bs ∧
      Packet.fromBytes HexCodec.base16 bs = .ok decoded ∧
      List.Forall₂ (AssetGroup.LeafOf sampleTxid) transfer.groups decoded.groups := by
  have hread : Packet.fromBytes HexCodec.base16
      ([1, 1] ++ (sampleTxid ++ [0, 0, 1, 1, 0, 0, 5, 1, 1, 0, 0, 5])) = .ok transfer := by
    decide
  exact (Packet.leafTxPacket_read_back_iff hread rfl (by decide)).mpr (by decide)

end ArkadeSdk.Asset
