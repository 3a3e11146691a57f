import ArkadeSdk.Extension.Asset

namespace ArkadeSdk.Asset

open WireFormat JsNumber Buffer

theorem AssetId.validate_ok {a : AssetId} :
    a.validate = .ok () ↔ isZeroBytes a.txid = false ∧ a.groupIndex.inRange 0xffff = true := by
  simp only [AssetId.validate, then_ok, rejectIf_ok, Bool.not_eq_true, Bool.not_eq_true',
    Bool.not_eq_false]

structure AssetId.Wire (a : AssetId) : Prop where
  length : a.txid.length = TX_HASH_SIZE
  nonzero : isZeroBytes a.txid = false
  inRange : a.groupIndex.inRange 0xffff = true

theorem reads_assetId {a : AssetId} (h : a.Wire) : Reads AssetId.fromReader a.serializeTo a := by
  obtain ⟨n, hn, hidx⟩ := Number.inRange_iff.mp h.inRange
  have hlen : a.serializeTo.length = ASSET_ID_SIZE := by
    simp [AssetId.serializeTo, writeUint16LE, uint16LE, h.length, TX_HASH_SIZE, ASSET_ID_SIZE]
  unfold AssetId.fromReader
  refine reads_remaining fun left hleft ↦ Reads.check (by omega) ?_
  have hslice := reads_slice a.txid
  rw [h.length] at hslice
  refine hslice.bind (Reads.bind_pure (a := n) ?_ ?_)
  · rw [hidx]
    exact reads_uint16LE_number (by omega)
  · have ha : (⟨a.txid, .ofNat n⟩ : AssetId) = a := by rw [← hidx]
    rw [ha]
    exact (reads_liftM (AssetId.validate_ok.mpr ⟨h.nonzero, h.inRange⟩)).bind (reads_pure a)

theorem assetId_wire {s t : Bytes} {a : AssetId} (h : AssetId.fromReader.run s = .ok (a, t)) :
    a.Wire := by
  obtain ⟨left, u, -, h⟩ := run_bind_ok h
  obtain ⟨-, v, -, h⟩ := run_bind_ok h
  obtain ⟨txid, w, htxid, h⟩ := run_bind_ok h
  obtain ⟨index, x, hindex, h⟩ := run_bind_ok h
  obtain ⟨⟨⟩, y, hvalid, h⟩ := run_bind_ok h
  obtain ⟨rfl, -⟩ := run_pure_ok.mp h
  obtain ⟨hzero, hrange⟩ := AssetId.validate_ok.mp (run_liftM_ok.mp hvalid).1
  exact ⟨readSlice_length htxid, hzero, hrange⟩

/-- What the decoder promises of a control reference. -/
def AssetRef.Wire : AssetRef → Prop
  | .byID assetId => assetId.Wire
  | .byGroup groupIndex => groupIndex.inRange 0xffff = true

theorem reads_assetRef {r : AssetRef} (h : r.Wire) : Reads AssetRef.fromReader r.serializeTo r := by
  cases r with
  | byID assetId =>
    refine (reads_byte_ofNat (n := 1)).bind ?_
    exact (reads_assetId h).bind_pure (reads_pure _)
  | byGroup groupIndex =>
    obtain ⟨n, hn, rfl⟩ := Number.inRange_iff.mp h
    refine (reads_byte_ofNat (n := 2)).bind (reads_remaining fun left hleft ↦ Reads.check ?_ ?_)
    · simp only [writeUint16LE, uint16LE, List.length_cons, List.length_nil] at hleft
      omega
    · exact (reads_uint16LE_number (by omega)).bind_pure (reads_pure _)

theorem assetRef_wire {s t : Bytes} {r : AssetRef} (h : AssetRef.fromReader.run s = .ok (r, t)) :
    r.Wire := by
  obtain ⟨type, u, -, h⟩ := run_bind_ok h
  split at h
  · obtain ⟨assetId, v, ha, h⟩ := run_bind_ok h
    obtain ⟨rfl, -⟩ := run_pure_ok.mp h
    exact assetId_wire ha
  · split at h
    · obtain ⟨left, v, -, h⟩ := run_bind_ok h
      obtain ⟨-, w, -, h⟩ := run_bind_ok h
      obtain ⟨groupIndex, x, hg, h⟩ := run_bind_ok h
      obtain ⟨rfl, -⟩ := run_pure_ok.mp h
      have hlt := readUint16LE_lt hg
      exact Number.inRange_ofNat.mpr (by omega)
    · split at h <;> cases h

/-- What the constructor and the decoder both promise of a metadata entry. -/
structure Metadata.Wire (md : Metadata) : Prop where
  key : md.key.length ≠ 0
  value : md.value.length ≠ 0

theorem Metadata.validate_ok {md : Metadata} : md.validate = .ok () ↔ md.Wire := by
  simp only [Metadata.validate, then_ok, rejectIf_ok]
  exact ⟨fun h ↦ ⟨h.1, h.2⟩, fun h ↦ ⟨h.1, h.2⟩⟩

theorem reads_metadata {md : Metadata} (h : md.Wire) :
    Reads Metadata.fromReader md.serializeTo md := by
  refine (Reads.orThrow (reads_varSlice md.key) _).bind
    ((Reads.orThrow (reads_varSlice md.value) _).bind_pure ?_)
  exact (reads_liftM (Metadata.validate_ok.mpr h)).bind (reads_pure md)

theorem metadata_wire {s t : Bytes} {md : Metadata} (h : Metadata.fromReader.run s = .ok (md, t)) :
    md.Wire := by
  obtain ⟨key, u, -, h⟩ := run_bind_ok h
  obtain ⟨value, v, -, h⟩ := run_bind_ok h
  obtain ⟨⟨⟩, w, hvalid, h⟩ := run_bind_ok h
  obtain ⟨rfl, -⟩ := run_pure_ok.mp h
  exact Metadata.validate_ok.mp (run_liftM_ok.mp hvalid).1

theorem reads_metadataList {items : List Metadata} (h : ∀ md ∈ items, md.Wire) :
    Reads MetadataList.fromReader (MetadataList.serializeTo items) items :=
  (reads_leb128 _).bind (reads_many items fun md hmd ↦ reads_metadata (h md hmd))

theorem metadataList_wire {s t : Bytes} {items : List Metadata}
    (h : MetadataList.fromReader.run s = .ok (items, t)) : ∀ md ∈ items, md.Wire := by
  obtain ⟨count, u, -, h⟩ := run_bind_ok h
  exact readMany_forall (fun _ _ _ ↦ metadata_wire) count u items t h

section Lists

variable {α : Type} {serializeTo : α → Except Message Bytes} {fromReader : Reader α}

/-- Records that serialize one by one serialize as a list, and the decoder's loop
reads the list back. -/
theorem reads_serializeAll (l : List α)
    (h : ∀ a ∈ l, ∃ bs, serializeTo a = .ok bs ∧ Reads fromReader bs a) :
    ∃ bs, serializeAll serializeTo l = .ok bs ∧ Reads (readMany fromReader l.length) bs l := by
  induction l with
  | nil => exact ⟨[], rfl, reads_pure []⟩
  | cons a l ih =>
    obtain ⟨bs, hbs, hread⟩ := h a List.mem_cons_self
    obtain ⟨cs, hcs, hreads⟩ := ih fun b hb ↦ h b (List.mem_cons_of_mem a hb)
    refine ⟨bs ++ cs, ?_, hread.bind (hreads.bind_pure (reads_pure _))⟩
    exact bind_ok.mpr ⟨bs, hbs, bind_ok.mpr ⟨cs, hcs, rfl⟩⟩

theorem serializeAll_exists (l : List α) (h : ∀ a ∈ l, ∃ bs, serializeTo a = .ok bs) :
    ∃ bs, serializeAll serializeTo l = .ok bs := by
  induction l with
  | nil => exact ⟨[], rfl⟩
  | cons a l ih =>
    obtain ⟨head, hhead⟩ := h a List.mem_cons_self
    obtain ⟨tail, htail⟩ := ih fun b hb ↦ h b (List.mem_cons_of_mem a hb)
    exact ⟨head ++ tail, bind_ok.mpr ⟨head, hhead, bind_ok.mpr ⟨tail, htail, rfl⟩⟩⟩

theorem serializeAll_ok {l : List α} {bs : Bytes} (h : serializeAll serializeTo l = .ok bs) :
    ∀ a ∈ l, ∃ cs, serializeTo a = .ok cs := by
  induction l generalizing bs with
  | nil =>
    intro a ha
    cases ha
  | cons a l ih =>
    obtain ⟨head, hhead, h⟩ := bind_ok.mp h
    obtain ⟨tail, htail, -⟩ := bind_ok.mp h
    intro b hb
    rcases List.mem_cons.mp hb with rfl | hb
    · exact ⟨head, hhead⟩
    · exact ih htail b hb

end Lists

structure AssetInput.Checked (i : AssetInput) : Prop where
  txid : ∀ txid vin amount, i = .intent txid vin amount → txid.length = TX_HASH_SIZE
  valid : i.validate = .ok ()

structure AssetInput.Wire (i : AssetInput) : Prop extends AssetInput.Checked i where
  vin : i.vin.inRange 0xffff = true
  amount : 0 ≤ i.amount

theorem reads_assetInput {i : AssetInput} (h : i.Wire) :
    ∃ bs, i.serializeTo = .ok bs ∧ Reads AssetInput.fromReader bs i := by
  obtain ⟨n, hn, hvin⟩ := Number.inRange_iff.mp h.vin
  obtain ⟨m, hm⟩ := Int.eq_ofNat_of_zero_le h.amount
  cases i with
  | «local» vin amount =>
    simp only [AssetInput.vin, AssetInput.amount] at hvin hm
    subst hvin hm
    refine ⟨_, bind_ok.mpr ⟨_, writeVarUint_ofNat m, rfl⟩, ?_⟩
    refine (reads_byte_ofNat (n := 1)).bind ((reads_uint16LE_number (by omega)).bind ?_)
    refine (reads_leb128 m).bind_pure ?_
    exact (reads_liftM h.valid).bind (reads_pure _)
  | intent txid vin amount =>
    have hlen := h.txid _ _ _ rfl
    simp only [AssetInput.vin, AssetInput.amount] at hvin hm
    subst hvin hm
    refine ⟨_, bind_ok.mpr ⟨_, writeVarUint_ofNat m, rfl⟩, ?_⟩
    refine (reads_byte_ofNat (n := 2)).bind (reads_remaining fun left hleft ↦ Reads.check ?_ ?_)
    · simp only [List.length_append, hlen] at hleft
      omega
    · have hslice := reads_slice txid
      rw [hlen] at hslice
      refine hslice.bind ((reads_uint16LE_number (by omega)).bind ((reads_leb128 m).bind_pure ?_))
      exact (reads_liftM h.valid).bind (reads_pure _)

theorem assetInput_wire {s t : Bytes} {i : AssetInput}
    (h : AssetInput.fromReader.run s = .ok (i, t)) : i.Wire := by
  obtain ⟨type, u, -, h⟩ := run_bind_ok h
  split at h
  · obtain ⟨vin, v, hvin, h⟩ := run_bind_ok h
    obtain ⟨amount, w, -, h⟩ := run_bind_ok h
    obtain ⟨⟨⟩, x, hvalid, h⟩ := run_bind_ok h
    obtain ⟨rfl, -⟩ := run_pure_ok.mp h
    have hlt := readUint16LE_lt hvin
    exact ⟨⟨by simp, (run_liftM_ok.mp hvalid).1⟩, Number.inRange_ofNat.mpr (by omega),
      Int.natCast_nonneg amount⟩
  · split at h
    · obtain ⟨left, v, -, h⟩ := run_bind_ok h
      obtain ⟨-, w, -, h⟩ := run_bind_ok h
      obtain ⟨txid, x, htxid, h⟩ := run_bind_ok h
      obtain ⟨vin, y, hvin, h⟩ := run_bind_ok h
      obtain ⟨amount, z, -, h⟩ := run_bind_ok h
      obtain ⟨⟨⟩, z', hvalid, h⟩ := run_bind_ok h
      obtain ⟨rfl, -⟩ := run_pure_ok.mp h
      have hlt := readUint16LE_lt hvin
      refine ⟨⟨?_, (run_liftM_ok.mp hvalid).1⟩, Number.inRange_ofNat.mpr (by omega),
        Int.natCast_nonneg amount⟩
      intro txid' vin' amount' he
      cases he
      exact readSlice_length htxid
    · split at h <;> cases h

namespace AssetInputs

def localVin : AssetInput → Option Number
  | .local vin _ => some vin
  | .intent .. => none

/-- The vins that `AssetInputs.validate` requires to be distinct. -/
def localVins (inputs : List AssetInput) : List Number := inputs.filterMap localVin

/-- The list rules, which only the decoder runs. -/
structure Consistent (inputs : List AssetInput) : Prop where
  sameType : inputs.Pairwise fun i j ↦ i.type = j.type
  distinct : (localVins inputs).Nodup

theorem localVins_cons (i : AssetInput) (inputs : List AssetInput) :
    localVins (i :: inputs) = (localVin i).toList ++ localVins inputs := by
  cases i <;> rfl

theorem type_ne_zero (i : AssetInput) : i.type ≠ 0 := by cases i <;> simp [AssetInput.type]

theorem validateFrom_cons {i : AssetInput} {inputs : List AssetInput} {seen : List Number}
    {listType : ℕ} :
    validateFrom seen listType (i :: inputs) = .ok () ↔
      i.validate = .ok () ∧ (listType = 0 ∨ listType = i.type) ∧
        (∀ vin ∈ localVin i, vin ∉ seen) ∧
        validateFrom ((localVin i).toList ++ seen) i.type inputs = .ok () := by
  have htype : ¬(listType ≠ 0 ∧ listType ≠ i.type) ↔ listType = 0 ∨ listType = i.type := by
    tauto
  cases i with
  | «local» vin amount => simp [validateFrom, then_ok, htype, localVin]
  | intent txid vin amount => simp [validateFrom, then_ok, htype, localVin]

theorem validateFrom_ok (inputs : List AssetInput) (seen : List Number) (listType : ℕ) :
    validateFrom seen listType inputs = .ok () ↔
      (∀ i ∈ inputs, i.validate = .ok ()) ∧ (∀ i ∈ inputs, listType = 0 ∨ listType = i.type) ∧
        Consistent inputs ∧ ∀ vin ∈ localVins inputs, vin ∉ seen := by
  induction inputs generalizing seen listType with
  | nil =>
    have hnil : Consistent [] := ⟨List.Pairwise.nil, List.nodup_nil⟩
    simp [validateFrom, localVins, hnil]
  | cons i inputs ih =>
    have hi := type_ne_zero i
    rw [validateFrom_cons, ih]
    constructor
    · rintro ⟨hvalid, hlist, hseen, hall, htypes, hc, hvins⟩
      have hsame : ∀ j ∈ inputs, i.type = j.type := fun j hj ↦ (htypes j hj).resolve_left hi
      refine ⟨List.forall_mem_cons.mpr ⟨hvalid, hall⟩, List.forall_mem_cons.mpr ⟨hlist, ?_⟩,
        ⟨List.pairwise_cons.mpr ⟨hsame, hc.sameType⟩, ?_⟩, ?_⟩
      · exact fun j hj ↦ hsame j hj ▸ hlist
      · rw [localVins_cons, List.nodup_append]
        refine ⟨by cases localVin i <;> simp, hc.distinct, fun v hv w hw hvw ↦ ?_⟩
        exact hvins w hw (List.mem_append_left _ (hvw ▸ hv))
      · rw [localVins_cons]
        intro v hv
        rcases List.mem_append.mp hv with hv | hv
        · exact hseen v (Option.mem_toList.mp hv)
        · exact fun hs ↦ hvins v hv (List.mem_append_right _ hs)
    · rintro ⟨hall, hlist, hc, hvins⟩
      rw [List.forall_mem_cons] at hall hlist
      obtain ⟨hsame, hpair⟩ := List.pairwise_cons.mp hc.sameType
      have hdistinct := hc.distinct
      rw [localVins_cons, List.nodup_append] at hdistinct
      rw [localVins_cons] at hvins
      refine ⟨hall.1, hlist.1, fun v hv ↦ ?_, hall.2, fun j hj ↦ Or.inr (hsame j hj),
        ⟨hpair, hdistinct.2.1⟩, fun v hv hmem ↦ ?_⟩
      · exact hvins v (List.mem_append_left _ (Option.mem_toList.mpr hv))
      · rcases List.mem_append.mp hmem with hmem | hmem
        · exact hdistinct.2.2 v hmem v hv rfl
        · exact hvins v (List.mem_append_right _ hv) hmem

theorem validate_ok {inputs : List AssetInput} :
    validate inputs = .ok () ↔ (∀ i ∈ inputs, i.validate = .ok ()) ∧ Consistent inputs := by
  simp [validate, validateFrom_ok]

structure Wire (inputs : List AssetInput) : Prop where
  each : ∀ i ∈ inputs, i.Wire
  consistent : Consistent inputs

end AssetInputs

theorem reads_assetInputs {inputs : List AssetInput} (h : AssetInputs.Wire inputs) :
    ∃ bs, serializeAll AssetInput.serializeTo inputs = .ok bs ∧
      Reads AssetInputs.fromReader (leb128 inputs.length ++ bs) inputs := by
  obtain ⟨bs, hbs, hread⟩ := reads_serializeAll inputs fun i hi ↦ reads_assetInput (h.each i hi)
  refine ⟨bs, hbs, (reads_leb128 _).bind (hread.bind_pure ?_)⟩
  have hvalid := AssetInputs.validate_ok.mpr ⟨fun i hi ↦ (h.each i hi).valid, h.consistent⟩
  exact (reads_liftM hvalid).bind (reads_pure inputs)

theorem assetInputs_wire {s t : Bytes} {inputs : List AssetInput}
    (h : AssetInputs.fromReader.run s = .ok (inputs, t)) : AssetInputs.Wire inputs := by
  obtain ⟨count, u, -, h⟩ := run_bind_ok h
  obtain ⟨inputs', v, hmany, h⟩ := run_bind_ok h
  obtain ⟨⟨⟩, w, hvalid, h⟩ := run_bind_ok h
  obtain ⟨rfl, -⟩ := run_pure_ok.mp h
  exact ⟨readMany_forall (fun _ _ _ ↦ assetInput_wire) count u _ v hmany,
    (AssetInputs.validate_ok.mp (run_liftM_ok.mp hvalid).1).2⟩

/-- What the constructor and the decoder both promise of one output. -/
structure AssetOutput.Wire (o : AssetOutput) : Prop where
  vout : o.vout.inRange 0xffff = true
  amount : 0 < o.amount

theorem AssetOutput.validate_ok {o : AssetOutput} : o.validate = .ok () ↔ o.Wire := by
  simp only [AssetOutput.validate, then_ok, rejectIf_ok, Bool.not_eq_true',
    Bool.not_eq_false, not_le]
  exact ⟨fun h ↦ ⟨h.1, h.2⟩, fun h ↦ ⟨h.1, h.2⟩⟩

theorem reads_assetOutput {o : AssetOutput} (h : o.Wire) :
    ∃ bs, o.serializeTo = .ok bs ∧ Reads AssetOutput.fromReader bs o := by
  obtain ⟨vout, amount⟩ := o
  obtain ⟨n, hn, hvout⟩ := Number.inRange_iff.mp h.vout
  obtain ⟨m, hm⟩ := Int.eq_ofNat_of_zero_le (le_of_lt h.amount)
  simp only at hvout hm
  subst hvout hm
  refine ⟨_, bind_ok.mpr ⟨_, writeVarUint_ofNat m, rfl⟩, ?_⟩
  refine reads_remaining fun left hleft ↦ Reads.check ?_ ?_
  · simp only [writeByte, writeUint16LE, uint16LE, List.length_append, List.length_cons,
      List.length_nil] at hleft
    omega
  · refine (reads_byte_ofNat (n := 1)).bind (Reads.check (by decide) (Reads.check (by decide) ?_))
    refine (Reads.orThrow (reads_uint16LE_number (by omega)) _).bind ?_
    exact (reads_leb128 m).bind_pure (reads_pure _)

namespace AssetOutputs

structure Wire (outputs : List AssetOutput) : Prop where
  each : ∀ o ∈ outputs, o.Wire
  distinct : (outputs.map AssetOutput.vout).Nodup

theorem validateFrom_ok (outputs : List AssetOutput) (seen : List Number) :
    validateFrom seen outputs = .ok () ↔ Wire outputs ∧ ∀ o ∈ outputs, o.vout ∉ seen := by
  induction outputs generalizing seen with
  | nil =>
    have hnil : Wire [] := ⟨by simp, by simp⟩
    simp [validateFrom, hnil]
  | cons o outputs ih =>
    simp only [validateFrom, then_ok, rejectIf_ok, AssetOutput.validate_ok, ih]
    constructor
    · rintro ⟨ho, hseen, hw, hnot⟩
      refine ⟨⟨List.forall_mem_cons.mpr ⟨ho, hw.each⟩, ?_⟩, List.forall_mem_cons.mpr ⟨hseen, ?_⟩⟩
      · refine List.nodup_cons.mpr ⟨fun hmem ↦ ?_, hw.distinct⟩
        obtain ⟨q, hq, hv⟩ := List.mem_map.mp hmem
        exact hnot q hq (hv ▸ List.mem_cons_self)
      · exact fun q hq hs ↦ hnot q hq (List.mem_cons_of_mem _ hs)
    · rintro ⟨hw, hnot⟩
      obtain ⟨ho, heach⟩ := List.forall_mem_cons.mp hw.each
      obtain ⟨hseen, hrest⟩ := List.forall_mem_cons.mp hnot
      obtain ⟨hout, hdistinct⟩ := List.nodup_cons.mp hw.distinct
      refine ⟨ho, hseen, ⟨heach, hdistinct⟩, fun q hq hmem ↦ ?_⟩
      rcases List.mem_cons.mp hmem with hv | hmem
      · exact hout (hv ▸ List.mem_map_of_mem hq)
      · exact hrest q hq hmem

theorem validate_ok {outputs : List AssetOutput} : validate outputs = .ok () ↔ Wire outputs := by
  simp [validate, validateFrom_ok]

end AssetOutputs

theorem reads_assetOutputs {outputs : List AssetOutput} (h : AssetOutputs.Wire outputs) :
    ∃ bs, serializeAll AssetOutput.serializeTo outputs = .ok bs ∧
      Reads AssetOutputs.fromReader (leb128 outputs.length ++ bs) outputs := by
  obtain ⟨bs, hbs, hread⟩ := reads_serializeAll outputs fun o ho ↦ reads_assetOutput (h.each o ho)
  refine ⟨bs, hbs, (reads_leb128 _).bind ?_⟩
  by_cases hlen : outputs.length = 0
  · have hnil := List.length_eq_zero_iff.mp hlen
    subst hnil
    cases hbs
    exact reads_pure []
  · rw [if_neg hlen]
    refine hread.bind_pure ?_
    exact (reads_liftM (AssetOutputs.validate_ok.mpr h)).bind (reads_pure outputs)

theorem assetOutputs_wire {s t : Bytes} {outputs : List AssetOutput}
    (h : AssetOutputs.fromReader.run s = .ok (outputs, t)) : AssetOutputs.Wire outputs := by
  obtain ⟨count, u, -, h⟩ := run_bind_ok h
  split at h
  · obtain ⟨rfl, -⟩ := run_pure_ok.mp h
    exact ⟨by simp, by simp⟩
  · obtain ⟨outputs', v, -, h⟩ := run_bind_ok h
    obtain ⟨⟨⟩, w, hvalid, h⟩ := run_bind_ok h
    obtain ⟨rfl, -⟩ := run_pure_ok.mp h
    exact AssetOutputs.validate_ok.mp (run_liftM_ok.mp hvalid).1

namespace AssetGroup

theorem presence_assetId (g : AssetGroup) :
    g.presence &&& MASK_ASSET_ID ≠ 0 ↔ g.assetId.isSome = true := by
  unfold presence
  cases g.assetId.isSome <;> cases g.controlAsset.isSome <;>
    by_cases hm : g.metadata.length > 0 <;> simp only [hm] <;> decide

theorem presence_controlAsset (g : AssetGroup) :
    g.presence &&& MASK_CONTROL_ASSET ≠ 0 ↔ g.controlAsset.isSome = true := by
  unfold presence
  cases g.assetId.isSome <;> cases g.controlAsset.isSome <;>
    by_cases hm : g.metadata.length > 0 <;> simp only [hm] <;> decide

theorem presence_metadata (g : AssetGroup) :
    g.presence &&& MASK_METADATA ≠ 0 ↔ g.metadata.length > 0 := by
  unfold presence
  cases g.assetId.isSome <;> cases g.controlAsset.isSome <;>
    by_cases hm : g.metadata.length > 0 <;> simp only [hm] <;> decide

structure Checked (g : AssetGroup) : Prop where
  assetId : ∀ a, g.assetId = some a → a.Wire
  controlId : ∀ a, g.controlAsset = some (.byID a) → a.Wire
  metadata : ∀ md ∈ g.metadata, md.Wire
  inputs : ∀ i ∈ g.inputs, i.Checked
  outputs : ∀ o ∈ g.outputs, o.Wire
  valid : g.validate = .ok ()

/-- What the wire format asks of a group beyond what the constructors check. -/
structure Representable (g : AssetGroup) : Prop where
  vins : ∀ i ∈ g.inputs, i.vin.inRange 0xffff = true
  inputs : AssetInputs.Consistent g.inputs
  vouts : (g.outputs.map AssetOutput.vout).Nodup
  control : ∀ n, g.controlAsset = some (.byGroup n) → n.inRange 0xffff = true

structure Wire (g : AssetGroup) : Prop where
  assetId : ∀ a, g.assetId = some a → a.Wire
  controlAsset : ∀ r, g.controlAsset = some r → r.Wire
  metadata : ∀ md ∈ g.metadata, md.Wire
  inputs : AssetInputs.Wire g.inputs
  outputs : AssetOutputs.Wire g.outputs
  valid : g.validate = .ok ()

/-- Some amount that `writeVarUint` refuses. -/
def NegativeInput (g : AssetGroup) : Prop := ∃ i ∈ g.inputs, i.amount < 0

theorem Checked.wire {g : AssetGroup} (h : g.Checked) (hr : g.Representable)
    (hn : ¬g.NegativeInput) : g.Wire where
  assetId := h.assetId
  controlAsset r hc := by
    cases r with
    | byID a => exact h.controlId a hc
    | byGroup n => exact hr.control n hc
  metadata := h.metadata
  inputs := by
    refine ⟨fun i hi ↦ ⟨h.inputs i hi, hr.vins i hi, ?_⟩, hr.inputs⟩
    exact not_lt.mp fun hneg ↦ hn ⟨i, hi, hneg⟩
  outputs := ⟨h.outputs, hr.vouts⟩
  valid := h.valid

theorem Wire.representable {g : AssetGroup} (h : g.Wire) : g.Representable where
  vins i hi := (h.inputs.each i hi).vin
  inputs := h.inputs.consistent
  vouts := h.outputs.distinct
  control _ hc := h.controlAsset _ hc

theorem reads_section {α : Type} {r : Reader α} {enc : α → Bytes} {presence mask : UInt8}
    {o : Option α} (hp : presence &&& mask ≠ 0 ↔ o.isSome = true)
    (h : ∀ a, o = some a → Reads r (enc a) a) :
    Reads (readSection presence mask (some <$> r) none) (o.elim [] enc) o := by
  unfold readSection
  cases o with
  | none =>
    rw [if_neg (by simp [hp])]
    exact reads_pure none
  | some a =>
    rw [if_pos (by simp [hp])]
    exact (h a rfl).map

theorem section_forall {α : Type} {r : Reader α} {presence mask : UInt8} {P : α → Prop}
    (h : ∀ s a t, r.run s = .ok (a, t) → P a) {s t : Bytes} {o : Option α}
    (ho : (readSection presence mask (some <$> r) none).run s = .ok (o, t)) :
    ∀ a, o = some a → P a := by
  rintro a rfl
  unfold readSection at ho
  split at ho
  · rw [map_eq_pure_bind] at ho
    obtain ⟨b, u, hb, ho⟩ := run_bind_ok ho
    obtain ⟨he, -⟩ := run_pure_ok.mp ho
    cases he
    exact h s a u hb
  · obtain ⟨he, -⟩ := run_pure_ok.mp ho
    cases he

theorem reads_metadataSection {g : AssetGroup} (h : ∀ md ∈ g.metadata, md.Wire) :
    Reads (readSection g.presence MASK_METADATA MetadataList.fromReader [])
      (if g.metadata.length > 0 then MetadataList.serializeTo g.metadata else []) g.metadata := by
  unfold readSection
  by_cases hm : g.metadata.length > 0
  · rw [if_pos hm, if_pos (g.presence_metadata.mpr hm)]
    exact reads_metadataList h
  · rw [if_neg hm, if_neg (mt g.presence_metadata.mp hm)]
    have hnil : g.metadata = [] := List.length_eq_zero_iff.mp (by omega)
    rw [hnil]
    exact reads_pure []

theorem serializeTo_eq (g : AssetGroup) :
    g.serializeTo = (do
      let inputs ← serializeAll AssetInput.serializeTo g.inputs
      let outputs ← serializeAll AssetOutput.serializeTo g.outputs
      return [g.presence] ++ (g.assetId.elim [] AssetId.serializeTo ++
        (g.controlAsset.elim [] AssetRef.serializeTo ++
          ((if g.metadata.length > 0 then MetadataList.serializeTo g.metadata else []) ++
            ((leb128 g.inputs.length ++ inputs) ++ (leb128 g.outputs.length ++ outputs)))))) := by
  unfold serializeTo
  cases g.assetId <;> cases g.controlAsset <;> rfl

end AssetGroup

theorem reads_assetGroup {g : AssetGroup} (h : g.Wire) :
    ∃ bs, g.serializeTo = .ok bs ∧ Reads AssetGroup.fromReader bs g := by
  obtain ⟨inputs, hinputs, rinputs⟩ := reads_assetInputs h.inputs
  obtain ⟨outputs, houtputs, routputs⟩ := reads_assetOutputs h.outputs
  rw [g.serializeTo_eq]
  refine ⟨_, bind_ok.mpr ⟨inputs, hinputs, bind_ok.mpr ⟨outputs, houtputs, rfl⟩⟩, ?_⟩
  have hassetId := AssetGroup.reads_section g.presence_assetId fun a ha ↦
    reads_assetId (h.assetId a ha)
  have hcontrol := AssetGroup.reads_section g.presence_controlAsset fun r hr ↦
    reads_assetRef (h.controlAsset r hr)
  refine (reads_byte g.presence).bind (hassetId.bind (hcontrol.bind
    ((AssetGroup.reads_metadataSection h.metadata).bind (rinputs.bind (routputs.bind_pure ?_)))))
  exact (reads_liftM h.valid).bind (reads_pure g)

theorem assetGroup_wire {s t : Bytes} {g : AssetGroup}
    (h : AssetGroup.fromReader.run s = .ok (g, t)) : g.Wire := by
  obtain ⟨presence, u, -, h⟩ := run_bind_ok h
  obtain ⟨assetId, v, hassetId, h⟩ := run_bind_ok h
  obtain ⟨controlAsset, w, hcontrol, h⟩ := run_bind_ok h
  obtain ⟨metadata, x, hmetadata, h⟩ := run_bind_ok h
  obtain ⟨inputs, y, hinputs, h⟩ := run_bind_ok h
  obtain ⟨outputs, z, houtputs, h⟩ := run_bind_ok h
  obtain ⟨⟨⟩, z', hvalid, h⟩ := run_bind_ok h
  obtain ⟨rfl, -⟩ := run_pure_ok.mp h
  refine ⟨AssetGroup.section_forall (fun _ _ _ ↦ assetId_wire) hassetId,
    AssetGroup.section_forall (fun _ _ _ ↦ assetRef_wire) hcontrol, ?_,
    assetInputs_wire hinputs, assetOutputs_wire houtputs, (run_liftM_ok.mp hvalid).1⟩
  unfold AssetGroup.readSection at hmetadata
  split at hmetadata
  · exact metadataList_wire hmetadata
  · obtain ⟨rfl, -⟩ := run_pure_ok.mp hmetadata
    simp

theorem assetGroup_serializes {g : AssetGroup} (h : g.Checked) :
    (∃ bs, g.serializeTo = .ok bs) ↔ ¬g.NegativeInput := by
  rw [g.serializeTo_eq]
  constructor
  · rintro ⟨bs, hbs⟩ ⟨i, hi, hneg⟩
    obtain ⟨inputs, hinputs, -⟩ := bind_ok.mp hbs
    obtain ⟨cs, hcs⟩ := serializeAll_ok hinputs i hi
    cases i with
    | «local» vin amount =>
      obtain ⟨as, has, -⟩ := bind_ok.mp hcs
      have hpos := (writeVarUint_eq_ok has).1
      simp only [AssetInput.amount] at hneg
      omega
    | intent txid vin amount =>
      obtain ⟨as, has, -⟩ := bind_ok.mp hcs
      have hpos := (writeVarUint_eq_ok has).1
      simp only [AssetInput.amount] at hneg
      omega
  · intro hn
    have hinput : ∀ i ∈ g.inputs, ∃ bs, i.serializeTo = .ok bs := by
      intro i hi
      have hpos : 0 ≤ i.amount := not_lt.mp fun hneg ↦ hn ⟨i, hi, hneg⟩
      obtain ⟨n, hn⟩ := Int.eq_ofNat_of_zero_le hpos
      have hw : writeVarUint i.amount = .ok (leb128 n) := by rw [hn, writeVarUint_ofNat]
      cases i with
      | «local» vin amount => exact ⟨_, bind_ok.mpr ⟨_, hw, rfl⟩⟩
      | intent txid vin amount => exact ⟨_, bind_ok.mpr ⟨_, hw, rfl⟩⟩
    obtain ⟨inputs, hinputs⟩ := serializeAll_exists g.inputs hinput
    obtain ⟨outputs, houtputs⟩ := serializeAll_exists g.outputs fun o ho ↦ by
      obtain ⟨bs, hbs, -⟩ := reads_assetOutput (h.outputs o ho)
      exact ⟨bs, hbs⟩
    exact ⟨_, bind_ok.mpr ⟨inputs, hinputs, bind_ok.mpr ⟨outputs, houtputs, rfl⟩⟩⟩

end ArkadeSdk.Asset
