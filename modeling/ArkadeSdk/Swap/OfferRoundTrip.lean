import ArkadeSdk.Swap.OfferCodec
import ArkadeSdk.Extension.AssetWire
import Mathlib.Data.List.Perm.Basic
import Mathlib.Data.List.Nodup

/-! Encoding an offer, and what encoding and decoding keep of each other. -/

namespace ArkadeSdk.Offer

open WireFormat JsNumber Asset

/-- `setBigUint64(0, n, false)` on a buffer of `width` bytes: the low bytes of `n`, the first
one highest. -/
def setBigUint (width : ℕ) (n : ℕ) : Bytes :=
  match width with
  | 0 => []
  | width + 1 => setBigUint width (n / 256) ++ [UInt8.ofNat n]

def tlv (type : ℕ) (value : Bytes) : Except Message Bytes := do
  rejectIf (0xffff < value.length) (message "TLV value exceeds the u16 length field")
  return UInt8.ofNat type :: UInt8.ofNat (value.length / 256) :: UInt8.ofNat value.length :: value

/-- `concatBytes(...recs)` of records written one by one. -/
def tlvs (recs : List (FieldName × Bytes)) : Except Message Bytes :=
  List.flatten <$> recs.mapM fun r ↦ tlv r.1.tag r.2

def checkWidth (name : FieldName) (value : Bytes) : Except Message Unit :=
  rejectIf (name.width ≠ some value.length)
    (message (name.text ++ " must be " ++ toString (name.width.getD 0) ++ " bytes"))

/-- The records of an offer, in the order in which they are written. -/
def recs (offer : Offer) : List (FieldName × Bytes) :=
  [(FieldName.swapPkScript, offer.swapPkScript), (.wantAmount, setBigUint 8 offer.wantAmount.toNat)] ++
  (offer.wantAsset.map fun a ↦ (FieldName.wantAsset, a.serializeTo)).toList ++
  (offer.offerAsset.map fun a ↦ (FieldName.offerAsset, a.serializeTo)).toList ++
  [(FieldName.makerPkScript, offer.makerPkScript), (.makerPublicKey, offer.makerPublicKey),
    (.emulatorPubkey, offer.emulatorPubkey)]

def encodeOffer (offer : Offer) : Except Message Bytes := do
  rejectIf (offer.wantAsset.isSome = offer.offerAsset.isSome)
    (message "offer must carry exactly one of wantAsset or offerAsset")
  checkWidth .swapPkScript offer.swapPkScript
  checkWidth .makerPkScript offer.makerPkScript
  checkWidth .makerPublicKey offer.makerPublicKey
  checkWidth .emulatorPubkey offer.emulatorPubkey
  rejectIf (offer.wantAmount < 0 ∨ 0 < offer.wantAmount >>> (64 : ℕ))
    (message "wantAmount does not fit the offer wire format (u64)")
  tlvs (recs offer)

/-- The asset ids that exist: the constructor is private, and called by these two alone. -/
inductive Built : AssetId → Prop
  | create {hex : HexCodec.Codec} {txid : String} {groupIndex : Number} {a : AssetId}
      (h : AssetId.create hex txid groupIndex = .ok a) : Built a
  | fromReader {s t : Bytes} {a : AssetId} (h : AssetId.fromReader.run s = .ok (a, t)) : Built a

theorem Built.wire {a : AssetId} (h : Built a) : a.Wire := by
  cases h with
  | fromReader h => exact assetId_wire h
  | @create hex txid groupIndex _ h =>
    simp only [AssetId.create, then_ok] at h
    obtain ⟨-, h⟩ := h
    cases hbuf : hex.decode txid with
    | none =>
      rw [hbuf] at h
      cases h
    | some buf =>
      rw [hbuf] at h
      simp only [then_ok, rejectIf_ok, not_not, pure_ok] at h
      obtain ⟨hlength, hvalid, rfl⟩ := h
      obtain ⟨hzero, hrange⟩ := AssetId.validate_ok.mp hvalid
      exact ⟨hlength, hzero, hrange⟩

@[simp] theorem length_setBigUint (width n : ℕ) : (setBigUint width n).length = width := by
  induction width generalizing n with
  | zero => rfl
  | succ width ih => simp [setBigUint, ih]

theorem bigUint64_append (b : Bytes) (x : UInt8) :
    bigUint64 (b ++ [x]) = 256 * bigUint64 b + x.toNat := by
  simp [bigUint64, List.foldl_append]

theorem bigUint64_setBigUint (width n : ℕ) (h : n < 256 ^ width) :
    bigUint64 (setBigUint width n) = n := by
  induction width generalizing n with
  | zero =>
    have hn : n = 0 := by simpa using h
    subst hn
    rfl
  | succ width ih =>
    have hdiv : n / 256 < 256 ^ width := by
      rw [Nat.div_lt_iff_lt_mul (by decide), ← pow_succ]
      exact h
    rw [setBigUint, bigUint64_append, ih _ hdiv, UInt8.toNat_ofNat']
    omega

theorem bigUint64_lt (b : Bytes) : bigUint64 b < 256 ^ b.length := by
  induction b using List.reverseRecOn with
  | nil => decide
  | append_singleton b x ih =>
    have hx : x.toNat < 256 := UInt8.toNat_lt x
    rw [bigUint64_append, List.length_append, List.length_singleton, pow_succ]
    omega

theorem setBigUint_bigUint64 (b : Bytes) : setBigUint b.length (bigUint64 b) = b := by
  induction b using List.reverseRecOn with
  | nil => rfl
  | append_singleton b x ih =>
    have hx : x.toNat < 256 := UInt8.toNat_lt x
    have hdiv : (256 * bigUint64 b + x.toNat) / 256 = bigUint64 b := by omega
    have hbyte : UInt8.ofNat (256 * bigUint64 b + x.toNat) = x := by
      apply UInt8.toNat_inj.mp
      rw [UInt8.toNat_ofNat']
      omega
    rw [bigUint64_append, List.length_append, List.length_singleton, setBigUint, hdiv, ih, hbyte]

theorem ofTag_tag (name : FieldName) : FieldName.ofTag name.tag = some name := by
  cases name <;> rfl

theorem ofTag_some {type : ℕ} {name : FieldName} (h : FieldName.ofTag type = some name) :
    type = name.tag := by
  have htag := List.find?_some h
  exact (of_decide_eq_true htag).symm

theorem tag_lt (name : FieldName) : name.tag < 256 := by
  cases name <;> decide

theorem tlv_ok {type : ℕ} {value bs : Bytes} : tlv type value = .ok bs ↔
    value.length ≤ 0xffff ∧ bs = UInt8.ofNat type :: UInt8.ofNat (value.length / 256) ::
      UInt8.ofNat value.length :: value := by
  simp only [tlv, then_ok, rejectIf_ok, pure_ok, Nat.not_lt, eq_comm (a := bs)]

/-- What `tlv` writes is one record to the reader. -/
theorem readRecord_tlv {fields : Fields} {name : FieldName} {value bs rest : Bytes}
    (h : tlv name.tag value = .ok bs) (hnew : fields.lookup name = none) :
    readRecord fields (bs ++ rest) = .ok ((name, value) :: fields, rest) := by
  obtain ⟨hlength, rfl⟩ := tlv_ok.mp h
  have hhi : (UInt8.ofNat (value.length / 256)).toNat = value.length / 256 :=
    toNat_byte (by omega)
  have htag : (UInt8.ofNat name.tag).toNat = name.tag := toNat_byte (tag_lt name)
  have hsize : 256 * (UInt8.ofNat (value.length / 256)).toNat +
      (UInt8.ofNat value.length).toNat = value.length := by
    rw [hhi, UInt8.toNat_ofNat']
    omega
  simp only [List.cons_append, readRecord, hsize, htag, ofTag_tag, hnew]
  refine then_ok.mpr ⟨rejectIf_ok.mpr ?_, then_ok.mpr ⟨rejectIf_ok.mpr ?_, ?_⟩⟩
  · simp
  · simp
  · simp

/-- A record that the reader accepts is one that `tlv` writes. -/
theorem readRecord_ok {fields fields' : Fields} {data rest : Bytes}
    (h : readRecord fields data = .ok (fields', rest)) :
    ∃ name value bs, tlv name.tag value = .ok bs ∧ data = bs ++ rest ∧
      fields.lookup name = none ∧ fields' = (name, value) :: fields := by
  unfold readRecord at h
  split at h
  · rename_i type hi lo tail
    simp only [then_ok, rejectIf_ok] at h
    obtain ⟨hlength, h⟩ := h
    split at h
    · cases h
    · rename_i name hname
      simp only [then_ok, rejectIf_ok, pure_ok, Prod.mk.injEq, Bool.not_eq_true,
        Option.isSome_eq_false_iff, Option.isNone_iff_eq_none] at h
      obtain ⟨hnew, rfl, rfl⟩ := h
      have htake : (tail.take (256 * hi.toNat + lo.toNat)).length = 256 * hi.toNat + lo.toNat := by
        rw [List.length_take]
        omega
      have hhi : hi.toNat < 256 := UInt8.toNat_lt hi
      have hlo : lo.toNat < 256 := UInt8.toNat_lt lo
      refine ⟨name, _, _, tlv_ok.mpr ⟨?_, rfl⟩, ?_, hnew, rfl⟩
      · rw [htake]
        omega
      · rw [htake, List.cons_append, List.cons_append, List.cons_append, List.take_append_drop,
          ← ofTag_some hname]
        have h₁ : UInt8.ofNat type.toNat = type := UInt8.ofNat_toNat
        have h₂ : UInt8.ofNat ((256 * hi.toNat + lo.toNat) / 256) = hi := by
          apply UInt8.toNat_inj.mp
          rw [UInt8.toNat_ofNat']
          omega
        have h₃ : UInt8.ofNat (256 * hi.toNat + lo.toNat) = lo := by
          apply UInt8.toNat_inj.mp
          rw [UInt8.toNat_ofNat']
          omega
        rw [h₁, h₂, h₃]
  · cases h

theorem tlvs_nil {bs : Bytes} : tlvs [] = .ok bs ↔ bs = [] := by
  simp only [tlvs, map_ok, List.mapM_nil, pure_ok, exists_eq_left', List.flatten_nil,
    eq_comm (a := bs)]

theorem tlvs_cons {r : FieldName × Bytes} {rs : List (FieldName × Bytes)} {bs : Bytes} :
    tlvs (r :: rs) = .ok bs ↔
      ∃ head tail, tlv r.1.tag r.2 = .ok head ∧ tlvs rs = .ok tail ∧ bs = head ++ tail := by
  simp only [tlvs, map_ok, mapM_cons_ok]
  constructor
  · rintro ⟨_, ⟨head, hhead, parts, hparts, rfl⟩, rfl⟩
    exact ⟨head, parts.flatten, hhead, ⟨parts, hparts, rfl⟩, rfl⟩
  · rintro ⟨head, _, hhead, ⟨parts, hparts, rfl⟩, rfl⟩
    exact ⟨head :: parts, ⟨head, hhead, parts, hparts, rfl⟩, rfl⟩

theorem tlvs_exists {rs : List (FieldName × Bytes)} (h : ∀ r ∈ rs, r.2.length ≤ 0xffff) :
    ∃ bs, tlvs rs = .ok bs := by
  induction rs with
  | nil => exact ⟨[], tlvs_nil.mpr rfl⟩
  | cons r rs ih =>
    obtain ⟨hr, hrs⟩ := List.forall_mem_cons.mp h
    obtain ⟨tail, htail⟩ := ih hrs
    exact ⟨_, tlvs_cons.mpr ⟨_, tail, tlv_ok.mpr ⟨hr, rfl⟩, htail, rfl⟩⟩

theorem lookup_eq_none {fields : Fields} {name : FieldName} :
    fields.lookup name = none ↔ name ∉ fields.map Prod.fst := by
  rw [List.lookup_eq_none_iff]
  simp only [bne_iff_ne, List.mem_map, not_exists, not_and]
  exact ⟨fun h r hr hname ↦ h r hr hname.symm, fun h r hr hname ↦ h r hr hname.symm⟩

theorem readRecords_tlvs {rs : List (FieldName × Bytes)} {fields : Fields} {bs : Bytes} {turns : ℕ}
    (h : tlvs rs = .ok bs) (hturns : bs.length ≤ turns)
    (hnodup : ((rs.reverse ++ fields).map Prod.fst).Nodup) :
    readRecords turns fields bs = .ok (rs.reverse ++ fields) := by
  induction rs generalizing fields bs turns with
  | nil =>
    obtain rfl := tlvs_nil.mp h
    simp [readRecords]
  | cons r rs ih =>
    obtain ⟨head, tail, hhead, htail, rfl⟩ := tlvs_cons.mp h
    have hpos : 0 < head.length := by
      rw [(tlv_ok.mp hhead).2]
      exact Nat.succ_pos _
    rw [List.reverse_cons, List.append_assoc, List.singleton_append] at hnodup ⊢
    have hnew : fields.lookup r.1 = none := by
      rw [lookup_eq_none]
      rw [List.map_append, List.nodup_append] at hnodup
      exact (List.nodup_cons.mp hnodup.2.1).1
    cases turns with
    | zero =>
      rw [List.length_append] at hturns
      omega
    | succ turns =>
      have hrest : tail.length ≤ turns := by
        rw [List.length_append] at hturns
        omega
      have hread : readRecord fields (head ++ tail) = .ok (r :: fields, tail) :=
        readRecord_tlv hhead hnew
      have hne : head ++ tail ≠ [] := by
        intro hnil
        rw [List.append_eq_nil_iff.mp hnil |>.1] at hpos
        exact absurd hpos (by decide)
      rw [readRecords]
      · rw [hread]
        exact ih htail hrest hnodup
      · exact hne

theorem readRecords_ok {turns : ℕ} {fields fields' : Fields} {data : Bytes}
    (h : readRecords turns fields data = .ok fields') (hnodup : (fields.map Prod.fst).Nodup) :
    ∃ rs, tlvs rs = .ok data ∧ fields' = rs.reverse ++ fields ∧ (fields'.map Prod.fst).Nodup := by
  induction turns generalizing fields data with
  | zero =>
    cases data with
    | nil =>
      cases h
      exact ⟨[], tlvs_nil.mpr rfl, rfl, hnodup⟩
    | cons b data => cases h
  | succ turns ih =>
    cases data with
    | nil =>
      cases h
      exact ⟨[], tlvs_nil.mpr rfl, rfl, hnodup⟩
    | cons b data =>
      rw [readRecords] at h
      · obtain ⟨⟨next, rest⟩, hread, h⟩ := bind_ok.mp h
        obtain ⟨name, value, head, hhead, hdata, hnew, rfl⟩ := readRecord_ok hread
        have hnext : (((name, value) :: fields).map Prod.fst).Nodup :=
          List.nodup_cons.mpr ⟨lookup_eq_none.mp hnew, hnodup⟩
        obtain ⟨rs, hrs, rfl, hkeys⟩ := ih h hnext
        refine ⟨(name, value) :: rs, tlvs_cons.mpr ⟨head, rest, hhead, hrs, hdata⟩, ?_, hkeys⟩
        rw [List.reverse_cons, List.append_assoc, List.singleton_append]
      · intro hnil
        cases hnil

/-- In a list without a repeated key, an entry is what looking its key up finds. -/
theorem mem_iff_lookup {fields : Fields} (h : (fields.map Prod.fst).Nodup) {name : FieldName}
    {value : Bytes} : (name, value) ∈ fields ↔ fields.lookup name = some value := by
  induction fields with
  | nil => simp
  | cons r fields ih =>
    obtain ⟨key, v⟩ := r
    obtain ⟨hkey, htail⟩ := List.nodup_cons.mp h
    rw [List.mem_cons, List.lookup_cons, ih htail]
    by_cases hname : name = key
    · subst hname
      have hnone := lookup_eq_none.mpr hkey
      simp [hnone, eq_comm]
    · have hbeq : (name == key) = false := beq_false_of_ne hname
      simp [hname, hbeq]

theorem perm_of_lookup {fields fields' : Fields} (h : (fields.map Prod.fst).Nodup)
    (h' : (fields'.map Prod.fst).Nodup)
    (hlookup : ∀ name, fields.lookup name = fields'.lookup name) : fields.Perm fields' := by
  apply (List.perm_ext_iff_of_nodup (List.Nodup.of_map _ h) (List.Nodup.of_map _ h')).mpr
  rintro ⟨name, value⟩
  rw [mem_iff_lookup h, mem_iff_lookup h', hlookup]

theorem checkWidth_ok {name : FieldName} {value : Bytes} :
    checkWidth name value = .ok () ↔ name.width = some value.length := by
  simp only [checkWidth, rejectIf_ok, not_not]

theorem shiftRight_pos {z : ℤ} : (0 < z >>> (64 : ℕ)) ↔ 2 ^ 64 ≤ z := by
  rw [Int.shiftRight_eq_div_pow]
  omega

theorem encodeOffer_ok {offer : Offer} {bs : Bytes} : encodeOffer offer = .ok bs ↔
    offer.wantAsset.isSome ≠ offer.offerAsset.isSome ∧ offer.swapPkScript.length = 34 ∧
      offer.makerPkScript.length = 34 ∧ offer.makerPublicKey.length = 32 ∧
      offer.emulatorPubkey.length = 32 ∧ 0 ≤ offer.wantAmount ∧ offer.wantAmount < 2 ^ 64 ∧
      tlvs (recs offer) = .ok bs := by
  simp only [encodeOffer, then_ok, rejectIf_ok, checkWidth_ok, FieldName.width, Option.some.injEq,
    shiftRight_pos, not_or, not_lt, not_le, and_assoc, ne_eq, eq_comm (a := 34),
    eq_comm (a := 32)]

theorem recs_nodup (offer : Offer) : ((recs offer).map Prod.fst).Nodup := by
  unfold recs
  cases offer.wantAsset <;> cases offer.offerAsset <;>
    simp only [Option.map_none, Option.map_some, Option.toList_none, Option.toList_some,
      List.append_nil, List.cons_append, List.nil_append, List.map_cons, List.map_nil] <;> decide

theorem lookup_recs (offer : Offer) (name : FieldName) : (recs offer).lookup name =
    match name with
    | .swapPkScript => some offer.swapPkScript
    | .wantAmount => some (setBigUint 8 offer.wantAmount.toNat)
    | .wantAsset => offer.wantAsset.map (·.serializeTo)
    | .makerPkScript => some offer.makerPkScript
    | .makerPublicKey => some offer.makerPublicKey
    | .emulatorPubkey => some offer.emulatorPubkey
    | .offerAsset => offer.offerAsset.map (·.serializeTo) := by
  unfold recs
  cases name <;> cases offer.wantAsset <;> cases offer.offerAsset <;> rfl

theorem serializeTo_length {a : AssetId} (h : a.Wire) : a.serializeTo.length = ASSET_ID_SIZE := by
  simp [AssetId.serializeTo, Buffer.writeUint16LE, uint16LE, h.length, TX_HASH_SIZE, ASSET_ID_SIZE]

theorem fromBytes_serializeTo {a : AssetId} (h : a.Wire) :
    AssetId.fromBytes a.serializeTo = .ok a := by
  have hlength := serializeTo_length h
  have hread := reads_assetId h []
  rw [List.append_nil] at hread
  refine then_ok.mpr ⟨rejectIf_ok.mpr ?_, then_ok.mpr ⟨rejectIf_ok.mpr ?_, ?_⟩⟩
  · rw [hlength]
    exact Nat.succ_ne_zero 33
  · rw [hlength]
    simp
  · rw [hread]
    rfl

theorem fromReader_ok {s t : Bytes} {a : AssetId} (h : AssetId.fromReader.run s = .ok (a, t)) :
    s = a.serializeTo ++ t := by
  obtain ⟨left, u, hleft, h⟩ := run_bind_ok h
  obtain ⟨⟨⟩, v, hcheck, h⟩ := run_bind_ok h
  obtain ⟨txid, w, htxid, h⟩ := run_bind_ok h
  obtain ⟨index, x, hindex, h⟩ := run_bind_ok h
  obtain ⟨⟨⟩, y, hvalid, h⟩ := run_bind_ok h
  obtain ⟨rfl, rfl⟩ := run_pure_ok.mp h
  obtain ⟨-, rfl⟩ := run_liftM_ok.mp hvalid
  obtain ⟨-, rfl⟩ := run_liftM_ok.mp hcheck
  cases hleft
  rw [readSlice_ok htxid, readUint16LE_ok hindex, AssetId.serializeTo, List.append_assoc,
    Buffer.writeUint16LE, Number.toUint16_ofNat (readUint16LE_lt hindex)]

theorem fromBytes_ok {buf : Bytes} {a : AssetId} (h : AssetId.fromBytes buf = .ok a) :
    Built a ∧ a.serializeTo = buf := by
  obtain ⟨-, h⟩ := then_ok.mp h
  obtain ⟨hlength, h⟩ := then_ok.mp h
  obtain ⟨⟨a', rest⟩, hread, h⟩ := bind_ok.mp h
  obtain rfl := pure_ok.mp h
  have hbuf := fromReader_ok hread
  have hrest : rest = [] := by
    have hsize := congrArg List.length hbuf
    rw [List.length_append, serializeTo_length (assetId_wire hread)] at hsize
    apply List.eq_nil_of_length_eq_zero
    have hbuflength : buf.length = ASSET_ID_SIZE := by simpa using hlength
    omega
  rw [hrest, List.append_nil] at hbuf
  exact ⟨.fromReader hread, hbuf.symm⟩

theorem need_ok {fields : Fields} {name : FieldName} {v : Bytes} : need fields name = .ok v ↔
    fields.lookup name = some v ∧ name.width.all (v.length = ·) = true := by
  unfold need
  split
  · rename_i u hu
    rw [hu, Option.some.injEq]
    split
    · rename_i hwidth
      rw [Except.ok.injEq]
      constructor
      · rintro rfl
        exact ⟨rfl, hwidth⟩
      · exact fun h ↦ h.1
    · rename_i hwidth
      constructor
      · intro h
        cases h
      · rintro ⟨rfl, h⟩
        exact absurd h hwidth
  · rename_i hnone
    rw [hnone]
    constructor
    · intro h
      cases h
    · rintro ⟨h, -⟩
      cases h

theorem optionalAsset_ok {value : Option Bytes} {a : Option AssetId}
    (h : optionalAsset value = .ok a) :
    a.map (·.serializeTo) = value ∧ ∀ x ∈ a, Built x := by
  cases value with
  | none =>
    cases h
    exact ⟨rfl, fun x hx ↦ by cases hx⟩
  | some b =>
    obtain ⟨x, hx, rfl⟩ := map_ok.mp h
    obtain ⟨hbuilt, hbytes⟩ := fromBytes_ok hx
    refine ⟨congrArg some hbytes, ?_⟩
    intro y hy
    cases hy
    exact hbuilt

theorem optionalAsset_serializeTo {a : Option AssetId} (h : ∀ x ∈ a, Built x) :
    optionalAsset (a.map (·.serializeTo)) = .ok a := by
  cases a with
  | none => rfl
  | some x => exact map_ok.mpr ⟨x, fromBytes_serializeTo (h x rfl).wire, rfl⟩

theorem recs_length {offer : Offer} (hwant : ∀ a ∈ offer.wantAsset, Built a)
    (hoffer : ∀ a ∈ offer.offerAsset, Built a) (hswap : offer.swapPkScript.length ≤ 0xffff)
    (hpk : offer.makerPkScript.length ≤ 0xffff) (hkey : offer.makerPublicKey.length ≤ 0xffff)
    (hemulator : offer.emulatorPubkey.length ≤ 0xffff) :
    ∀ r ∈ recs offer, r.2.length ≤ 0xffff := by
  have hasset {a : AssetId} (h : Built a) : a.serializeTo.length ≤ 0xffff := by
    rw [serializeTo_length h.wire]
    decide
  rintro ⟨name, value⟩ hr
  have hvalue := (mem_iff_lookup (recs_nodup offer)).mp hr
  rw [lookup_recs] at hvalue
  cases name with
  | swapPkScript =>
    cases hvalue
    exact hswap
  | wantAmount =>
    cases hvalue
    simp
  | wantAsset =>
    obtain ⟨a, ha, rfl⟩ := Option.map_eq_some_iff.mp hvalue
    exact hasset (hwant a ha)
  | makerPkScript =>
    cases hvalue
    exact hpk
  | makerPublicKey =>
    cases hvalue
    exact hkey
  | emulatorPubkey =>
    cases hvalue
    exact hemulator
  | offerAsset =>
    obtain ⟨a, ha, rfl⟩ := Option.map_eq_some_iff.mp hvalue
    exact hasset (hoffer a ha)

theorem ofFields_ok {fields : Fields} {offer : Offer} (h : ofFields fields = .ok offer) :
    (∀ name, (recs offer).lookup name = fields.lookup name) ∧
      (∃ bs, encodeOffer offer = .ok bs) ∧
      (∀ a ∈ offer.wantAsset, Built a) ∧ (∀ a ∈ offer.offerAsset, Built a) := by
  simp only [ofFields, then_ok, rejectIf_ok] at h
  obtain ⟨-, -, h⟩ := h
  obtain ⟨amount, hamount, h⟩ := bind_ok.mp h
  simp only [then_ok, rejectIf_ok] at h
  obtain ⟨hone, h⟩ := h
  obtain ⟨swapPkScript, hswap, h⟩ := bind_ok.mp h
  obtain ⟨wantAsset, hwant, h⟩ := bind_ok.mp h
  obtain ⟨offerAsset, hoffer, h⟩ := bind_ok.mp h
  obtain ⟨makerPkScript, hpk, h⟩ := bind_ok.mp h
  obtain ⟨makerPublicKey, hkey, h⟩ := bind_ok.mp h
  obtain ⟨emulatorPubkey, hemulator, h⟩ := bind_ok.mp h
  obtain rfl := pure_ok.mp h
  obtain ⟨hamount, hamountwidth⟩ := need_ok.mp hamount
  obtain ⟨hswap, hswapwidth⟩ := need_ok.mp hswap
  obtain ⟨hpk, hpkwidth⟩ := need_ok.mp hpk
  obtain ⟨hkey, hkeywidth⟩ := need_ok.mp hkey
  obtain ⟨hemulator, hemulatorwidth⟩ := need_ok.mp hemulator
  obtain ⟨hwant, hwantbuilt⟩ := optionalAsset_ok hwant
  obtain ⟨hoffer, hofferbuilt⟩ := optionalAsset_ok hoffer
  simp only [FieldName.width, Option.all_some, decide_eq_true_eq] at hamountwidth hswapwidth
  simp only [FieldName.width, Option.all_some, decide_eq_true_eq] at hpkwidth hkeywidth
  simp only [FieldName.width, Option.all_some, decide_eq_true_eq] at hemulatorwidth
  have hbytes : setBigUint 8 (bigUint64 amount) = amount := by
    rw [← hamountwidth]
    exact setBigUint_bigUint64 amount
  have hlt : bigUint64 amount < 2 ^ 64 := by
    have hlt := bigUint64_lt amount
    rwa [hamountwidth] at hlt
  refine ⟨?_, ?_, hwantbuilt, hofferbuilt⟩
  · intro name
    rw [lookup_recs]
    cases name with
    | swapPkScript => exact hswap.symm
    | wantAmount => simp only [Int.toNat_natCast, hbytes, hamount]
    | wantAsset => exact hwant
    | makerPkScript => exact hpk.symm
    | makerPublicKey => exact hkey.symm
    | emulatorPubkey => exact hemulator.symm
    | offerAsset => exact hoffer
  · have hassets : wantAsset.isSome ≠ offerAsset.isSome := by
      rw [← hwant, ← hoffer, Option.isSome_map, Option.isSome_map] at hone
      exact hone
    have hsizes : ∀ r ∈ recs ⟨swapPkScript, bigUint64 amount, wantAsset, offerAsset, makerPkScript,
        makerPublicKey, emulatorPubkey⟩, r.2.length ≤ 0xffff := by
      apply recs_length hwantbuilt hofferbuilt <;> simp only [*] <;> decide
    obtain ⟨bs, hbs⟩ := tlvs_exists hsizes
    refine ⟨bs, encodeOffer_ok.mpr ⟨hassets, hswapwidth, hpkwidth, hkeywidth, hemulatorwidth,
      Int.natCast_nonneg _, Int.ofNat_lt.mpr hlt, hbs⟩⟩

/-- An offer that the encoder accepts is found again in the fields that it wrote. -/
theorem ofFields_recs {fields : Fields} {offer : Offer} {bs : Bytes}
    (h : encodeOffer offer = .ok bs) (hwant : ∀ a ∈ offer.wantAsset, Built a)
    (hoffer : ∀ a ∈ offer.offerAsset, Built a)
    (hlookup : ∀ name, fields.lookup name = (recs offer).lookup name) :
    ofFields fields = .ok offer := by
  obtain ⟨hone, hswapwidth, hpkwidth, hkeywidth, hemulatorwidth, hnonneg, hlt, -⟩ :=
    encodeOffer_ok.mp h
  have hamount : bigUint64 (setBigUint 8 offer.wantAmount.toNat) = offer.wantAmount.toNat := by
    apply bigUint64_setBigUint
    omega
  have hnonempty {a : Option AssetId} (ha : ∀ x ∈ a, Built x) :
      a.map (·.serializeTo) ≠ some [] := by
    intro hnil
    obtain ⟨x, hx, hempty⟩ := Option.map_eq_some_iff.mp hnil
    have hlength := serializeTo_length (ha x hx).wire
    rw [hempty] at hlength
    cases hlength
  have hneed {name : FieldName} {v : Bytes} (hfound : (recs offer).lookup name = some v)
      (hwidth : name.width.all (v.length = ·) = true) : need fields name = .ok v :=
    need_ok.mpr ⟨(hlookup name).trans hfound, hwidth⟩
  have hwantfield := (hlookup .wantAsset).trans (lookup_recs offer .wantAsset)
  have hofferfield := (hlookup .offerAsset).trans (lookup_recs offer .offerAsset)
  unfold ofFields
  rw [hwantfield, hofferfield]
  refine then_ok.mpr ⟨rejectIf_ok.mpr (hnonempty hwant), ?_⟩
  refine then_ok.mpr ⟨rejectIf_ok.mpr (hnonempty hoffer), ?_⟩
  refine bind_ok.mpr ⟨_, hneed (lookup_recs offer .wantAmount) (by simp [FieldName.width]), ?_⟩
  refine then_ok.mpr ⟨rejectIf_ok.mpr ?_, ?_⟩
  · rw [Option.isSome_map, Option.isSome_map]
    exact hone
  refine bind_ok.mpr ⟨_, hneed (lookup_recs offer .swapPkScript)
    (by simp [FieldName.width, hswapwidth]), ?_⟩
  refine bind_ok.mpr ⟨_, optionalAsset_serializeTo hwant, ?_⟩
  refine bind_ok.mpr ⟨_, optionalAsset_serializeTo hoffer, ?_⟩
  refine bind_ok.mpr ⟨_, hneed (lookup_recs offer .makerPkScript)
    (by simp [FieldName.width, hpkwidth]), ?_⟩
  refine bind_ok.mpr ⟨_, hneed (lookup_recs offer .makerPublicKey)
    (by simp [FieldName.width, hkeywidth]), ?_⟩
  refine bind_ok.mpr ⟨_, hneed (lookup_recs offer .emulatorPubkey)
    (by simp [FieldName.width, hemulatorwidth]), ?_⟩
  rw [hamount, Int.toNat_of_nonneg hnonneg]
  rfl

/-- The offers whose asset ids are asset ids. -/
structure Sound (offer : Offer) : Prop where
  wantAsset : ∀ a ∈ offer.wantAsset, Built a
  offerAsset : ∀ a ∈ offer.offerAsset, Built a

theorem decodeOffer_encodeOffer {offer : Offer} {bs : Bytes} (hoffer : Sound offer)
    (h : encodeOffer offer = .ok bs) : decodeOffer bs = .ok offer := by
  obtain ⟨-, -, -, -, -, -, -, hbs⟩ := encodeOffer_ok.mp h
  have hnodup : (((recs offer).reverse ++ []).map Prod.fst).Nodup := by
    rw [List.append_nil, List.map_reverse, List.nodup_reverse]
    exact recs_nodup offer
  refine bind_ok.mpr ⟨_, readRecords_tlvs hbs (Nat.le_refl _) hnodup, ?_⟩
  apply ofFields_recs h hoffer.wantAsset hoffer.offerAsset
  intro name
  rw [List.append_nil] at hnodup ⊢
  apply Option.ext
  intro value
  rw [← mem_iff_lookup hnodup, ← mem_iff_lookup (recs_nodup offer), List.mem_reverse]

/-- `bs` is written with the records of `data`, each of them once, in some order. -/
def SameRecords (data bs : Bytes) : Prop :=
  ∃ rs rs', tlvs rs = .ok data ∧ tlvs rs' = .ok bs ∧ rs.Perm rs' ∧ (rs.map Prod.fst).Nodup

theorem encodeOffer_decodeOffer {offer : Offer} {data : Bytes} (h : decodeOffer data = .ok offer) :
    Sound offer ∧ ∃ bs, encodeOffer offer = .ok bs ∧ SameRecords data bs := by
  obtain ⟨fields, hread, hfields⟩ := bind_ok.mp h
  obtain ⟨rs, hrs, rfl, hkeys⟩ := readRecords_ok hread List.nodup_nil
  obtain ⟨hlookup, ⟨bs, hbs⟩, hwant, hoffer⟩ := ofFields_ok hfields
  rw [List.append_nil] at hlookup hkeys
  refine ⟨⟨hwant, hoffer⟩, bs, hbs, rs, recs offer, hrs, ?_, ?_, ?_⟩
  · exact (encodeOffer_ok.mp hbs).2.2.2.2.2.2.2
  · have hperm := perm_of_lookup (recs_nodup offer) hkeys hlookup
    exact (hperm.trans (List.reverse_perm rs)).symm
  · rw [List.map_reverse, List.nodup_reverse] at hkeys
    exact hkeys

/-- The offer packet is canonical: an offer is read back as it was written, and a payload that is
read is written again with its own records. -/
theorem offer_canonical :
    (∀ offer bs, Sound offer → encodeOffer offer = .ok bs → decodeOffer bs = .ok offer) ∧
      ∀ data offer, decodeOffer data = .ok offer →
        ∃ bs, encodeOffer offer = .ok bs ∧ SameRecords data bs := by
  refine ⟨fun offer bs ↦ decodeOffer_encodeOffer, ?_⟩
  intro data offer h
  exact (encodeOffer_decodeOffer h).2

def boughtAsset : AssetId := ⟨List.replicate 32 0xaa, .ofNat 0⟩

def buyOffer : Offer where
  swapPkScript := 0x51 :: 0x20 :: List.replicate 32 1
  wantAmount := 50000
  wantAsset := some boughtAsset
  offerAsset := none
  makerPkScript := 0x51 :: 0x20 :: List.replicate 32 2
  makerPublicKey := List.replicate 32 2
  emulatorPubkey := List.replicate 32 3

theorem buyOffer_sound : Sound buyOffer where
  wantAsset := by
    rintro a ⟨⟩
    exact .fromReader (s := boughtAsset.serializeTo) (t := []) rfl
  offerAsset := by
    rintro a ⟨⟩

theorem offer_canonical_sample : ∃ bs, encodeOffer buyOffer = .ok bs ∧
    decodeOffer bs = .ok buyOffer ∧
      ∃ bs', encodeOffer buyOffer = .ok bs' ∧ SameRecords bs bs' := by
  obtain ⟨bs, hbs⟩ : ∃ bs, encodeOffer buyOffer = .ok bs := ⟨_, rfl⟩
  have hread := offer_canonical.1 buyOffer bs buyOffer_sound hbs
  exact ⟨bs, hbs, hread, offer_canonical.2 bs buyOffer hread⟩

end ArkadeSdk.Offer
