import ArkadeSdk.Lib.ScriptCoder

namespace ArkadeSdk

open WireFormat JsNumber BtcScript ScriptCoder

def ARKADE_OP : List (String × UInt8) :=
  [("MERKLEBRANCHVERIFY", 0xb3), ("DIGEST", 0xc3), ("SHA256INITIALIZE", 0xc4),
    ("SHA256UPDATE", 0xc5), ("SHA256FINALIZE", 0xc6), ("INSPECTINPUTOUTPOINT", 0xc7),
    ("INSPECTINPUTARKADESCRIPTHASH", 0xc8), ("INSPECTINPUTVALUE", 0xc9),
    ("INSPECTINPUTSCRIPTPUBKEY", 0xca), ("INSPECTINPUTSEQUENCE", 0xcb),
    ("CHECKSIGFROMSTACK", 0xcc), ("PUSHCURRENTINPUTINDEX", 0xcd),
    ("INSPECTINPUTARKADEWITNESSHASH", 0xce), ("INSPECTOUTPUTVALUE", 0xcf),
    ("INSPECTOUTPUTSCRIPTPUBKEY", 0xd1), ("INSPECTVERSION", 0xd2), ("INSPECTLOCKTIME", 0xd3),
    ("INSPECTNUMINPUTS", 0xd4), ("INSPECTNUMOUTPUTS", 0xd5), ("TXWEIGHT", 0xd6),
    ("NUM2BIN", 0xd7), ("BIN2NUM", 0xd8), ("REVERSEBYTES", 0xd9), ("MODEXP", 0xda),
    ("ECADD", 0xe0), ("ECMUL", 0xe1), ("ECPAIRING", 0xe2), ("ECMULSCALARVERIFY", 0xe3),
    ("TWEAKVERIFY", 0xe4), ("INSPECTNUMASSETGROUPS", 0xe5), ("INSPECTASSETGROUPASSETID", 0xe6),
    ("INSPECTASSETGROUPCTRL", 0xe7), ("FINDASSETGROUPBYASSETID", 0xe8),
    ("INSPECTASSETGROUPMETADATAHASH", 0xe9), ("INSPECTASSETGROUPNUM", 0xea),
    ("INSPECTASSETGROUP", 0xeb), ("INSPECTASSETGROUPSUM", 0xec), ("INSPECTOUTASSETCOUNT", 0xed),
    ("INSPECTOUTASSETAT", 0xee), ("INSPECTOUTASSETLOOKUP", 0xef), ("INSPECTINASSETCOUNT", 0xf0),
    ("INSPECTINASSETAT", 0xf1), ("INSPECTINASSETLOOKUP", 0xf2), ("TXID", 0xf3),
    ("INSPECTPACKET", 0xf4), ("INSPECTINPUTPACKET", 0xf5), ("SIGHASH", 0xf6)]

namespace BigNum

def BIGNUM_MAX_BYTES : ℕ := 520

def encode (value : ℤ) : Except Message Bytes :=
  let result := ScriptNumber.encode value
  if result.length > BIGNUM_MAX_BYTES then
    .error [.text "BigNum value exceeds 520 bytes (encoded to ", .value (.ofNat result.length),
      .text " bytes)"]
  else .ok result

theorem encode_ok {value : ℤ} {bytes : Bytes} :
    encode value = .ok bytes ↔
      bytes = ScriptNumber.encode value ∧ (ScriptNumber.encode value).length ≤ BIGNUM_MAX_BYTES := by
  unfold encode
  dsimp only
  split
  · rename_i h
    simp only [reduceCtorEq, false_iff, not_and, not_le]
    exact fun _ ↦ h
  · rename_i h
    simp only [Except.ok.injEq]
    exact ⟨fun he ↦ ⟨he.symm, by omega⟩, fun he ↦ he.1.symm⟩

end BigNum

namespace ArkadeScript

variable (OP : OpTable)

/-- `ARKADE_OPS[name]`, where an extension opcode shadows the Bitcoin one. -/
def code (name : String) : Option UInt8 :=
  match ARKADE_OP.lookup name with
  | some b => some b
  | none => OP.code name

/-- `ArkadeOPNames[code]`, which the extension opcodes fill last. -/
def name (b : UInt8) : Option String :=
  match ARKADE_OP.find? (·.2 == b) with
  | some p => some p.1
  | none => OP.name b

/-- A data push; the bytes of a small number become its opcode. -/
def push (o : Bytes) : Except Message Bytes :=
  match o with
  | [b] =>
    if 1 ≤ b.toNat ∧ b.toNat ≤ 16 then .ok [UInt8.ofNat (0x50 + b.toNat)]
    else if b = 0x81 then .ok [0x4f]
    else pushData o
  | _ => pushData o

/-- `ArkadeScript.encode`, one item at a time. -/
def encodeItem : Item → Except Message Bytes
  | .op o => match code OP o with
    | none => .error (message ("Unknown opcode=" ++ o))
    | some v => .ok [v]
  | .num n => do
    let o ← BigNum.encode n
    push o
  | .data o => push o

def decodeOp (cur : UInt8) : Except Message Item :=
  if cur = 0 then .ok (.num 0)
  else if 0x51 ≤ cur.toNat ∧ cur.toNat ≤ 0x60 then .ok (.num (cur.toNat - 0x50))
  else if cur = 0x4f then .ok (.num (-1))
  else match name OP cur with
    | none => .error [.text "Unknown opcode=", .value (.ofNat cur.toNat)]
    | some op => .ok (.op op)

def encode (value : List Item) : Except Message Bytes := encodeWith (encodeItem OP) value

def decode (script : Bytes) : Except Message (List Item) := decodeWith (decodeOp OP) script

variable {OP}

def pushed : Item → Bytes
  | .op _ => []
  | .num n => ScriptNumber.encode n
  | .data b => b

/-- What the decoder makes of a push. -/
def settleBytes (o : Bytes) : Item :=
  match o with
  | [] => .num 0
  | [b] =>
    if 1 ≤ b.toNat ∧ b.toNat ≤ 16 then .num b.toNat
    else if b = 0x81 then .num (-1)
    else .data [b]
  | o => .data o

/-- What is left of an item once it has been written and read back. -/
def settle : Item → Item
  | .op o => .op o
  | .num n => settleBytes (ScriptNumber.encode n)
  | .data b => settleBytes b

/-- An opcode that is decoded under its own name. -/
def Named (OP : OpTable) (x : Item) : Prop :=
  ∀ o, x = .op o → ∃ b, code OP o = some b ∧ 0x60 < b.toNat ∧ name OP b = some o

theorem named_arkade {p : String × UInt8} (hp : p ∈ ARKADE_OP) : Named OP (.op p.1) := by
  rintro o h
  cases h
  have hall : ∀ p ∈ ARKADE_OP, ARKADE_OP.lookup p.1 = some p.2 ∧ 0x60 < p.2.toNat ∧
      ARKADE_OP.find? (·.2 == p.2) = some p := by decide
  obtain ⟨hcode, hlt, hname⟩ := hall p hp
  exact ⟨p.2, by rw [code, hcode], hlt, by rw [name, hname]⟩

theorem named_standard {p : String × UInt8} (hp : p ∈ standardCodes) : Named OP (.op p.1) := by
  rintro o h
  cases h
  have hall : ∀ p ∈ standardCodes, ARKADE_OP.lookup p.1 = none ∧ 0x60 < p.2.toNat ∧
      ARKADE_OP.find? (·.2 == p.2) = none := by decide
  obtain ⟨hcode, hlt, hname⟩ := hall p hp
  have hOP := OP.standard p hp
  exact ⟨p.2, by rw [code, hcode, hOP], hlt, by rw [name, hname, OP.name_code hOP hlt]⟩

theorem named_num (n : ℤ) : Named OP (.num n) := by simp [Named]

theorem named_data (b : Bytes) : Named OP (.data b) := by simp [Named]

theorem push_readBack {o bs : Bytes} (h : push o = .ok bs) :
    bs ≠ [] ∧ Reads (readItem (decodeOp OP)) bs (settleBytes o) := by
  unfold push at h
  split at h
  · rename_i b
    split at h
    · rename_i hb
      cases h
      have hbyte : (UInt8.ofNat (0x50 + b.toNat)).toNat = 0x50 + b.toNat := toNat_byte (by omega)
      have h0 : UInt8.ofNat (0x50 + b.toNat) ≠ 0 := by
        intro he
        rw [he, UInt8.toNat_zero] at hbyte
        omega
      refine ⟨by simp, reads_op (by rw [hbyte]; unfold PUSHDATA4; omega) ?_⟩
      have hnum : ((0x50 + b.toNat : ℕ) : ℤ) - 0x50 = b.toNat := by omega
      rw [decodeOp, if_neg h0, hbyte, if_pos (by omega), settleBytes, if_pos hb, hnum]
    · rename_i hb
      split at h
      · rename_i hb'
        cases h
        refine ⟨by simp, reads_op (by decide) ?_⟩
        rw [settleBytes, if_neg hb, if_pos hb']
        rfl
      · rename_i hb'
        rw [settleBytes, if_neg hb, if_neg hb']
        exact (reads_pushData (by simp) h).symm
  · rename_i hne
    cases o with
    | nil =>
      cases h
      exact ⟨by simp, reads_op (by decide) rfl⟩
    | cons b o =>
      cases o with
      | nil => exact absurd rfl (hne b)
      | cons b' o => exact (reads_pushData (by simp) h).symm

theorem readBack_settle {x : Item} (h : Named OP x) :
    ReadBack (decodeOp OP) (encodeItem OP) x (settle x) := by
  intro bs hbs
  cases x with
  | op o =>
    obtain ⟨b, hcode, hb, hname⟩ := h o rfl
    simp only [encodeItem, hcode, Except.ok.injEq] at hbs
    subst hbs
    refine ⟨by simp, reads_op (by unfold PUSHDATA4; omega) ?_⟩
    have h0 : b ≠ 0 := by
      rintro rfl
      simp at hb
    have h4f : b ≠ 0x4f := by
      rintro rfl
      simp at hb
    simp only [decodeOp, if_neg h0, if_neg h4f, hname]
    rw [if_neg (by omega), settle]
  | num n =>
    obtain ⟨o, ho, hbs⟩ := bind_ok.mp hbs
    obtain ⟨rfl, -⟩ := BigNum.encode_ok.mp ho
    exact push_readBack hbs
  | data o => exact push_readBack hbs

theorem push_ok_of_le {o : Bytes} (h : o.length ≤ 0xffffffff) : ∃ bs, push o = .ok bs := by
  unfold push
  split
  · split
    · exact ⟨_, rfl⟩
    · split
      · exact ⟨_, rfl⟩
      · exact pushData_ok_of_le h
  · exact pushData_ok_of_le h

theorem encodeItem_num {n : ℤ} : (∃ bs, encodeItem OP (.num n) = .ok bs) ↔
    (ScriptNumber.encode n).length ≤ BigNum.BIGNUM_MAX_BYTES := by
  constructor
  · rintro ⟨bs, h⟩
    obtain ⟨o, ho, -⟩ := bind_ok.mp h
    exact (BigNum.encode_ok.mp ho).2
  · intro h
    obtain ⟨bs, hbs⟩ := push_ok_of_le (o := ScriptNumber.encode n)
      (by unfold BigNum.BIGNUM_MAX_BYTES at h; omega)
    exact ⟨bs, bind_ok.mpr ⟨_, BigNum.encode_ok.mpr ⟨rfl, h⟩, hbs⟩⟩

theorem encodeItem_op {o : String} (h : Named OP (.op o)) : ∃ bs, encodeItem OP (.op o) = .ok bs := by
  obtain ⟨b, hcode, -⟩ := h o rfl
  exact ⟨[b], by simp [encodeItem, hcode]⟩

theorem decode_encode {xs : List Item} {bs : Bytes} (h : ∀ x ∈ xs, Named OP x)
    (hbs : encode OP xs = .ok bs) : decode OP bs = .ok (xs.map settle) :=
  decodeWith_encodeWith (fun x hx ↦ readBack_settle (h x hx)) hbs

theorem pushed_settleBytes (o : Bytes) : pushed (settleBytes o) = o := by
  match o with
  | [] => simp [settleBytes, pushed]
  | [b] =>
    simp only [settleBytes]
    split
    · rw [pushed, ScriptNumber.encode_of_lt (by omega) (by omega), UInt8.ofNat_toNat]
    · split
      · rename_i hb
        subst hb
        decide
      · rfl
  | b :: b' :: o => rfl

theorem pushed_settle (x : Item) : pushed (settle x) = pushed x := by
  cases x with
  | op o => rfl
  | num n => exact pushed_settleBytes _
  | data b => exact pushed_settleBytes _

theorem settleBytes_ne_op (o : Bytes) (name : String) : settleBytes o ≠ .op name := by
  match o with
  | [] => simp [settleBytes]
  | [b] =>
    simp only [settleBytes]
    split
    · simp
    · split <;> simp
  | b :: b' :: o => simp [settleBytes]

end ArkadeScript

end ArkadeSdk
