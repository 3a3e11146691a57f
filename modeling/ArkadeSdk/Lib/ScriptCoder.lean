import ArkadeSdk.Lib.BtcScript

namespace ScriptCoder

open WireFormat JsNumber BtcScript

/-- Opcodes by the names and codes they have on the Bitcoin network. -/
def standardCodes : List (String × UInt8) :=
  [("VERIFY", 0x69), ("RETURN", 0x6a), ("DROP", 0x75), ("DUP", 0x76), ("SIZE", 0x82),
    ("EQUAL", 0x87), ("EQUALVERIFY", 0x88), ("NUMEQUAL", 0x9c), ("GREATERTHANOREQUAL", 0xa2),
    ("HASH160", 0xa9), ("CHECKSIG", 0xac), ("CHECKSIGVERIFY", 0xad), ("CHECKLOCKTIMEVERIFY", 0xb1),
    ("CHECKSEQUENCEVERIFY", 0xb2), ("CHECKSIGADD", 0xba)]

/-- The script library's `OP` enumeration. Above the number opcodes a code has one name. -/
structure OpTable where
  code : String → Option UInt8
  name : UInt8 → Option String
  name_code : ∀ {s b}, code s = some b → 0x60 < b.toNat → name b = some s
  standard : ∀ p ∈ standardCodes, code p.1 = some p.2

/-- The table that holds the opcodes above and no others. -/
def standardOps : OpTable where
  code s := (standardCodes.find? (·.1 == s)).map (·.2)
  name b := (standardCodes.find? (·.2 == b)).map (·.1)
  name_code {s b} h _ := by
    obtain ⟨p, hp, rfl⟩ := Option.map_eq_some_iff.mp h
    have hmem := List.mem_of_find?_eq_some hp
    have hs := List.find?_some hp
    obtain rfl : p.1 = s := by simpa using hs
    have hall : ∀ p ∈ standardCodes,
        (standardCodes.find? (·.2 == p.2)).map (·.1) = some p.1 := by decide
    exact hall p hmem
  standard := by decide

variable (OP : OpTable)

/-- The library's `Script.encode`, one item at a time. -/
def encodeItem : Item → Except Message Bytes
  | .op name => match OP.code name with
    | none => .error (message ("Unknown opcode=" ++ name))
    | some b => .ok [b]
  | .num n =>
    if n = 0 then .ok [0]
    else if 1 ≤ n ∧ n ≤ 16 then .ok [UInt8.ofNat (0x50 + n.toNat)]
    else pushData (ScriptNumber.encode n)
  | .data b => pushData b

/-- What a byte that starts no push means to `Script.decode`. -/
def decodeOp (cur : UInt8) : Except Message Item :=
  if cur = 0 then .ok (.num 0)
  else if 0x51 ≤ cur.toNat ∧ cur.toNat ≤ 0x60 then .ok (.num (cur.toNat - 0x50))
  else match OP.name cur with
    | none => .error [.text "Unknown opcode=", .value (.ofNat cur.toNat)]
    | some name => .ok (.op name)

def encode (value : List Item) : Except Message Bytes := encodeWith (encodeItem OP) value

def decode (script : Bytes) : Except Message (List Item) := decodeWith (decodeOp OP) script

variable {OP}

/-- What is left of an item once it has been written and read back. -/
def settle : Item → Item
  | .op name => .op name
  | .num n => if 0 ≤ n ∧ n ≤ 16 then .num n else .data (ScriptNumber.encode n)
  | .data b => if b = [] then .num 0 else .data b

@[simp] theorem settle_op (name : String) : settle (.op name) = .op name := rfl

theorem settle_data {b : Bytes} (h : b ≠ []) : settle (.data b) = .data b := by
  rw [settle, if_neg h]

/-- An opcode that is neither a push nor a number. -/
def Named (OP : OpTable) (x : Item) : Prop :=
  ∀ name, x = .op name → ∃ b, OP.code name = some b ∧ 0x60 < b.toNat

theorem named_num (n : ℤ) : Named OP (.num n) := by simp [Named]

theorem named_data (b : Bytes) : Named OP (.data b) := by simp [Named]

theorem named_standard {p : String × UInt8} (hp : p ∈ standardCodes) : Named OP (.op p.1) := by
  rintro name h
  cases h
  refine ⟨p.2, OP.standard p hp, ?_⟩
  have hall : ∀ p ∈ standardCodes, 0x60 < p.2.toNat := by decide
  exact hall p hp

theorem readBack_settle {x : Item} (h : Named OP x) :
    ReadBack (decodeOp OP) (encodeItem OP) x (settle x) := by
  intro bs hbs
  cases x with
  | op name =>
    obtain ⟨b, hcode, hb⟩ := h name rfl
    simp only [encodeItem, hcode, Except.ok.injEq] at hbs
    subst hbs
    refine ⟨by simp, reads_op (by unfold PUSHDATA4; omega) ?_⟩
    have h0 : b ≠ 0 := by
      rintro rfl
      simp at hb
    simp only [decodeOp, if_neg h0, OP.name_code hcode hb]
    rw [if_neg (by omega), settle]
  | num n =>
    simp only [encodeItem] at hbs
    split at hbs
    · rename_i hn
      subst hn
      cases hbs
      exact ⟨by simp, reads_op (by decide) rfl⟩
    · split at hbs
      · rename_i hn hn'
        cases hbs
        have hbyte : (UInt8.ofNat (0x50 + n.toNat)).toNat = 0x50 + n.toNat := toNat_byte (by omega)
        refine ⟨by simp, reads_op (by rw [hbyte]; unfold PUSHDATA4; omega) ?_⟩
        have h0 : UInt8.ofNat (0x50 + n.toNat) ≠ 0 := by
          intro he
          rw [he] at hbyte
          simp only [UInt8.toNat_zero] at hbyte
          omega
        have hnum : ((0x50 + n.toNat : ℕ) : ℤ) - 0x50 = n := by omega
        rw [decodeOp, if_neg h0, hbyte, if_pos (by omega), settle, if_pos (by omega), hnum]
      · rename_i hn hn'
        rw [settle, if_neg (by omega)]
        exact (reads_pushData (ScriptNumber.encode_ne_nil hn) hbs).symm
  | data b =>
    by_cases hb : b = []
    · subst hb
      cases hbs
      exact ⟨by simp, reads_op (by decide) rfl⟩
    · rw [settle, if_neg hb]
      exact (reads_pushData hb hbs).symm

/-- A script of named opcodes, numbers and pushes is read back item by item. -/
theorem decode_encode {xs : List Item} {bs : Bytes} (h : ∀ x ∈ xs, Named OP x)
    (hbs : encode OP xs = .ok bs) : decode OP bs = .ok (xs.map settle) :=
  decodeWith_encodeWith (fun x hx ↦ readBack_settle (h x hx)) hbs

/-- An item whose push length has a four-byte field. -/
def Short : Item → Prop
  | .op _ => True
  | .num n => (ScriptNumber.encode n).length ≤ 0xffffffff
  | .data b => b.length ≤ 0xffffffff

theorem encode_succeeds {xs : List Item} (h : ∀ x ∈ xs, Named OP x ∧ Short x) :
    ∃ bs, encode OP xs = .ok bs := by
  refine encodeWith_exists.mpr fun x hx ↦ ?_
  obtain ⟨hnamed, hshort⟩ := h x hx
  cases x with
  | op name =>
    obtain ⟨b, hcode, -⟩ := hnamed name rfl
    exact ⟨[b], by simp [encodeItem, hcode]⟩
  | num n =>
    simp only [encodeItem]
    split
    · exact ⟨_, rfl⟩
    · split
      · exact ⟨_, rfl⟩
      · exact pushData_ok_of_le hshort
  | data b => exact pushData_ok_of_le hshort

/-- Two scripts one after the other, the first of which ends on an item boundary. -/
theorem decode_append {s t : Bytes} {xs ys : List Item} (hs : decode OP s = .ok xs)
    (ht : decode OP t = .ok ys) : decode OP (s ++ t) = .ok (xs ++ ys) := by
  have h := decodeWith_append (t := t) hs
  rw [show decodeWith (decodeOp OP) t = .ok ys from ht] at h
  exact h

theorem encode_append {xs ys : List Item} {bs cs : Bytes} (hx : encode OP xs = .ok bs)
    (hy : encode OP ys = .ok cs) : encode OP (xs ++ ys) = .ok (bs ++ cs) :=
  encodeWith_append.mpr ⟨bs, cs, hx, hy, rfl⟩

/-- Writing what is left of an item writes the same bytes. -/
theorem encodeItem_settle (x : Item) : encodeItem OP (settle x) = encodeItem OP x := by
  cases x with
  | op name => rfl
  | num n =>
    by_cases hn : 0 ≤ n ∧ n ≤ 16
    · rw [settle, if_pos hn]
    · rw [settle, if_neg hn, encodeItem, encodeItem, if_neg (by omega), if_neg (by omega)]
  | data b =>
    by_cases hb : b = []
    · subst hb
      rfl
    · rw [settle, if_neg hb]

theorem encode_settle (xs : List Item) : encode OP (xs.map settle) = encode OP xs := by
  induction xs with
  | nil => rfl
  | cons x xs ih =>
    simp only [encode] at ih
    simp only [encode, List.map_cons, encodeWith, encodeItem_settle, ih]

structure Canonical (OP : OpTable) (script : Bytes) (asm : List Item) : Prop where
  decode : decode OP script = .ok asm
  encode : encode OP asm = .ok script

theorem canonical_of_encode {xs : List Item} {bs : Bytes} (h : ∀ x ∈ xs, Named OP x)
    (hbs : encode OP xs = .ok bs) : Canonical OP bs (xs.map settle) :=
  ⟨decode_encode h hbs, (encode_settle xs).trans hbs⟩

theorem Canonical.append {s t : Bytes} {xs ys : List Item} (hs : Canonical OP s xs)
    (ht : Canonical OP t ys) : Canonical OP (s ++ t) (xs ++ ys) :=
  ⟨decode_append hs.decode ht.decode, encode_append hs.encode ht.encode⟩

theorem Canonical.unique {s : Bytes} {xs ys : List Item} (hx : Canonical OP s xs)
    (hy : Canonical OP s ys) : xs = ys := by
  have h := hx.decode.symm.trans hy.decode
  cases h
  rfl

theorem Canonical.ne_nil {s : Bytes} {xs : List Item} (h : Canonical OP s xs) (hxs : xs ≠ []) :
    s ≠ [] := by
  rintro rfl
  have hnil : ScriptCoder.decode OP [] = .ok [] := decodeWith_nil
  have hd := h.decode.symm.trans hnil
  cases hd
  exact hxs rfl

end ScriptCoder
