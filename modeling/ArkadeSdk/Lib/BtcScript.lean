import ArkadeSdk.Lib.ScriptNumber

namespace BtcScript

open WireFormat JsNumber

/-! Bitcoin script bytes, as the script coders of the JavaScript libraries see
them: opcode names, numbers and data pushes. -/

inductive Item
  | op (name : String)
  | num (n : ℤ)
  | data (b : Bytes)
  deriving DecidableEq, Repr

/-- `typeof item === "string"`. -/
def Item.isOp : Item → Bool
  | .op _ => true
  | _ => false

/-- The push opcodes, which take no name. -/
def PUSHDATA1 : ℕ := 0x4c
def PUSHDATA2 : ℕ := 0x4d
def PUSHDATA4 : ℕ := 0x4e

/-- One data push, in the shortest of the four length classes. -/
def pushData (b : Bytes) : Except Message Bytes :=
  if b.length < PUSHDATA1 then .ok (UInt8.ofNat b.length :: b)
  else if b.length ≤ 0xff then .ok (0x4c :: UInt8.ofNat b.length :: b)
  else if b.length ≤ 0xffff then .ok (0x4d :: (uint16LE b.length ++ b))
  else if b.length ≤ 0xffffffff then .ok (0x4e :: (uint32LE b.length ++ b))
  else .error (message "data push is too long")

theorem pushData_ok_of_le {b : Bytes} (h : b.length ≤ 0xffffffff) : ∃ bs, pushData b = .ok bs := by
  unfold pushData
  split
  · exact ⟨_, rfl⟩
  · split
    · exact ⟨_, rfl⟩
    · split
      · exact ⟨_, rfl⟩
      · exact ⟨_, rfl⟩

/-- The length of the push that opcode `cur` starts. -/
def readPushLength (cur : UInt8) : Reader ℕ :=
  if cur.toNat < PUSHDATA1 then pure cur.toNat
  else if cur.toNat = PUSHDATA1 then UInt8.toNat <$> readByte
  else if cur.toNat = PUSHDATA2 then readUint16LE
  else readUint32LE

variable (decodeOp : UInt8 → Except Message Item)

/-- One item of a script; `decodeOp` says what every byte that is no push means. -/
def readItem : Reader Item := do
  let cur ← readByte
  if 0 < cur.toNat ∧ cur.toNat ≤ PUSHDATA4 then
    let len ← readPushLength cur
    let b ← readSlice len
    return .data b
  else liftM (decodeOp cur)

variable {decodeOp}

theorem readByte_ok {s t : Bytes} {b : UInt8} (h : readByte.run s = .ok (b, t)) : s = b :: t := by
  cases s with
  | nil => cases h
  | cons c s =>
    cases h
    rfl

theorem readSlice_ok {n : ℕ} {s t bs : Bytes} (h : (readSlice n).run s = .ok (bs, t)) :
    s = bs ++ t := by
  simp only [StateT.run, readSlice] at h
  split at h
  · cases h
  · cases h
    exact (List.take_append_drop n s).symm

/-- A reader consumes a prefix and would read the same one from any longer input. -/
def Prefixed {α : Type} (r : Reader α) : Prop :=
  ∀ s a t, r.run s = .ok (a, t) → ∃ bs, s = bs ++ t ∧ Reads r bs a

theorem prefixed_bind {α β : Type} {r : Reader α} {f : α → Reader β} (h : Prefixed r)
    (hf : ∀ a, Prefixed (f a)) : Prefixed (r >>= f) := by
  intro s b t hrun
  obtain ⟨a, u, ha, hb⟩ := run_bind_ok hrun
  obtain ⟨bs, rfl, hbs⟩ := h s a u ha
  obtain ⟨cs, rfl, hcs⟩ := hf a u b t hb
  exact ⟨bs ++ cs, (List.append_assoc bs cs t).symm, hbs.bind hcs⟩

theorem prefixed_pure {α : Type} (a : α) : Prefixed (pure a : Reader α) := by
  intro s b t h
  obtain ⟨rfl, rfl⟩ := run_pure_ok.mp h
  exact ⟨[], rfl, reads_pure a⟩

theorem prefixed_liftM {α : Type} (x : Except Message α) : Prefixed (liftM x : Reader α) := by
  intro s a t h
  obtain ⟨hx, rfl⟩ := run_liftM_ok.mp h
  exact ⟨[], rfl, reads_liftM hx⟩

theorem prefixed_readByte : Prefixed readByte := by
  intro s b t h
  obtain rfl := readByte_ok h
  exact ⟨[b], rfl, reads_byte b⟩

theorem prefixed_readSlice (n : ℕ) : Prefixed (readSlice n) := by
  intro s bs t h
  obtain rfl := readSlice_ok h
  refine ⟨bs, rfl, ?_⟩
  rw [← readSlice_length h]
  exact reads_slice bs

theorem prefixed_readUint16LE : Prefixed readUint16LE := by
  intro s n t h
  match s, h with
  | a :: b :: s, h =>
    cases h
    exact ⟨[a, b], rfl, fun _ ↦ rfl⟩

theorem prefixed_readUint32LE : Prefixed readUint32LE := by
  intro s n t h
  match s, h with
  | a :: b :: c :: d :: s, h =>
    cases h
    exact ⟨[a, b, c, d], rfl, fun _ ↦ rfl⟩

theorem prefixed_readPushLength (cur : UInt8) : Prefixed (readPushLength cur) := by
  unfold readPushLength
  split
  · exact prefixed_pure _
  · split
    · rw [map_eq_pure_bind]
      exact prefixed_bind prefixed_readByte fun _ ↦ prefixed_pure _
    · split
      · exact prefixed_readUint16LE
      · exact prefixed_readUint32LE

/-- What an item's first byte decides, once it has been read. -/
theorem prefixed_readItem_tail (cur : UInt8) :
    Prefixed (if 0 < cur.toNat ∧ cur.toNat ≤ PUSHDATA4 then do
      let len ← readPushLength cur
      let b ← readSlice len
      return .data b
    else liftM (decodeOp cur) : Reader Item) := by
  split
  · exact prefixed_bind (prefixed_readPushLength cur) fun _ ↦
      prefixed_bind (prefixed_readSlice _) fun _ ↦ prefixed_pure _
  · exact prefixed_liftM _

theorem readItem_ok {s t : Bytes} {x : Item} (h : (readItem decodeOp).run s = .ok (x, t)) :
    ∃ bs, bs ≠ [] ∧ s = bs ++ t ∧ Reads (readItem decodeOp) bs x := by
  obtain ⟨cur, u, hcur, h⟩ := run_bind_ok h
  obtain rfl := readByte_ok hcur
  obtain ⟨bs, rfl, hbs⟩ := prefixed_readItem_tail cur u x t h
  exact ⟨cur :: bs, by simp, rfl, (reads_byte cur).bind hbs⟩

theorem readItem_length {s t : Bytes} {x : Item} (h : (readItem decodeOp).run s = .ok (x, t)) :
    t.length < s.length := by
  obtain ⟨bs, hne, rfl, -⟩ := readItem_ok h
  have hpos := List.length_pos_iff.mpr hne
  simp only [List.length_append]
  omega

variable (decodeOp)

/-- `while (!r.isEnd()) out.push(item)`. -/
def decodeWith (s : Bytes) : Except Message (List Item) :=
  match s with
  | [] => .ok []
  | b :: s =>
    match h : (readItem decodeOp).run (b :: s) with
    | .error e => .error e
    | .ok (x, t) =>
      have := readItem_length h
      (x :: ·) <$> decodeWith t
termination_by s.length
decreasing_by exact this

variable {decodeOp}

@[simp] theorem decodeWith_nil : decodeWith decodeOp [] = .ok [] := by rw [decodeWith]

theorem decodeWith_reads {bs rest : Bytes} {x : Item} (h : Reads (readItem decodeOp) bs x)
    (hne : bs ≠ []) : decodeWith decodeOp (bs ++ rest) = (x :: ·) <$> decodeWith decodeOp rest := by
  cases bs with
  | nil => exact absurd rfl hne
  | cons b bs =>
    have hr := h rest
    rw [List.cons_append] at hr ⊢
    rw [decodeWith]
    split
    · rename_i e he
      rw [hr] at he
      cases he
    · rename_i y t hy
      rw [hr] at hy
      cases hy
      rfl

theorem decodeWith_cons_ok {s : Bytes} {xs : List Item} (hne : s ≠ [])
    (h : decodeWith decodeOp s = .ok xs) :
    ∃ bs t x ys, bs ≠ [] ∧ s = bs ++ t ∧ Reads (readItem decodeOp) bs x ∧
      decodeWith decodeOp t = .ok ys ∧ xs = x :: ys := by
  cases s with
  | nil => exact absurd rfl hne
  | cons b s =>
    rw [decodeWith] at h
    split at h
    · cases h
    · rename_i x t hx
      obtain ⟨bs, hbs, hs, hread⟩ := readItem_ok hx
      cases hys : decodeWith decodeOp t with
      | error e =>
        rw [hys] at h
        cases h
      | ok ys =>
        rw [hys] at h
        cases h
        exact ⟨bs, t, x, ys, hbs, hs, hread, hys, rfl⟩

/-- Decoding a script that ends on an item boundary leaves the rest to be decoded alone. -/
theorem decodeWith_append {s t : Bytes} {xs : List Item} (h : decodeWith decodeOp s = .ok xs) :
    decodeWith decodeOp (s ++ t) = (xs ++ ·) <$> decodeWith decodeOp t := by
  induction hn : s.length using Nat.strong_induction_on generalizing s xs with
  | _ n ih =>
    by_cases hs : s = []
    · subst hs
      rw [decodeWith_nil] at h
      cases h
      cases hd : decodeWith decodeOp t <;> simp [hd]
    · obtain ⟨bs, u, x, ys, hbs, rfl, hread, hys, rfl⟩ := decodeWith_cons_ok hs h
      have hpos := List.length_pos_iff.mpr hbs
      rw [List.append_assoc, decodeWith_reads hread hbs,
        ih u.length (by rw [← hn, List.length_append]; omega) hys rfl]
      cases decodeWith decodeOp t <;> rfl

variable (encodeItem : Item → Except Message Bytes)

/-- `for (const o of value) …`. -/
def encodeWith : List Item → Except Message Bytes
  | [] => .ok []
  | x :: xs => do
    let head ← encodeItem x
    let tail ← encodeWith xs
    return head ++ tail

variable {encodeItem}

theorem encodeWith_append {xs ys : List Item} {bs : Bytes} :
    encodeWith encodeItem (xs ++ ys) = .ok bs ↔
      ∃ as cs, encodeWith encodeItem xs = .ok as ∧ encodeWith encodeItem ys = .ok cs ∧
        bs = as ++ cs := by
  induction xs generalizing bs with
  | nil =>
    constructor
    · intro h
      exact ⟨[], bs, rfl, h, rfl⟩
    · rintro ⟨as, cs, has, hcs, rfl⟩
      cases has
      exact hcs
  | cons x xs ih =>
    simp only [List.cons_append, encodeWith, bind_ok, pure_ok, ih]
    constructor
    · rintro ⟨head, hhead, tail, ⟨as, cs, has, hcs, rfl⟩, rfl⟩
      exact ⟨head ++ as, cs, ⟨head, hhead, as, has, rfl⟩, hcs, (List.append_assoc _ _ _).symm⟩
    · rintro ⟨as, cs, ⟨head, hhead, tail, htail, rfl⟩, hcs, rfl⟩
      exact ⟨head, hhead, tail ++ cs, ⟨tail, cs, htail, hcs, rfl⟩, (List.append_assoc _ _ _).symm⟩

theorem encodeWith_exists {xs : List Item} :
    (∃ bs, encodeWith encodeItem xs = .ok bs) ↔ ∀ x ∈ xs, ∃ bs, encodeItem x = .ok bs := by
  induction xs with
  | nil => simp [encodeWith]
  | cons x xs ih =>
    rw [List.forall_mem_cons, ← ih]
    constructor
    · rintro ⟨bs, h⟩
      obtain ⟨head, hhead, h⟩ := bind_ok.mp h
      obtain ⟨tail, htail, -⟩ := bind_ok.mp h
      exact ⟨⟨head, hhead⟩, tail, htail⟩
    · rintro ⟨⟨head, hhead⟩, tail, htail⟩
      exact ⟨head ++ tail, bind_ok.mpr ⟨head, hhead, bind_ok.mpr ⟨tail, htail, rfl⟩⟩⟩

/-- A push is read back as the bytes it pushes, unless it pushes none. -/
theorem reads_pushData {b bs : Bytes} (hne : b ≠ []) (h : pushData b = .ok bs) :
    Reads (readItem decodeOp) bs (.data b) ∧ bs ≠ [] := by
  have hpos := List.length_pos_iff.mpr hne
  have hslice : Reads (readSlice b.length >>= fun b ↦ pure (Item.data b)) b (.data b) :=
    (reads_slice b).bind_pure (reads_pure _)
  unfold pushData PUSHDATA1 at h
  split at h
  · rename_i hlen
    cases h
    refine ⟨(reads_byte (UInt8.ofNat b.length)).bind ?_, by simp⟩
    have hcur : (UInt8.ofNat b.length).toNat = b.length := toNat_byte (by omega)
    rw [hcur, if_pos (by unfold PUSHDATA4; omega)]
    refine @Reads.bind _ _ _ _ [] _ b.length _ ?_ hslice
    rw [readPushLength, hcur, if_pos (by unfold PUSHDATA1; omega)]
    exact reads_pure _
  · split at h
    · cases h
      refine ⟨(reads_byte 0x4c).bind ?_, by simp⟩
      rw [if_pos (by decide)]
      refine @Reads.bind _ _ _ _ [UInt8.ofNat b.length] _ b.length _ ?_ hslice
      have hcur : (UInt8.ofNat b.length).toNat = b.length := toNat_byte (by omega)
      have hread := (reads_byte (UInt8.ofNat b.length)).map (f := UInt8.toNat)
      rw [hcur] at hread
      exact hread
    · split at h
      · cases h
        refine ⟨(reads_byte 0x4d).bind ?_, by simp⟩
        rw [if_pos (by decide)]
        exact (reads_uint16LE (n := b.length) (by omega)).bind hslice
      · split at h
        · cases h
          refine ⟨(reads_byte 0x4e).bind ?_, by simp⟩
          rw [if_pos (by decide)]
          exact (reads_uint32LE (n := b.length) (by omega)).bind hslice
        · cases h

/-- A byte that starts no push is read as what it means. -/
theorem reads_op {b : UInt8} {x : Item} (hb : ¬(0 < b.toNat ∧ b.toNat ≤ PUSHDATA4))
    (h : decodeOp b = .ok x) : Reads (readItem decodeOp) [b] x := by
  refine (reads_byte b).bind_pure ?_
  rw [if_neg hb]
  exact reads_liftM h

/-- An item whose bytes are read back as `f` of it. -/
def ReadBack (decodeOp : UInt8 → Except Message Item) (encodeItem : Item → Except Message Bytes)
    (x y : Item) : Prop :=
  ∀ bs, encodeItem x = .ok bs → bs ≠ [] ∧ Reads (readItem decodeOp) bs y

/-- Items that are read back one by one are read back as a script. -/
theorem decodeWith_encodeWith {f : Item → Item} {xs : List Item} {bs : Bytes}
    (h : ∀ x ∈ xs, ReadBack decodeOp encodeItem x (f x))
    (hbs : encodeWith encodeItem xs = .ok bs) : decodeWith decodeOp bs = .ok (xs.map f) := by
  induction xs generalizing bs with
  | nil =>
    cases hbs
    exact decodeWith_nil
  | cons x xs ih =>
    obtain ⟨head, hhead, hbs⟩ := bind_ok.mp hbs
    obtain ⟨tail, htail, hbs⟩ := bind_ok.mp hbs
    cases hbs
    obtain ⟨hne, hread⟩ := h x List.mem_cons_self head hhead
    rw [decodeWith_reads hread hne, ih (fun y hy ↦ h y (List.mem_cons_of_mem x hy)) htail]
    rfl

end BtcScript
