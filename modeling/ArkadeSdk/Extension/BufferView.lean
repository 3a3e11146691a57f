import ArkadeSdk.Extension.Buffer
import ArkadeSdk.Lib.MeteredReader

/-! The reader as it is: a view of a buffer that may hold more than the input. -/

namespace ArkadeSdk.Buffer

open WireFormat JsNumber

/-- A `DataView` of `byteLength` bytes of the buffer, and the offset of the next read in it. -/
structure BufferReader where
  buffer : Bytes
  byteOffset : ℕ
  byteLength : ℕ
  offset : ℕ
  fits : byteOffset + byteLength ≤ buffer.length
  inside : offset ≤ byteLength

abbrev ViewReader (α : Type) := StateT BufferReader (Except Message) α

namespace BufferReader

def create (buffer : Bytes) (byteOffset byteLength : ℕ)
    (fits : byteOffset + byteLength ≤ buffer.length) : BufferReader where
  buffer := buffer
  byteOffset := byteOffset
  byteLength := byteLength
  offset := 0
  fits := fits
  inside := Nat.zero_le _

/-- The input, as far as it has not been read. -/
def rest (self : BufferReader) : Bytes :=
  ((self.buffer.drop self.byteOffset).take self.byteLength).drop self.offset

def remaining (self : BufferReader) : ℕ := self.byteLength - self.offset

/-- `this.offset += n`, which the checks keep inside the view. -/
def advance (self : BufferReader) (n : ℕ) (h : self.offset + n ≤ self.byteLength) :
    BufferReader :=
  { self with offset := self.offset + n, inside := h }

/-- `view.getUint8`, at an offset in the view. -/
def getUint8 (self : BufferReader) (offset : ℕ) : UInt8 :=
  self.buffer.getD (self.byteOffset + offset) 0

/-- `view.getUint16(offset, true)`. -/
def getUint16 (self : BufferReader) (offset : ℕ) : ℕ :=
  (self.getUint8 offset).toNat + 256 * (self.getUint8 (offset + 1)).toNat

def endOfBuffer : Message := message "unexpected end of buffer"

def readByte : ViewReader UInt8 := fun self ↦
  if h : self.offset + 1 ≤ self.byteLength then
    .ok (self.getUint8 self.offset, self.advance 1 h)
  else .error endOfBuffer

/-- A `Uint8Array` over the same buffer. -/
def readSlice (size : ℕ) : ViewReader Bytes := fun self ↦
  if h : self.offset + size ≤ self.byteLength then
    .ok ((self.buffer.drop (self.byteOffset + self.offset)).take size, self.advance size h)
  else .error endOfBuffer

def readUint16LE : ViewReader ℕ := fun self ↦
  if h : self.offset + 2 ≤ self.byteLength then
    .ok (self.getUint16 self.offset, self.advance 2 h)
  else .error endOfBuffer

/-- The loop of `readVarUint`, a byte a turn. -/
def readVarUintFrom (shift result : ℕ) (self : BufferReader) : Except Message (ℕ × BufferReader) :=
  if h : self.offset + 1 ≤ self.byteLength then
    let byte := self.getUint8 self.offset
    let result := result + byte.toNat % 128 * 2 ^ shift
    if byte.toNat < 128 then .ok (result, self.advance 1 h)
    else readVarUintFrom (shift + 7) result (self.advance 1 h)
  else .error endOfBuffer
termination_by self.byteLength - self.offset
decreasing_by
  simp only [advance]
  omega

def readVarUint : ViewReader ℕ := readVarUintFrom 0 0

def readVarSlice : ViewReader Bytes := do
  let length ← readVarUint
  readSlice length

/-- `getUint32(0, true)` of a view of a slice of four bytes. -/
def uint32OfSlice (b : Bytes) : ℕ :=
  (b.getD 0 0).toNat + 256 * (b.getD 1 0).toNat + 65536 * (b.getD 2 0).toNat +
    16777216 * (b.getD 3 0).toNat

def readCompactSize : ViewReader ℕ := do
  let first ← readByte
  if first < 0xfd then return first.toNat
  else if first = 0xfd then readUint16LE
  else if first = 0xfe then return uint32OfSlice (← readSlice 4)
  else throw (message "CompactSize 8-byte values not supported")

def readCompactSlice : ViewReader Bytes := do
  let length ← readCompactSize
  readSlice length

end BufferReader

variable {α β : Type}

structure SameView (b b' : BufferReader) : Prop where
  buffer : b'.buffer = b.buffer
  byteOffset : b'.byteOffset = b.byteOffset
  byteLength : b'.byteLength = b.byteLength

/-- The reads of a view give what reading the bytes of the view gives: whatever else is in the
buffer makes no difference. -/
structure StaysInside (v : ViewReader α) (r : Reader α) : Prop where
  ok : ∀ b a b', v.run b = .ok (a, b') → r.run b.rest = .ok (a, b'.rest) ∧ SameView b b'
  error : ∀ b e, v.run b = .error e → r.run b.rest = .error e

namespace BufferReader

variable (b : BufferReader)

theorem rest_length : b.rest.length = b.byteLength - b.offset := by
  have hfits := b.fits
  simp only [rest, List.length_drop, List.length_take]
  omega

theorem rest_advance {n : ℕ} (h : b.offset + n ≤ b.byteLength) :
    (b.advance n h).rest = b.rest.drop n := by
  simp [rest, advance, List.drop_drop]

theorem slice_eq {n : ℕ} (h : b.offset + n ≤ b.byteLength) :
    (b.buffer.drop (b.byteOffset + b.offset)).take n = b.rest.take n := by
  rw [rest, List.drop_take, List.drop_drop, List.take_take, Nat.min_eq_left (by omega)]

theorem getUint8_eq {i : ℕ} (h : b.offset + i < b.byteLength) :
    b.rest[i]? = some (b.getUint8 (b.offset + i)) := by
  have hfits := b.fits
  have hlt : b.byteOffset + (b.offset + i) < b.buffer.length := by omega
  rw [rest, List.getElem?_drop, List.getElem?_take_of_lt h, List.getElem?_drop, getUint8,
    List.getD_eq_getElem?_getD, List.getElem?_eq_getElem hlt, Option.getD_some]

theorem rest_eq_cons (h : b.offset + 1 ≤ b.byteLength) :
    b.rest = b.getUint8 b.offset :: (b.advance 1 h).rest := by
  have hfirst := b.getUint8_eq (i := 0) h
  rw [b.rest_advance]
  cases hrest : b.rest with
  | nil =>
    rw [hrest] at hfirst
    cases hfirst
  | cons x s =>
    rw [hrest] at hfirst
    rw [Option.some.inj hfirst]
    rfl

theorem rest_eq_nil (h : ¬b.offset + 1 ≤ b.byteLength) : b.rest = [] := by
  apply List.eq_nil_of_length_eq_zero
  rw [b.rest_length]
  omega

theorem sameView_advance {n : ℕ} (h : b.offset + n ≤ b.byteLength) :
    SameView b (b.advance n h) :=
  ⟨rfl, rfl, rfl⟩

end BufferReader

theorem StaysInside.bind {v : ViewReader α} {r : Reader α} {f : α → ViewReader β}
    {g : α → Reader β} (h : StaysInside v r) (hf : ∀ a, StaysInside (f a) (g a)) :
    StaysInside (v >>= f) (r >>= g) where
  ok b c b'' hrun := by
    rw [StateT.run_bind] at hrun
    obtain ⟨⟨a, b'⟩, hv, hrun⟩ := bind_ok.mp hrun
    obtain ⟨hr, hsame⟩ := h.ok b a b' hv
    obtain ⟨hr', hsame'⟩ := (hf a).ok b' c b'' hrun
    rw [run_bind_eq hr]
    exact ⟨hr', hsame'.buffer.trans hsame.buffer, hsame'.byteOffset.trans hsame.byteOffset,
      hsame'.byteLength.trans hsame.byteLength⟩
  error b e hrun := by
    rw [StateT.run_bind] at hrun
    cases hv : v.run b with
    | error e' =>
      rw [hv] at hrun
      cases hrun
      rw [StateT.run_bind, h.error b _ hv]
      rfl
    | ok p =>
      rw [hv] at hrun
      obtain ⟨hr, -⟩ := h.ok b p.1 p.2 hv
      rw [run_bind_eq hr]
      exact (hf p.1).error p.2 e hrun

theorem staysInside_pure (a : α) : StaysInside (pure a) (pure a) where
  ok b c b' h := by
    cases h
    exact ⟨rfl, rfl, rfl, rfl⟩
  error b e h := by cases h

theorem staysInside_throw (e : Message) : StaysInside (throw e : ViewReader α) (throw e) where
  ok b c b' h := by cases h
  error b e h := by
    cases h
    rfl

theorem StaysInside.ite {p : Prop} [Decidable p] {v v' : ViewReader α} {r r' : Reader α}
    (h : StaysInside v r) (h' : StaysInside v' r') :
    StaysInside (if p then v else v') (if p then r else r') := by
  split
  · exact h
  · exact h'

theorem staysInside_of_check {v : ViewReader α} {r : Reader α} {n : ℕ} (read : BufferReader → α)
    (hok : ∀ b (h : b.offset + n ≤ b.byteLength), v.run b = .ok (read b, b.advance n h) ∧
      r.run b.rest = .ok (read b, (b.advance n h).rest))
    (herror : ∀ b : BufferReader, ¬b.offset + n ≤ b.byteLength →
      v.run b = .error BufferReader.endOfBuffer ∧
        r.run b.rest = .error BufferReader.endOfBuffer) : StaysInside v r where
  ok b a b' hrun := by
    by_cases h : b.offset + n ≤ b.byteLength
    · obtain ⟨hv, hr⟩ := hok b h
      rw [hv] at hrun
      cases hrun
      exact ⟨hr, b.sameView_advance h⟩
    · rw [(herror b h).1] at hrun
      cases hrun
  error b e hrun := by
    by_cases h : b.offset + n ≤ b.byteLength
    · rw [(hok b h).1] at hrun
      cases hrun
    · obtain ⟨hv, hr⟩ := herror b h
      rw [hv] at hrun
      cases hrun
      exact hr

theorem staysInside_readByte : StaysInside BufferReader.readByte readByte := by
  refine staysInside_of_check (fun b ↦ b.getUint8 b.offset) (n := 1)
    (fun b h ↦ ?_) (fun b h ↦ ?_)
  · rw [b.rest_eq_cons h]
    exact ⟨dif_pos h, rfl⟩
  · rw [b.rest_eq_nil h]
    exact ⟨dif_neg h, rfl⟩

theorem staysInside_readSlice (size : ℕ) :
    StaysInside (BufferReader.readSlice size) (readSlice size) := by
  refine staysInside_of_check (n := size) (fun b ↦ b.rest.take size) (fun b h ↦ ?_)
    (fun b h ↦ ?_)
  · have hlength := b.rest_length
    have hinside := b.inside
    simp only [StateT.run, BufferReader.readSlice, readSlice]
    rw [dif_pos h, if_neg (by omega), b.slice_eq h, b.rest_advance h]
    exact ⟨rfl, rfl⟩
  · have hlength := b.rest_length
    have hinside := b.inside
    simp only [StateT.run, BufferReader.readSlice, readSlice]
    rw [dif_neg h, if_pos (by omega)]
    exact ⟨rfl, rfl⟩

theorem staysInside_readUint16LE : StaysInside BufferReader.readUint16LE readUint16LE := by
  refine staysInside_of_check (fun b ↦ b.getUint16 b.offset) (n := 2)
    (fun b h ↦ ?_) (fun b h ↦ ?_)
  · have hfirst : b.offset + 1 ≤ b.byteLength := by omega
    have hnext : (b.advance 1 hfirst).offset + 1 ≤ (b.advance 1 hfirst).byteLength := h
    rw [b.rest_eq_cons hfirst, (b.advance 1 hfirst).rest_eq_cons hnext]
    exact ⟨dif_pos h, rfl⟩
  · have hlength := b.rest_length
    refine ⟨dif_neg h, ?_⟩
    match hrest : b.rest with
    | [] => rfl
    | [_] => rfl
    | _ :: _ :: s =>
      rw [hrest] at hlength
      simp only [List.length_cons] at hlength
      omega

theorem readVarUintFrom_eq (shift result : ℕ) (b : BufferReader) :
    (∃ n b', b.readVarUintFrom shift result = .ok (n, b') ∧
      readLeb128From shift result b.rest = .ok (n, b'.rest) ∧ SameView b b') ∨
    (b.readVarUintFrom shift result = .error BufferReader.endOfBuffer ∧
      readLeb128From shift result b.rest = .error BufferReader.endOfBuffer) := by
  induction hn : b.byteLength - b.offset generalizing shift result b with
  | zero =>
    have hle : ¬b.offset + 1 ≤ b.byteLength := by omega
    rw [BufferReader.readVarUintFrom, dif_neg hle, b.rest_eq_nil hle]
    exact .inr ⟨rfl, rfl⟩
  | succ n ih =>
    have hle : b.offset + 1 ≤ b.byteLength := by omega
    rw [BufferReader.readVarUintFrom, dif_pos hle, b.rest_eq_cons hle, readLeb128From]
    by_cases hlast : (b.getUint8 b.offset).toNat < 128
    · rw [if_pos hlast, if_pos hlast]
      exact .inl ⟨_, _, rfl, rfl, b.sameView_advance hle⟩
    · rw [if_neg hlast, if_neg hlast]
      have hstep : (b.advance 1 hle).byteLength - (b.advance 1 hle).offset = n := by
        simp only [BufferReader.advance]
        omega
      rcases ih (shift + 7) _ (b.advance 1 hle) hstep with ⟨k, b', hv, hr, hsame⟩ | herror
      · exact .inl ⟨k, b', hv, hr, hsame.buffer, hsame.byteOffset, hsame.byteLength⟩
      · exact .inr herror

theorem staysInside_readVarUint : StaysInside BufferReader.readVarUint readVarUint where
  ok b a b' hrun := by
    have hrun' : b.readVarUintFrom 0 0 = .ok (a, b') := hrun
    rcases readVarUintFrom_eq 0 0 b with ⟨n, b'', hv, hr, hsame⟩ | ⟨hv, -⟩
    · rw [hv] at hrun'
      cases hrun'
      exact ⟨hr, hsame⟩
    · rw [hv] at hrun'
      cases hrun'
  error b e hrun := by
    have hrun' : b.readVarUintFrom 0 0 = .error e := hrun
    rcases readVarUintFrom_eq 0 0 b with ⟨n, b'', hv, -⟩ | ⟨hv, hr⟩
    · rw [hv] at hrun'
      cases hrun'
    · rw [hv] at hrun'
      cases hrun'
      exact hr

theorem staysInside_readVarSlice : StaysInside BufferReader.readVarSlice readVarSlice :=
  staysInside_readVarUint.bind staysInside_readSlice

theorem readSlice_four :
    (readSlice 4 >>= fun b ↦ pure (BufferReader.uint32OfSlice b) : Reader ℕ) = readUint32LE := by
  funext s
  match s with
  | [] => rfl
  | [_] => rfl
  | [_, _] => rfl
  | [_, _, _] => rfl
  | a :: b :: c :: d :: s =>
    have hrun : (readSlice 4).run (a :: b :: c :: d :: s) = .ok ([a, b, c, d], s) :=
      reads_slice [a, b, c, d] s
    exact run_bind_eq hrun

theorem staysInside_readCompactSize :
    StaysInside BufferReader.readCompactSize readCompactSize := by
  refine staysInside_readByte.bind fun first ↦ ?_
  refine .ite (staysInside_pure _) (.ite staysInside_readUint16LE (.ite ?_ (staysInside_throw _)))
  rw [← readSlice_four]
  exact (staysInside_readSlice 4).bind fun b ↦ staysInside_pure _

theorem staysInside_readCompactSlice :
    StaysInside BufferReader.readCompactSlice readCompactSlice :=
  staysInside_readCompactSize.bind staysInside_readSlice

end ArkadeSdk.Buffer
