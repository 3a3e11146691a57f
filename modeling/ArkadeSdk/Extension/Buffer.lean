import ArkadeSdk.Lib.WireFormat

namespace ArkadeSdk.Buffer

open WireFormat JsNumber

-- a writer is the bytes it pushed, so writing twice is appending

/-- `writeByte(byte)`, which masks with `0xff`. -/
def writeByte (byte : ℕ) : Bytes := [UInt8.ofNat byte]

/-- `writeUint16LE(value)`: `DataView.setUint16` truncates without complaint. -/
def writeUint16LE (value : Number) : Bytes := uint16LE value.toUint16

def writeVarUint (value : ℤ) : Except Message Bytes :=
  if value < 0 then .error (message "writeVarUint: value must be a non-negative integer")
  else .ok (leb128 value.toNat)

def writeVarSlice (data : Bytes) : Bytes := leb128 data.length ++ data

def writeCompactSize (value : ℕ) : Except Message Bytes :=
  if value < 0xfd then .ok (writeByte value)
  else if value ≤ 0xffff then .ok (writeByte 0xfd ++ uint16LE value)
  else if value ≤ 0xffffffff then .ok (writeByte 0xfe ++ uint32LE value)
  else .error (message "CompactSize value too large")

def writeCompactSlice (data : Bytes) : Except Message Bytes := do
  let size ← writeCompactSize data.length
  return size ++ data

def readVarUint : Reader ℕ := readLeb128

def readVarSlice : Reader Bytes := do
  let length ← readVarUint
  readSlice length

def readCompactSize : Reader ℕ := do
  let first ← readByte
  if first < 0xfd then return first.toNat
  else if first = 0xfd then readUint16LE
  else if first = 0xfe then readUint32LE
  else throw (message "CompactSize 8-byte values not supported")

def readCompactSlice : Reader Bytes := do
  let length ← readCompactSize
  readSlice length

/-- `try { read } catch { throw new Error(text) }`. -/
def orThrow {α : Type} (r : Reader α) (text : String) : Reader α := fun s ↦
  match r.run s with
  | .ok p => .ok p
  | .error _ => .error (message text)

theorem reads_byte_ofNat {n : ℕ} : Reads readByte (writeByte n) (UInt8.ofNat n) := reads_byte _

theorem reads_uint16LE_number {n : ℕ} (h : n < 65536) :
    Reads readUint16LE (writeUint16LE (.ofNat n)) n := by
  rw [writeUint16LE, Number.toUint16_ofNat h]
  exact reads_uint16LE h

theorem writeVarUint_ofNat (n : ℕ) : writeVarUint (n : ℤ) = .ok (leb128 n) := by
  simp [writeVarUint]

theorem writeVarUint_eq_ok {z : ℤ} {bs : Bytes} (h : writeVarUint z = .ok bs) :
    0 ≤ z ∧ bs = leb128 z.toNat := by
  unfold writeVarUint at h
  split at h
  · cases h
  · cases h
    exact ⟨by omega, rfl⟩

theorem reads_varSlice (data : Bytes) : Reads readVarSlice (writeVarSlice data) data :=
  (reads_leb128 _).bind (reads_slice data)

theorem Reads.orThrow {α : Type} {r : Reader α} {bs : Bytes} {a : α} (h : Reads r bs a)
    (text : String) : Reads (orThrow r text) bs a := by
  intro rest
  have hr := h rest
  simp only [Buffer.orThrow, StateT.run] at hr ⊢
  rw [hr]

theorem orThrow_ok {α : Type} {r : Reader α} {text : String} {s t : Bytes} {a : α}
    (h : (orThrow r text).run s = .ok (a, t)) : r.run s = .ok (a, t) := by
  simp only [orThrow, StateT.run] at h ⊢
  split at h
  · cases h
    assumption
  · cases h

theorem reads_compactSize {n : ℕ} {bs : Bytes} (h : writeCompactSize n = .ok bs) :
    Reads readCompactSize bs n := by
  unfold writeCompactSize at h
  split at h
  · rename_i hn
    cases h
    have hbyte : (UInt8.ofNat n).toNat = n := by
      rw [UInt8.toNat_ofNat']
      omega
    refine (reads_byte_ofNat (n := n)).bind_pure ?_
    have hlt : UInt8.ofNat n < 0xfd := by
      rw [UInt8.lt_iff_toNat_lt, hbyte]
      exact hn
    rw [if_pos hlt, hbyte]
    exact reads_pure n
  · split at h
    · cases h
      refine (reads_byte_ofNat (n := 0xfd)).bind ?_
      simpa using reads_uint16LE (by omega)
    · split at h
      · cases h
        refine (reads_byte_ofNat (n := 0xfe)).bind ?_
        simpa using reads_uint32LE (by omega)
      · cases h

theorem reads_compactSlice {data bs : Bytes} (h : writeCompactSlice data = .ok bs) :
    Reads readCompactSlice bs data := by
  obtain ⟨size, hs, h⟩ := bind_ok.mp h
  cases h
  exact (reads_compactSize hs).bind (reads_slice data)

end ArkadeSdk.Buffer
