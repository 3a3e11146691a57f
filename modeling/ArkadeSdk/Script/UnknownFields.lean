import ArkadeSdk.Script.TapscriptUnique

/-! The custom fields of a PSBT input, and the expiry that one of them carries. -/

namespace ArkadeSdk

open WireFormat JsNumber BtcScript ScriptCoder

inductive ArkPsbtFieldKey
  | VtxoTaprootTree
  | VtxoTreeExpiry
  | Cosigner
  | ConditionWitness
  | PrevArkTx
  | PrevoutTx
  deriving DecidableEq

def ArkPsbtFieldKeyType : ℕ := 222

def ArkPsbtFieldKey.name : ArkPsbtFieldKey → String
  | .VtxoTaprootTree => "taptree"
  | .VtxoTreeExpiry => "expiry"
  | .Cosigner => "cosigner"
  | .ConditionWitness => "condition"
  | .PrevArkTx => "prevarktx"
  | .PrevoutTx => "prevouttx"

/-- The UTF-8 bytes of the name; all of them are ASCII. -/
def encodedPsbtFieldKey (key : ArkPsbtFieldKey) : Bytes :=
  key.name.toList.map fun c ↦ UInt8.ofNat c.toNat

structure PsbtKey where
  type : ℕ
  key : Bytes
  deriving DecidableEq

abbrev PsbtField := PsbtKey × Bytes

/-- `prefixOnly` allows for bytes after the name. -/
def checkKeyMatch (key : PsbtKey) (arkPsbtFieldKey : ArkPsbtFieldKey) (prefixOnly : Bool) : Bool :=
  let expected := encodedPsbtFieldKey arkPsbtFieldKey
  if key.type ≠ ArkPsbtFieldKeyType then false
  else if key.key.length < expected.length then false
  else if !prefixOnly && key.key.length ≠ expected.length then false
  else key.key.take expected.length = expected

namespace VtxoTreeExpiry

/-- The value is written as it is, whichever its type. -/
def encode (value : RelativeTimelock) : PsbtField :=
  (⟨ArkPsbtFieldKeyType, encodedPsbtFieldKey .VtxoTreeExpiry⟩, ScriptNumber.encode value.value)

/-- What is read is taken for a sequence. -/
def decode (L : Libraries) (field : PsbtField) : Option RelativeTimelock :=
  if !checkKeyMatch field.1 .VtxoTreeExpiry false then none
  else match ScriptNumber.decode 6 field.2 with
    | .error _ => none
    | .ok v => if v = 0 then none else (sequenceToTimelock L v).toOption

variable {L : Libraries}

/-- The values that a sequence can stand for. -/
def Representable (value : RelativeTimelock) : Prop := ∃ n, bip68Encode value = .ok n

theorem Representable.bounds {value : RelativeTimelock} (h : Representable value) :
    0 ≤ value.value ∧ value.value < 2 ^ 25 ∧
      (value.type = .blocks → value.value < 2 ^ 16) ∧
      (value.type = .seconds → value.value % 512 = 0) := by
  obtain ⟨value, type⟩ := value
  obtain ⟨n, hn⟩ := h
  cases type with
  | blocks =>
    simp only [bip68Encode] at hn
    split at hn
    · next hrange =>
      dsimp only
      exact ⟨hrange.1, by omega, fun _ ↦ by omega, by rintro ⟨⟩⟩
    · cases hn
  | seconds =>
    simp only [bip68Encode] at hn
    split at hn
    · next hrange =>
      dsimp only
      exact ⟨by omega, by omega, by rintro ⟨⟩, fun _ ↦ by omega⟩
    · cases hn

theorem decode_encode {value : RelativeTimelock} (h : Representable value) :
    decode L (encode value) =
      if value.value = 0 then none else (sequenceToTimelock L value.value).toOption := by
  obtain ⟨hpos, hlt, -⟩ := h.bounds
  have hlength : (ScriptNumber.encode value.value).length ≤ 6 :=
    (ScriptNumber.length_encode_le (k := 4) (by omega)).trans (by decide)
  have hkey : checkKeyMatch (encode value).1 .VtxoTreeExpiry false = true := by
    change checkKeyMatch ⟨ArkPsbtFieldKeyType, encodedPsbtFieldKey .VtxoTreeExpiry⟩ _ _ = true
    decide
  rw [decode, hkey, Bool.not_true, if_neg Bool.false_ne_true]
  change (match ScriptNumber.decode 6 (ScriptNumber.encode value.value) with
    | .error _ => none
    | .ok v => if v = 0 then none else (sequenceToTimelock L v).toOption) = _
  rw [ScriptNumber.decode_encode hlength]

theorem bip68Decode_seconds_ne {n : ℕ} : bip68Decode n ≠ some ⟨n, .seconds⟩ := by
  intro h
  simp only [bip68Decode, Int.toNat_natCast] at h
  split at h
  · cases h
  · split at h
    · next hflag =>
      simp only [Option.some.injEq, RelativeTimelock.mk.injEq, Nat.cast_inj, and_true] at h
      omega
    · simp at h

theorem bip68Decode_blocks {n : ℕ} (hn : n < 2 ^ 16) : bip68Decode n = some ⟨n, .blocks⟩ := by
  simp only [bip68Decode, Int.toNat_natCast]
  rw [if_neg (by omega), if_neg (by omega), Nat.mod_eq_of_lt hn]

/-- An expiry is read back as it was written when it is a positive number of blocks. -/
theorem expiry_read_back_iff (hbip68 : ∀ n : ℕ, n < 2 ^ 32 → L.bip68Decode n = bip68Decode n)
    {value : RelativeTimelock} (h : Representable value) :
    decode L (encode value) = some value ↔ value.type = .blocks ∧ value.value ≠ 0 := by
  obtain ⟨hpos, hlt, hblocks, hseconds⟩ := h.bounds
  rw [decode_encode h]
  obtain ⟨n, hn⟩ := Int.eq_ofNat_of_zero_le hpos
  have hdecode := hbip68 n (by omega)
  obtain ⟨value, type⟩ := value
  dsimp only at hn hlt hblocks hseconds ⊢
  subst hn
  by_cases h0 : (n : ℤ) = 0
  · simp [h0]
  · rw [if_neg h0, sequenceToTimelock, hdecode]
    cases type with
    | blocks =>
      rw [bip68Decode_blocks (by have := hblocks rfl; omega)]
      have h0' : n ≠ 0 := by omega
      simp [Except.toOption, h0']
    | seconds =>
      have hne := bip68Decode_seconds_ne (n := n)
      constructor
      · intro hread
        cases hsome : bip68Decode n with
        | none =>
          rw [hsome] at hread
          cases hread
        | some timelock =>
          rw [hsome] at hread
          exact absurd (hsome.trans hread) hne
      · rintro ⟨hc, -⟩
        cases hc

/-- 1 024 seconds are read back as 1 024 blocks. -/
theorem seconds_read_as_blocks : Representable ⟨1024, .seconds⟩ ∧
    decode standardLibraries (encode ⟨1024, .seconds⟩) = some ⟨1024, .blocks⟩ := by
  have hrep : Representable ⟨1024, .seconds⟩ := ⟨_, rfl⟩
  refine ⟨hrep, ?_⟩
  rw [decode_encode hrep]
  decide

theorem blocks_read_back : decode standardLibraries (encode ⟨144, .blocks⟩) =
    some ⟨144, .blocks⟩ :=
  (expiry_read_back_iff (fun _ _ ↦ rfl) ⟨_, rfl⟩).mpr ⟨rfl, by decide⟩

end VtxoTreeExpiry

end ArkadeSdk
