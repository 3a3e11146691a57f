import Mathlib.Data.Nat.Basic
import Mathlib.Algebra.BigOperators.Group.List.Basic
import ArkadeSdk.Lib.WireFormat

/-! The wire format of a Bitcoin transaction whose inputs carry no script, and its virtual size. -/

namespace BtcTransaction

open WireFormat

/-- The `width` low bytes of `n`, the lowest first. -/
def uintLE (width n : ℕ) : Bytes := (List.range width).map fun i ↦ UInt8.ofNat (n / 256 ^ i)

@[simp] theorem length_uintLE (width n : ℕ) : (uintLE width n).length = width := by
  simp [uintLE]

def compactSize (n : ℕ) : Bytes :=
  if n < 0xfd then uintLE 1 n
  else if n ≤ 0xffff then 0xfd :: uintLE 2 n
  else if n ≤ 0xffffffff then 0xfe :: uintLE 4 n
  else 0xff :: uintLE 8 n

def slice (bs : Bytes) : Bytes := compactSize bs.length ++ bs

def vector {α : Type} (f : α → Bytes) (xs : List α) : Bytes :=
  compactSize xs.length ++ xs.flatMap f

structure OutPoint where
  txid : { bs : Bytes // bs.length = 32 }
  index : ℕ
  deriving DecidableEq

structure Input where
  outpoint : OutPoint
  sequence : ℕ
  witness : List Bytes
  deriving DecidableEq

structure Output where
  amount : ℕ
  script : Bytes
  deriving DecidableEq

structure Transaction where
  version : ℕ
  inputs : List Input
  outputs : List Output
  lockTime : ℕ
  deriving DecidableEq

def Input.serialize (input : Input) : Bytes :=
  input.outpoint.txid.val ++
    (uintLE 4 input.outpoint.index ++ (slice [] ++ uintLE 4 input.sequence))

def Output.serialize (output : Output) : Bytes := uintLE 8 output.amount ++ slice output.script

namespace Transaction

variable (tx : Transaction)

def hasWitness : Bool := tx.inputs.any fun input ↦ !input.witness.isEmpty

def body : Bytes := vector Input.serialize tx.inputs ++ vector Output.serialize tx.outputs

def witnesses : Bytes := tx.inputs.flatMap fun input ↦ vector slice input.witness

def serializeStripped : Bytes := uintLE 4 tx.version ++ (tx.body ++ uintLE 4 tx.lockTime)

/-- With the marker, the flag and the witnesses when there is one. -/
def serialize : Bytes :=
  if tx.hasWitness then
    uintLE 4 tx.version ++ ([0, 1] ++ (tx.body ++ (tx.witnesses ++ uintLE 4 tx.lockTime)))
  else tx.serializeStripped

def weight : ℕ := 3 * tx.serializeStripped.length + tx.serialize.length

/-- The weight by four, rounded up. -/
def vsize : ℕ := (tx.weight + 3) / 4

end Transaction

@[simp] theorem Input.length_serialize (input : Input) : input.serialize.length = 41 := by
  simp [serialize, slice, compactSize, input.outpoint.txid.property]

theorem Output.length_serialize (output : Output) :
    output.serialize.length =
      8 + ((compactSize output.script.length).length + output.script.length) := by
  simp [serialize, slice]

theorem length_vector {α : Type} (f : α → Bytes) (xs : List α) :
    (vector f xs).length = (compactSize xs.length).length + (xs.map fun x ↦ (f x).length).sum := by
  simp [vector, List.length_flatMap]

namespace Transaction

variable (tx : Transaction)

theorem length_body : tx.body.length =
    (compactSize tx.inputs.length).length + 41 * tx.inputs.length +
      ((compactSize tx.outputs.length).length +
        (tx.outputs.map fun output ↦ output.serialize.length).sum) := by
  simp [body, length_vector, Nat.mul_comm]

theorem length_serializeStripped : tx.serializeStripped.length = 8 + tx.body.length := by
  simp only [serializeStripped, List.length_append, length_uintLE]
  omega

/-- Every byte weighs four, those of the witnesses and their header one. -/
theorem weight_eq : tx.weight =
    4 * (8 + tx.body.length) + if tx.hasWitness then 2 + tx.witnesses.length else 0 := by
  rw [weight, length_serializeStripped, serialize]
  split
  · simp only [List.length_append, length_uintLE, List.length_cons, List.length_nil]
    omega
  · rw [length_serializeStripped]
    omega

end Transaction

end BtcTransaction
