import Mathlib.Data.Nat.Basic

/-! The size of a transaction, counted as its inputs and outputs are added. -/

namespace ArkadeSdk

def getVarIntSize (n : ℕ) : ℕ :=
  if n < 0xfd then 1 else if n ≤ 0xffff then 3 else if n ≤ 0xffffffff then 5 else 9

structure TxWeightEstimator where
  hasWitness : Bool
  inputCount : ℕ
  outputCount : ℕ
  inputSize : ℕ
  inputWitnessSize : ℕ
  outputSize : ℕ
  deriving DecidableEq

namespace TxWeightEstimator

def INPUT_SIZE : ℕ := 32 + 4 + 1 + 4
def BASE_CONTROL_BLOCK_SIZE : ℕ := 1 + 32
def BASE_TX_SIZE : ℕ := 8 + 2
def WITNESS_HEADER_SIZE : ℕ := 2
def WITNESS_SCALE_FACTOR : ℕ := 4

def create : TxWeightEstimator := ⟨false, 0, 0, 0, 0, 0⟩

variable (e : TxWeightEstimator)

def addP2AInput : TxWeightEstimator :=
  { e with inputCount := e.inputCount + 1, inputSize := e.inputSize + INPUT_SIZE }

/-- With the default sighash. -/
def addKeySpendInput : TxWeightEstimator :=
  { e with
    inputCount := e.inputCount + 1
    inputWitnessSize := e.inputWitnessSize + (64 + 1)
    inputSize := e.inputSize + INPUT_SIZE
    hasWitness := true }

def addTapscriptInput (leafWitnessSize leafScriptSize leafControlBlockSize : ℕ) :
    TxWeightEstimator :=
  let controlBlockWitnessSize :=
    1 + BASE_CONTROL_BLOCK_SIZE + 1 + leafScriptSize + 1 + leafControlBlockSize
  { e with
    inputCount := e.inputCount + 1
    inputWitnessSize := e.inputWitnessSize + (leafWitnessSize + 1 + controlBlockWitnessSize)
    inputSize := e.inputSize + INPUT_SIZE
    hasWitness := true }

/-- `addOutputScript` of a script of this length. -/
def addOutputScript (scriptLength : ℕ) : TxWeightEstimator :=
  { e with
    outputCount := e.outputCount + 1
    outputSize := e.outputSize + (8 + getVarIntSize scriptLength + scriptLength) }

def weight : ℕ :=
  let txSizeStripped := BASE_TX_SIZE + getVarIntSize e.inputCount + e.inputSize +
    getVarIntSize e.outputCount + e.outputSize
  txSizeStripped * WITNESS_SCALE_FACTOR +
    if e.hasWitness then WITNESS_HEADER_SIZE + e.inputWitnessSize else 0

/-- The weight by four, rounded up. -/
def vsize : ℕ := (e.weight + (WITNESS_SCALE_FACTOR - 1)) / WITNESS_SCALE_FACTOR

end TxWeightEstimator

end ArkadeSdk
