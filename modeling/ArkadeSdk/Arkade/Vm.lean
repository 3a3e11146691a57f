import ArkadeSdk.Arkade.ArkadeScript

namespace ArkadeSdk.Vm

open WireFormat BtcScript ScriptCoder

/-! The stack semantics of the opcodes that covenants are made of. -/

/-- An asset by its genesis transaction in canonical byte order and its group there. -/
structure AssetKey where
  txid : Bytes
  groupIndex : ℕ
  deriving DecidableEq

/-- The assets one input or output carries, each named once. -/
structure Assets where
  entries : List (AssetKey × ℕ)
  nodup : (entries.map Prod.fst).Nodup

def Assets.amount (assets : Assets) (key : AssetKey) : Option ℕ := assets.entries.lookup key

def Assets.count (assets : Assets) : ℕ := assets.entries.length

structure TxIn where
  value : ℕ
  assets : Assets

/-- An output; a script that is no witness program shows a version no program has. -/
structure TxOut where
  version : ℤ
  program : Bytes
  value : ℕ
  assets : Assets

structure Tx where
  inputs : List TxIn
  outputs : List TxOut

abbrev Stack := List Bytes

/-- Any non-zero byte, except a sign on nothing. -/
def isTrue : Bytes → Bool
  | [] => false
  | [b] => b ≠ 0 && b ≠ 0x80
  | b :: bs => b ≠ 0 || isTrue bs

/-- A number operand has to be minimal. -/
def toNum (b : Bytes) : Option ℤ :=
  if ScriptNumber.isMinimal b then some (ScriptNumber.value b) else none

def num (z : ℤ) : Bytes := ScriptNumber.encode z

def flag (b : Bool) : Bytes := num (if b then 1 else 0)

/-- An index that is negative or past the end fails the script. -/
def at? {α : Type} (l : List α) (index : Bytes) : Option α := do
  let z ← toNum index
  if z < 0 then none else l[z.toNat]?

/-- The lookups match the transaction id in wire order and take any number for the group. -/
def lookupKey (txid groupIndex : Bytes) : Option (Option AssetKey) := do
  let g ← toNum groupIndex
  return if g < 0 then none else some ⟨txid.reverse, g.toNat⟩

/-- The amount and a one, or two zeros for an asset that is not there. -/
def pushAmount (assets : Assets) (key : Option AssetKey) (stack : Stack) : Stack :=
  match key.bind assets.amount with
  | some amount => num 1 :: num amount :: stack
  | none => num 0 :: num 0 :: stack

/-- One opcode, run for input `i`. -/
def stepOp (tx : Tx) (i : ℕ) (name : String) (stack : Stack) : Option Stack :=
  match name, stack with
  | "DUP", a :: stack => some (a :: a :: stack)
  | "VERIFY", a :: stack => if isTrue a then some stack else none
  | "EQUAL", b :: a :: stack => some (flag (decide (a = b)) :: stack)
  | "EQUALVERIFY", b :: a :: stack => if a = b then some stack else none
  | "GREATERTHANOREQUAL", b :: a :: stack => do
    let b ← toNum b
    let a ← toNum a
    return flag (decide (b ≤ a)) :: stack
  | "PUSHCURRENTINPUTINDEX", stack => some (num i :: stack)
  | "INSPECTOUTPUTSCRIPTPUBKEY", index :: stack => do
    let out ← at? tx.outputs index
    return num out.version :: out.program :: stack
  | "INSPECTOUTPUTVALUE", index :: stack => do
    let out ← at? tx.outputs index
    return num out.value :: stack
  | "INSPECTINPUTVALUE", index :: stack => do
    let inp ← at? tx.inputs index
    return num inp.value :: stack
  | "INSPECTOUTASSETLOOKUP", groupIndex :: txid :: index :: stack => do
    let key ← lookupKey txid groupIndex
    let out ← at? tx.outputs index
    return pushAmount out.assets key stack
  | "INSPECTINASSETLOOKUP", groupIndex :: txid :: index :: stack => do
    let key ← lookupKey txid groupIndex
    let inp ← at? tx.inputs index
    return pushAmount inp.assets key stack
  | "INSPECTOUTASSETCOUNT", index :: stack => do
    let out ← at? tx.outputs index
    return num out.assets.count :: stack
  | _, _ => none

def step (tx : Tx) (i : ℕ) (item : Item) (stack : Stack) : Option Stack :=
  match item with
  | .op name => stepOp tx i name stack
  | item => some (ArkadeScript.pushed item :: stack)

def run (tx : Tx) (i : ℕ) : List Item → Stack → Option Stack
  | [], stack => some stack
  | item :: items, stack => do
    let stack ← step tx i item stack
    run tx i items stack

/-- The script ends with exactly one true element. -/
def Accepts (OP : OpTable) (tx : Tx) (i : ℕ) (script : Bytes) : Prop :=
  ∃ items, ArkadeScript.decode OP script = .ok items ∧
    ∃ result, run tx i items [] = some [result] ∧ isTrue result = true

variable {tx : Tx} {i : ℕ}

theorem run_append (xs ys : List Item) (stack : Stack) :
    run tx i (xs ++ ys) stack = (run tx i xs stack).bind (run tx i ys) := by
  induction xs generalizing stack with
  | nil => rfl
  | cons x xs ih =>
    simp only [List.cons_append, run, Option.bind_eq_bind]
    cases step tx i x stack with
    | none => rfl
    | some stack => exact ih stack

theorem step_settle (x : Item) (stack : Stack) :
    step tx i (ArkadeScript.settle x) stack = step tx i x stack := by
  have hpush : ∀ o : Bytes,
      step tx i (ArkadeScript.settleBytes o) stack = some (o :: stack) := by
    intro o
    have hpushed := ArkadeScript.pushed_settleBytes o
    cases hx : ArkadeScript.settleBytes o with
    | op name => exact absurd hx (ArkadeScript.settleBytes_ne_op o name)
    | num n =>
      rw [hx] at hpushed
      rw [step, hpushed]
      simp
    | data b =>
      rw [hx] at hpushed
      rw [step, hpushed]
      simp
  cases x with
  | op name => rfl
  | num n => exact hpush _
  | data b => exact hpush _

theorem run_settle (xs : List Item) (stack : Stack) :
    run tx i (xs.map ArkadeScript.settle) stack = run tx i xs stack := by
  induction xs generalizing stack with
  | nil => rfl
  | cons x xs ih => simp only [List.map_cons, run, step_settle, ih]

theorem accepts_iff {OP : OpTable} {xs : List Item} {script : Bytes}
    (h : ∀ x ∈ xs, ArkadeScript.Named OP x) (hs : ArkadeScript.encode OP xs = .ok script) :
    Accepts OP tx i script ↔ ∃ result, run tx i xs [] = some [result] ∧ isTrue result = true := by
  have hdecode := ArkadeScript.decode_encode h hs
  constructor
  · rintro ⟨items, hitems, result, hrun, htrue⟩
    rw [hdecode] at hitems
    cases hitems
    exact ⟨result, by rwa [run_settle] at hrun, htrue⟩
  · rintro ⟨result, hrun, htrue⟩
    exact ⟨_, hdecode, result, by rwa [run_settle], htrue⟩

@[simp] theorem run_nil (stack : Stack) : run tx i [] stack = some stack := rfl

theorem run_cons (x : Item) (xs : List Item) (stack : Stack) :
    run tx i (x :: xs) stack = (step tx i x stack).bind (run tx i xs) := rfl

theorem step_num (z : ℤ) (stack : Stack) : step tx i (.num z) stack = some (num z :: stack) := rfl

theorem step_data (b : Bytes) (stack : Stack) : step tx i (.data b) stack = some (b :: stack) := rfl

theorem step_dup (a : Bytes) (stack : Stack) :
    step tx i (.op "DUP") (a :: stack) = some (a :: a :: stack) := rfl

theorem step_verify (a : Bytes) (stack : Stack) :
    step tx i (.op "VERIFY") (a :: stack) = if isTrue a then some stack else none := rfl

theorem step_equal (a b : Bytes) (stack : Stack) :
    step tx i (.op "EQUAL") (b :: a :: stack) = some (flag (decide (a = b)) :: stack) := rfl

theorem step_equalVerify (a b : Bytes) (stack : Stack) :
    step tx i (.op "EQUALVERIFY") (b :: a :: stack) = if a = b then some stack else none := rfl

theorem step_pushCurrentInputIndex (stack : Stack) :
    step tx i (.op "PUSHCURRENTINPUTINDEX") stack = some (num i :: stack) := rfl

@[simp] theorem toNum_num (z : ℤ) : toNum (num z) = some z := by
  rw [toNum, num, if_pos (ScriptNumber.isMinimal_encode z), ScriptNumber.value_encode]

theorem num_inj {z w : ℤ} : num z = num w ↔ z = w :=
  ⟨ScriptNumber.encode_injective, fun h ↦ h ▸ rfl⟩

@[simp] theorem isTrue_flag (b : Bool) : isTrue (flag b) = b := by
  cases b
  · simp [flag, num, isTrue]
  · decide

@[simp] theorem isTrue_one : isTrue (num 1) = true := by decide

@[simp] theorem isTrue_zero : isTrue (num 0) = false := by simp [num, isTrue]

@[simp] theorem at?_num {α : Type} (l : List α) (n : ℕ) : at? l (num n) = l[n]? := by
  simp [at?]

@[simp] theorem lookupKey_num (txid : Bytes) (g : ℕ) :
    lookupKey txid (num g) = some (some ⟨txid.reverse, g⟩) := by
  simp [lookupKey]

theorem step_greaterThanOrEqual (a b : ℤ) (stack : Stack) :
    step tx i (.op "GREATERTHANOREQUAL") (num b :: num a :: stack) =
      some (flag (decide (b ≤ a)) :: stack) := by
  simp [step, stepOp]

theorem step_outputScriptPubKey (n : ℕ) (stack : Stack) :
    step tx i (.op "INSPECTOUTPUTSCRIPTPUBKEY") (num n :: stack) =
      tx.outputs[n]?.map fun out ↦ num out.version :: out.program :: stack := by
  simp only [step, stepOp, at?_num]
  cases tx.outputs[n]? <;> rfl

theorem step_outputValue (n : ℕ) (stack : Stack) :
    step tx i (.op "INSPECTOUTPUTVALUE") (num n :: stack) =
      tx.outputs[n]?.map fun out ↦ num out.value :: stack := by
  simp only [step, stepOp, at?_num]
  cases tx.outputs[n]? <;> rfl

theorem step_inputValue (n : ℕ) (stack : Stack) :
    step tx i (.op "INSPECTINPUTVALUE") (num n :: stack) =
      tx.inputs[n]?.map fun inp ↦ num inp.value :: stack := by
  simp only [step, stepOp, at?_num]
  cases tx.inputs[n]? <;> rfl

theorem step_outAssetLookup (n g : ℕ) (txid : Bytes) (stack : Stack) :
    step tx i (.op "INSPECTOUTASSETLOOKUP") (num g :: txid :: num n :: stack) =
      tx.outputs[n]?.map fun out ↦ pushAmount out.assets (some ⟨txid.reverse, g⟩) stack := by
  simp only [step, stepOp, at?_num, lookupKey_num]
  cases tx.outputs[n]? <;> rfl

theorem step_inAssetLookup (n g : ℕ) (txid : Bytes) (stack : Stack) :
    step tx i (.op "INSPECTINASSETLOOKUP") (num g :: txid :: num n :: stack) =
      tx.inputs[n]?.map fun inp ↦ pushAmount inp.assets (some ⟨txid.reverse, g⟩) stack := by
  simp only [step, stepOp, at?_num, lookupKey_num]
  cases tx.inputs[n]? <;> rfl

theorem step_outAssetCount (n : ℕ) (stack : Stack) :
    step tx i (.op "INSPECTOUTASSETCOUNT") (num n :: stack) =
      tx.outputs[n]?.map fun out ↦ num out.assets.count :: stack := by
  simp only [step, stepOp, at?_num]
  cases tx.outputs[n]? <;> rfl

/-- The flag that a lookup leaves on top, and `VERIFY` consumes. -/
theorem verify_pushAmount (assets : Assets) (key : AssetKey) (stack : Stack) :
    step tx i (.op "VERIFY") (pushAmount assets (some key) stack) =
      (assets.amount key).map fun (amount : ℕ) ↦ num amount :: stack := by
  unfold pushAmount
  simp only [Option.bind_some]
  cases assets.amount key with
  | none => simp [step_verify]
  | some amount => simp [step_verify]

end ArkadeSdk.Vm
