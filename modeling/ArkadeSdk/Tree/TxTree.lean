import ArkadeSdk.Lib.JsMap
import ArkadeSdk.Lib.WireFormat

/-! The trees of transactions that a batch sends node by node. -/

namespace ArkadeSdk.BatchTree

open WireFormat JsNumber

abbrev Txid := String

structure TxOutput where
  script : Option Bytes
  amount : Option ℤ
  deriving DecidableEq

/-- `txid` in hexadecimal. -/
structure TxInput where
  txid : Option Txid
  index : Option ℕ
  witnessUtxo : Option TxOutput
  deriving DecidableEq

structure Transaction where
  inputs : List TxInput
  outputs : List TxOutput
  deriving DecidableEq

namespace Transaction

def outpoints (tx : Transaction) : List (Option Txid × Option ℕ) :=
  tx.inputs.map fun input ↦ (input.txid, input.index)

def outputSum (tx : Transaction) : ℤ := (tx.outputs.map fun output ↦ output.amount.getD 0).sum

end Transaction

/-- PSBT decoding, and the id of what was decoded. -/
structure TxLibrary where
  fromPSBT : String → Except Message Transaction
  id : Transaction → Txid

/-- The transactions that anyone can send. -/
def TxLibrary.Decoded (lib : TxLibrary) (tx : Transaction) : Prop := ∃ psbt, lib.fromPSBT psbt = .ok tx

/-- Among them, an id tells which outputs a transaction spends and makes. -/
def TxLibrary.CollisionFree (lib : TxLibrary) : Prop :=
  ∀ tx tx' : Transaction, lib.Decoded tx → lib.Decoded tx' → lib.id tx = lib.id tx' →
    tx.outpoints = tx'.outpoints ∧ tx.outputs = tx'.outputs

/-- The key of a child is the output it spends, `none` where the text was no integer. -/
abbrev OutputIndex := Option ℤ

structure TxTreeNode where
  txid : Txid
  tx : String
  children : List (OutputIndex × Txid)
  deriving DecidableEq

structure DecodedNode where
  tx : Transaction
  children : List (OutputIndex × Txid)

mutual

inductive TxTree
  | node (root : Transaction) (children : Children)

inductive Children
  | nil
  | cons (outputIndex : OutputIndex) (child : TxTree) (rest : Children)

end

def TxTree.root : TxTree → Transaction
  | .node root _ => root

def TxTree.children : TxTree → Children
  | .node _ children => children

namespace Children

def toList : Children → JsMap.Entries OutputIndex TxTree
  | .nil => []
  | .cons outputIndex child rest => (outputIndex, child) :: rest.toList

def ofList : JsMap.Entries OutputIndex TxTree → Children
  | [] => .nil
  | (outputIndex, child) :: rest => .cons outputIndex child (ofList rest)

def set (outputIndex : OutputIndex) (child : TxTree) (children : Children) : Children :=
  ofList (JsMap.set outputIndex child children.toList)

@[simp] theorem toList_ofList (l : JsMap.Entries OutputIndex TxTree) : (ofList l).toList = l := by
  induction l with
  | nil => rfl
  | cons e l ih => rw [ofList, toList, ih]

end Children

mutual

def TxTree.nbOfNodes : TxTree → ℕ
  | .node _ children => 1 + children.nbOfNodes

def Children.nbOfNodes : Children → ℕ
  | .nil => 0
  | .cons _ child rest => child.nbOfNodes + rest.nbOfNodes

end

mutual

def TxTree.leaves : TxTree → List Transaction
  | .node root .nil => [root]
  | .node _ (.cons _ child rest) => child.leaves ++ rest.leaves

def Children.leaves : Children → List Transaction
  | .nil => []
  | .cons _ child rest => child.leaves ++ rest.leaves

end

mutual

def TxTree.hasTx (id : Transaction → Txid) (txid : Txid) : TxTree → Bool
  | .node root children => id root = txid || children.hasTx id txid

def Children.hasTx (id : Transaction → Txid) (txid : Txid) : Children → Bool
  | .nil => false
  | .cons _ child rest => child.hasTx id txid || rest.hasTx id txid

end

section

variable (lib : TxLibrary)

def decodeNode (chunk : TxTreeNode) : Except Message DecodedNode := do
  let tx ← lib.fromPSBT chunk.tx
  return ⟨tx, chunk.children⟩

abbrev Chunks := JsMap.Entries Txid DecodedNode

/-- The chunks by the ids of what they decode to; the last one of an id stays. -/
def chunksByTxid : Chunks → List TxTreeNode → Except Message Chunks
  | chunks, [] => .ok chunks
  | chunks, chunk :: rest => do
    let decodedChunk ← decodeNode lib chunk
    chunksByTxid (JsMap.set (lib.id decodedChunk.tx) decodedChunk chunks) rest

end

def hasChild (chunk : DecodedNode) (childTxid : Txid) : Bool :=
  chunk.children.any (·.2 = childTxid)

def isChild (chunks : Chunks) (txid : Txid) : Bool :=
  chunks.any fun (otherTxid, otherChunk) ↦ otherTxid ≠ txid && hasChild otherChunk txid

/-- The loop over a chunk's children; one that was not sent is left out. -/
def buildChildren (build : Txid → Except Message (Option TxTree)) (children : Children) :
    List (OutputIndex × Txid) → Except Message Children
  | [] => .ok children
  | (outputIndex, childTxid) :: rest => do
    match ← build childTxid with
    | some child => buildChildren build (children.set outputIndex child) rest
    | none => buildChildren build children rest

/-- A path longer than there are chunks goes round in circles, and so does the recursion. -/
def buildGraph (chunks : Chunks) : ℕ → Txid → Except Message (Option TxTree)
  | 0, _ => .error (message "Maximum call stack size exceeded")
  | depth + 1, rootTxid =>
    match JsMap.get chunks rootTxid with
    | none => .ok none
    | some chunk => do
      let children ← buildChildren (buildGraph chunks depth) .nil chunk.children
      return some (.node chunk.tx children)

def TxTree.create (lib : TxLibrary) (chunks : List TxTreeNode) : Except Message TxTree := do
  rejectIf (chunks = []) (message "empty chunks")
  let byTxid ← chunksByTxid lib [] chunks
  match (byTxid.map (·.1)).filter fun txid ↦ !isChild byTxid txid with
  | [] => throw (message "no root chunk found")
  | [rootTxid] =>
    match ← buildGraph byTxid (byTxid.length + 1) rootTxid with
    | none => throw (message ("chunk not found for root txid: " ++ rootTxid))
    | some graph =>
      rejectIf (graph.nbOfNodes ≠ chunks.length)
        [.text "number of chunks (", .value (.ofNat chunks.length),
          .text ") is not equal to the number of nodes in the graph (",
          .value (.ofNat graph.nbOfNodes), .text ")"]
      return graph
  | rootTxids => throw (message
      ("multiple root chunks found: " ++ String.intercalate ", " rootTxids))

def keyText : OutputIndex → Part
  | none => .value .nan
  | some i => .value (.ofInt i)

def spends (child : Transaction) (txid : Txid) (outputIndex : OutputIndex) : Bool :=
  match child.inputs with
  | [] => false
  | input :: _ => input.txid = some txid && decide (input.index.map Nat.cast = outputIndex) &&
    outputIndex.isSome

def checkChild (lib : TxLibrary) (parent : Transaction) (outputIndex : OutputIndex)
    (child : Transaction) : Except Message Unit := do
  rejectIf (spends child (lib.id parent) outputIndex = false)
    [.text "input of child ", keyText outputIndex, .text " is not the output of the parent"]
  match outputIndex with
  | some (.ofNat i) =>
    match (parent.outputs[i]?).bind (·.amount) with
    | none | some 0 => throw [.text "parent output ", keyText outputIndex, .text " has no amount"]
    | some amount =>
      rejectIf (child.outputSum ≠ amount)
        [.text "sum of child's outputs is not equal to the output of the parent: ",
          .value (.ofInt child.outputSum), .text " != ", .value (.ofInt amount)]
  | _ => return

mutual

def TxTree.validate (lib : TxLibrary) : TxTree → Except Message Unit
  | .node root children => do
    rejectIf (root.inputs.length ≠ 1) [.text "unexpected number of inputs: ",
      .value (.ofNat root.inputs.length), .text ", expected 1"]
    rejectIf ((root.outputs.length : ℤ) - 1 < children.toList.length)
      [.text "unexpected number of children: ", .value (.ofNat children.toList.length),
        .text ", expected maximum ", .value (.ofInt (root.outputs.length - 1))]
    children.validate lib root

def Children.validate (lib : TxLibrary) (parent : Transaction) : Children → Except Message Unit
  | .nil => .ok ()
  | .cons outputIndex child rest => do
    rejectIf (outputIndex.any ((parent.outputs.length : ℤ) ≤ ·))
      [.text "output index ", keyText outputIndex, .text " is out of bounds (nb of outputs: ",
        .value (.ofNat parent.outputs.length), .text ")"]
    child.validate lib
    checkChild lib parent outputIndex child.root
    rest.validate lib parent

end

end ArkadeSdk.BatchTree
