import ArkadeSdk.Tree.TxTreeDistinct

/-! The checks of a connector tree and of a tree of virtual outputs against the commitment
transaction. -/

namespace ArkadeSdk.BatchTree

open WireFormat JsNumber

def BATCH_OUTPUT_VTXO_INDEX : ℕ := 0
def BATCH_OUTPUT_CONNECTORS_INDEX : ℕ := 1

def validateConnectorsTxGraph (lib : TxLibrary) (settlementTx : String) (connectorsGraph : TxTree) :
    Except Message Unit := do
  connectorsGraph.validate lib
  rejectIf (connectorsGraph.root.inputs.length ≠ 1) (message "invalid number of inputs")
  let settlementTx ← lib.fromPSBT settlementTx
  rejectIf (settlementTx.outputs.length ≤ BATCH_OUTPUT_CONNECTORS_INDEX)
    (message "invalid settlement transaction outputs")
  rejectIf (!spends connectorsGraph.root (lib.id settlementTx)
    (some (BATCH_OUTPUT_CONNECTORS_INDEX : ℤ))) (message "wrong settlement txid")

/-- Reading the cosigners of an input, and aggregating keys under a taproot tweak. -/
structure CosignerLibrary where
  cosigners : Transaction → Except Message (List Bytes)
  aggregateKeys : List Bytes → Bytes → Except Message (Option Bytes)

/-- The output of a node that a child spends is locked to the child's cosigners. -/
def checkCosigners (keys : CosignerLibrary) (sweepTapTreeRoot : Bytes) (parent : Transaction)
    (childIndex : OutputIndex) (child : Transaction) : Except Message Unit := do
  let output := childIndex.bind fun i ↦ if 0 ≤ i then parent.outputs[i.toNat]? else none
  match output.bind (·.script) with
  | none => throw [.text "parent output ", keyText childIndex, .text " not found"]
  | some script =>
    let previousScriptKey := script.drop 2
    rejectIf (previousScriptKey.length ≠ 32)
      [.text "parent output ", keyText childIndex, .text " has invalid script"]
    let cosignerKeys ← keys.cosigners child
    rejectIf (cosignerKeys.length = 0) (message "missing cosigners public keys")
    let finalKey ← keys.aggregateKeys cosignerKeys sweepTapTreeRoot
    rejectIf (finalKey.map (·.drop 1) ≠ some previousScriptKey)
      (message "invalid taproot script")

def checkAll (keys : CosignerLibrary) (sweepTapTreeRoot : Bytes) (parent : Transaction) :
    Children → Except Message Unit
  | .nil => .ok ()
  | .cons childIndex child rest => do
    checkCosigners keys sweepTapTreeRoot parent childIndex child.root
    checkAll keys sweepTapTreeRoot parent rest

mutual

/-- The loop over `graph.iterator()`, which yields a node after its children. -/
def TxTree.checkKeys (keys : CosignerLibrary) (sweepTapTreeRoot : Bytes) :
    TxTree → Except Message Unit
  | .node root children => do
    children.checkKeys keys sweepTapTreeRoot
    checkAll keys sweepTapTreeRoot root children

def Children.checkKeys (keys : CosignerLibrary) (sweepTapTreeRoot : Bytes) :
    Children → Except Message Unit
  | .nil => .ok ()
  | .cons _ child rest => do
    child.checkKeys keys sweepTapTreeRoot
    rest.checkKeys keys sweepTapTreeRoot

end

def validateVtxoTxGraph (lib : TxLibrary) (keys : CosignerLibrary) (graph : TxTree)
    (roundTransaction : Transaction) (sweepTapTreeRoot : Bytes) : Except Message Unit := do
  match roundTransaction.outputs with
  | [] => throw (message "invalid round transaction outputs")
  | batchOutput :: _ =>
    match batchOutput.amount with
    | none | some 0 => throw (message "invalid round transaction outputs")
    | some batchOutputAmount =>
      rejectIf (graph.root.inputs = []) (message "Wrong input index=0")
      rejectIf (!spends graph.root (lib.id roundTransaction) (some (BATCH_OUTPUT_VTXO_INDEX : ℤ)))
        (message "wrong commitment txid")
      rejectIf (graph.root.outputSum ≠ batchOutputAmount) (message "invalid amount")
      rejectIf (graph.leaves.length = 0) (message "no leaves")
      graph.validate lib
      graph.checkKeys keys sweepTapTreeRoot

theorem validateConnectorsTxGraph_ok {lib : TxLibrary} {settlementTx : String} {graph : TxTree}
    (h : validateConnectorsTxGraph lib settlementTx graph = .ok ()) :
    graph.validate lib = .ok () ∧ ∃ tx, lib.fromPSBT settlementTx = .ok tx ∧
      graph.root.outpoints = [(some (lib.id tx), some BATCH_OUTPUT_CONNECTORS_INDEX)] := by
  simp only [validateConnectorsTxGraph, then_ok, rejectIf_ok, ne_eq, not_not] at h
  obtain ⟨hvalid, hone, h⟩ := h
  obtain ⟨tx, htx, h⟩ := bind_ok.mp h
  simp only [then_ok, rejectIf_ok, Bool.not_eq_true', Bool.not_eq_false] at h
  obtain ⟨n, hn, hout⟩ := spends_outpoints h.2 hone
  have hindex : n = BATCH_OUTPUT_CONNECTORS_INDEX := by
    have hcast := Option.some.inj hn
    exact (Int.ofNat_inj.mp hcast).symm
  rw [hindex] at hout
  exact ⟨hvalid, tx, htx, hout⟩

end ArkadeSdk.BatchTree
