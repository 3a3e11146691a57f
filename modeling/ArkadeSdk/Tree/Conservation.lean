import ArkadeSdk.Tree.Validation
import Mathlib.Algebra.BigOperators.Group.Finset.Basic
import Mathlib.Algebra.BigOperators.Ring.Finset

/-! The value of a checked tree: what the commitment transaction puts in comes out at the leaves
and at the outputs that the tree does not spend. -/

namespace ArkadeSdk.BatchTree

open WireFormat JsNumber

/-- The amount of output `i`, zero where there is none. -/
def Transaction.amountAt (tx : Transaction) (i : ℕ) : ℤ := ((tx.outputs[i]?).bind (·.amount)).getD 0

theorem outputSum_eq (tx : Transaction) :
    tx.outputSum = ∑ i ∈ Finset.range tx.outputs.length, tx.amountAt i := by
  obtain ⟨inputs, outputs⟩ := tx
  simp only [Transaction.outputSum, Transaction.amountAt]
  induction outputs with
  | nil => rfl
  | cons output outputs ih =>
    rw [List.map_cons, List.sum_cons, List.length_cons, Finset.sum_range_succ', ih, add_comm]
    rfl

/-- The amounts of the outputs that no child spends. -/
def unspentOutputs (parent : Transaction) (children : Children) : ℤ :=
  ∑ i ∈ (Finset.range parent.outputs.length).filter fun i : ℕ ↦
    some (i : ℤ) ∉ children.toList.map Prod.fst, parent.amountAt i

mutual

/-- The amounts that stay in the nodes which have children. -/
def TxTree.unspentSum : TxTree → ℤ
  | .node _ .nil => 0
  | .node root (.cons outputIndex child rest) =>
    unspentOutputs root (.cons outputIndex child rest) + (child.unspentSum + rest.unspentSum)

def Children.unspentSum : Children → ℤ
  | .nil => 0
  | .cons _ child rest => child.unspentSum + rest.unspentSum

end

section

variable {lib : TxLibrary}

theorem checkChild_amount {parent child : Transaction} {i : OutputIndex} {n : ℕ}
    (h : checkChild lib parent i child = .ok ()) (hi : i = some (n : ℤ)) :
    n < parent.outputs.length ∧ child.outputSum = parent.amountAt n := by
  subst hi
  obtain ⟨-, h⟩ := then_ok.mp h
  dsimp only [Int.ofNat_eq_natCast] at h
  unfold Transaction.amountAt
  split at h
  · cases h
  · cases h
  · next amount _ hamount =>
    obtain ⟨output, houtput, -⟩ := Option.bind_eq_some_iff.mp hamount
    refine ⟨(List.getElem?_eq_some_iff.mp houtput).1, ?_⟩
    rw [hamount]
    exact not_not.mp (rejectIf_ok.mp h)

structure Spends (lib : TxLibrary) (parent : Transaction) (i : OutputIndex) (child : Transaction)
    (n : ℕ) : Prop where
  index_eq : i = some (n : ℤ)
  outpoints_eq : child.outpoints = [(some (lib.id parent), some n)]
  lt_length : n < parent.outputs.length
  outputSum_eq : child.outputSum = parent.amountAt n

theorem validate_spends {parent : Transaction} {children : Children}
    (h : children.validate lib parent = .ok ()) :
    ∀ e ∈ children.toList, ∃ n, Spends lib parent e.1 e.2.root n := by
  match children with
  | .nil =>
    intro e he
    cases he
  | .cons outputIndex child rest =>
    simp only [Children.validate, bind_ok] at h
    obtain ⟨_, -, _, hchild, _, hcheck, hrest⟩ := h
    intro e he
    rcases List.mem_cons.mp he with rfl | he
    · have hspends : spends child.root (lib.id parent) outputIndex = true := by
        obtain ⟨hreject, -⟩ := then_ok.mp hcheck
        simpa using rejectIf_ok.mp hreject
      obtain ⟨n, rfl, hout⟩ := spends_outpoints hspends (validate_root hchild)
      obtain ⟨hlt, hsum⟩ := checkChild_amount hcheck rfl
      exact ⟨n, rfl, hout, hlt, hsum⟩
    · exact validate_spends hrest e he

theorem outputSum_spent {parent : Transaction} {children : Children}
    (hkeys : (children.toList.map Prod.fst).Nodup)
    (h : ∀ e ∈ children.toList, ∃ n, Spends lib parent e.1 e.2.root n) :
    parent.outputSum = (children.toList.map fun e ↦ e.2.root.outputSum).sum +
      unspentOutputs parent children := by
  let index (e : OutputIndex × TxTree) : ℕ := (e.1.getD 0).toNat
  have hindex : ∀ e ∈ children.toList, e.1 = some (index e : ℤ) ∧
      index e < parent.outputs.length ∧ e.2.root.outputSum = parent.amountAt (index e) := by
    intro e he
    obtain ⟨n, hn⟩ := h e he
    have hidx : index e = n := by simp [index, hn.index_eq]
    rw [hidx]
    exact ⟨hn.index_eq, hn.lt_length, hn.outputSum_eq⟩
  have hkey : children.toList.map Prod.fst =
      (children.toList.map index).map fun n : ℕ ↦ some (n : ℤ) := by
    rw [List.map_map]
    exact List.map_congr_left fun e he ↦ (hindex e he).1
  have hnodup : (children.toList.map index).Nodup := by
    rw [hkey] at hkeys
    exact hkeys.of_map _
  have hspent : (Finset.range parent.outputs.length).filter (fun n : ℕ ↦
      ¬some (n : ℤ) ∉ children.toList.map Prod.fst) = (children.toList.map index).toFinset := by
    ext n
    rw [Finset.mem_filter, Finset.mem_range, not_not, hkey, List.mem_toFinset]
    constructor
    · rintro ⟨-, hmem⟩
      obtain ⟨m, hm, heq⟩ := List.mem_map.mp hmem
      obtain rfl : m = n := by simpa using heq
      exact hm
    · intro hmem
      obtain ⟨e, he, rfl⟩ := List.mem_map.mp hmem
      exact ⟨(hindex e he).2.1, List.mem_map.mpr ⟨_, hmem, rfl⟩⟩
  rw [outputSum_eq, ← Finset.sum_filter_not_add_sum_filter _ fun n : ℕ ↦
    some (n : ℤ) ∉ children.toList.map Prod.fst, hspent, List.sum_toFinset _ hnodup, List.map_map]
  congr 2
  exact List.map_congr_left fun e he ↦ (hindex e he).2.2.symm

end

mutual

theorem TxTree.outputSum_conserved {lib : TxLibrary} (tree : TxTree) (hkeyed : Keyed tree)
    (hvalid : tree.validate lib = .ok ()) :
    tree.root.outputSum = (tree.leaves.map Transaction.outputSum).sum + tree.unspentSum := by
  match tree with
  | .node root .nil => simp [TxTree.root, TxTree.leaves, TxTree.unspentSum]
  | .node root (.cons outputIndex child rest) =>
    have hchildren : (Children.cons outputIndex child rest).validate lib root = .ok () := by
      simp only [TxTree.validate, then_ok] at hvalid
      exact hvalid.2.2
    have hkeys : ((Children.cons outputIndex child rest).toList.map Prod.fst).Nodup :=
      hkeyed _ _ .root
    have hspent := outputSum_spent hkeys (validate_spends hchildren)
    have hbelow := Children.outputSum_conserved (.cons outputIndex child rest)
      (fun e he ↦ hkeyed.child he) fun e he ↦ (validate_children hchildren e he).1
    have hleaves : (TxTree.node root (.cons outputIndex child rest)).leaves =
        (Children.cons outputIndex child rest).leaves := rfl
    rw [TxTree.root, hspent, hbelow, hleaves, TxTree.unspentSum, Children.unspentSum]
    ring

theorem Children.outputSum_conserved {lib : TxLibrary} (children : Children)
    (hkeyed : ∀ e ∈ children.toList, Keyed e.2)
    (hvalid : ∀ e ∈ children.toList, e.2.validate lib = .ok ()) :
    (children.toList.map fun e ↦ e.2.root.outputSum).sum =
      (children.leaves.map Transaction.outputSum).sum + children.unspentSum := by
  match children with
  | .nil => rfl
  | .cons outputIndex child rest =>
    have hchild := TxTree.outputSum_conserved child (hkeyed (outputIndex, child) List.mem_cons_self)
      (hvalid (outputIndex, child) List.mem_cons_self)
    have hrest := Children.outputSum_conserved rest
      (fun e he ↦ hkeyed e (List.mem_cons_of_mem _ he))
      fun e he ↦ hvalid e (List.mem_cons_of_mem _ he)
    rw [Children.toList, List.map_cons, List.sum_cons, hchild, hrest, Children.leaves,
      List.map_append, List.sum_append, Children.unspentSum]
    ring

end

theorem validateVtxoTxGraph_ok {lib : TxLibrary} {keys : CosignerLibrary} {graph : TxTree}
    {roundTransaction : Transaction} {sweepTapTreeRoot : Bytes}
    (h : validateVtxoTxGraph lib keys graph roundTransaction sweepTapTreeRoot = .ok ()) :
    ∃ batchOutput rest, roundTransaction.outputs = batchOutput :: rest ∧
      batchOutput.amount = some graph.root.outputSum ∧
      spends graph.root (lib.id roundTransaction) (some (BATCH_OUTPUT_VTXO_INDEX : ℤ)) = true ∧
      graph.validate lib = .ok () ∧ graph.checkKeys keys sweepTapTreeRoot = .ok () := by
  unfold validateVtxoTxGraph at h
  split at h
  · cases h
  · next batchOutput rest houtputs =>
    split at h
    · cases h
    · cases h
    · next amount _ hamount =>
      simp only [bind_ok] at h
      obtain ⟨_, -, _, hspends, _, hsum, _, -, _, hvalid, hkeys⟩ := h
      have hsum := not_not.mp (rejectIf_ok.mp hsum)
      refine ⟨batchOutput, rest, houtputs, hamount.trans (congrArg some hsum.symm), ?_, hvalid,
        hkeys⟩
      simpa using rejectIf_ok.mp hspends

/-- The commitment's output is paid out at the leaves and at the outputs that the tree leaves
unspent, and no output of a parent funds two children. -/
theorem value_conserved {lib : TxLibrary} {keys : CosignerLibrary} {graph : TxTree}
    {roundTransaction : Transaction} {sweepTapTreeRoot : Bytes} (hkeyed : Keyed graph)
    (h : validateVtxoTxGraph lib keys graph roundTransaction sweepTapTreeRoot = .ok ()) :
    (∃ batchOutput rest, roundTransaction.outputs = batchOutput :: rest ∧
      batchOutput.amount =
        some ((graph.leaves.map Transaction.outputSum).sum + graph.unspentSum)) ∧
    ∀ path parent, At graph path parent →
      (∀ e ∈ parent.children.toList, ∃ n, Spends lib parent.root e.1 e.2.root n) ∧
      (parent.children.toList.map fun e ↦ e.2.root.outpoints).Nodup := by
  obtain ⟨batchOutput, rest, houtputs, hamount, -, hvalid, -⟩ := validateVtxoTxGraph_ok h
  rw [TxTree.outputSum_conserved graph hkeyed hvalid] at hamount
  refine ⟨⟨batchOutput, rest, houtputs, hamount⟩, fun path parent hat ↦ ?_⟩
  have hspends : ∀ e ∈ parent.children.toList, ∃ n, Spends lib parent.root e.1 e.2.root n := by
    have hparent := hat.valid hvalid
    cases parent with
    | node root children =>
      simp only [TxTree.validate, then_ok] at hparent
      exact validate_spends hparent.2.2
  refine ⟨hspends, ?_⟩
  have hkeys := hkeyed path parent hat
  refine List.Nodup.of_map
    (fun outpoints ↦ (outpoints.head?.bind Prod.snd).map (Nat.cast : ℕ → ℤ)) ?_
  rw [List.map_map]
  refine (congrArg List.Nodup (List.map_congr_left fun e he ↦ ?_)).mpr hkeys
  obtain ⟨n, hn⟩ := hspends e he
  rw [Function.comp_apply, hn.outpoints_eq, hn.index_eq]
  rfl

theorem keyed_node {root : Transaction} {children : Children}
    (hkeys : (children.toList.map Prod.fst).Nodup)
    (hchildren : ∀ e ∈ children.toList, Keyed e.2) : Keyed (.node root children) := by
  intro path sub hat
  rcases hat.from_root with ⟨-, rfl⟩ | ⟨e, he, path', hat⟩
  · exact hkeys
  · exact hchildren e he path' sub hat

/-- The commitment transaction is the one without inputs, and the root the one that spends it. -/
def branchId (tx : Transaction) : Txid :=
  match tx.inputs with
  | [] => "commitment"
  | input :: _ => if input.txid = some "commitment" then "root" else "child"

def branchLibrary : TxLibrary := ⟨fun _ ↦ .error (message "invalid psbt"), branchId⟩

def branchScript : Bytes := 0x51 :: 0x20 :: List.replicate 32 7

def branchKeys : CosignerLibrary :=
  ⟨fun _ ↦ .ok [[2]], fun _ _ ↦ .ok (some (2 :: List.replicate 32 7))⟩

def commitmentTx : Transaction := ⟨[], [⟨some branchScript, some 150⟩]⟩

def branchLeaf : Transaction :=
  ⟨[⟨some "root", some 1, none⟩], [⟨some [0x51], some 100⟩, ⟨some [0x51], some 0⟩]⟩

/-- The first output has no child, the second one has. -/
def branchTree : TxTree :=
  .node ⟨[⟨some "commitment", some 0, none⟩],
      [⟨some branchScript, some 50⟩, ⟨some branchScript, some 100⟩]⟩
    (.cons (some 1) (.node branchLeaf .nil) .nil)

theorem branchTree_keyed : Keyed branchTree := by
  refine keyed_node (by decide) fun e he ↦ ?_
  obtain rfl := List.mem_singleton.mp he
  exact keyed_node List.nodup_nil fun e he ↦ by cases he

theorem value_conserved_branch :
    (∃ batchOutput rest, commitmentTx.outputs = batchOutput :: rest ∧
      batchOutput.amount =
        some ((branchTree.leaves.map Transaction.outputSum).sum + branchTree.unspentSum)) ∧
    ∀ path parent, At branchTree path parent →
      (∀ e ∈ parent.children.toList, ∃ n, Spends branchLibrary parent.root e.1 e.2.root n) ∧
      (parent.children.toList.map fun e ↦ e.2.root.outpoints).Nodup :=
  have h : validateVtxoTxGraph branchLibrary branchKeys branchTree commitmentTx [] = .ok () := rfl
  value_conserved branchTree_keyed h

end ArkadeSdk.BatchTree
