import ArkadeSdk.Tree.Conservation

/-! Whether the nodes of an accepted tree are locked to their cosigners: what a signing session
signs for, and what the validation compares. -/

namespace ArkadeSdk.BatchTree

open WireFormat JsNumber

/-- `Script.encode(["OP_1", finalKey.slice(1)])`. -/
def prevOutputScript (finalKey : Bytes) : Bytes :=
  0x51 :: UInt8.ofNat (finalKey.drop 1).length :: finalKey.drop 1

structure PrevOutput where
  script : Bytes
  amount : ℤ
  deriving DecidableEq

mutual

def TxTree.find (id : Transaction → Txid) (txid : Txid) : TxTree → Option Transaction
  | .node root children => if txid = id root then some root else children.find id txid

def Children.find (id : Transaction → Txid) (txid : Txid) : Children → Option Transaction
  | .nil => none
  | .cons _ child rest => (child.find id txid).or (rest.find id txid)

end

def getPrevOutput (lib : TxLibrary) (finalKey : Bytes) (graph : TxTree) (sharedOutputAmount : ℤ)
    (tx : Transaction) : Except Message PrevOutput :=
  if lib.id tx = lib.id graph.root then .ok ⟨prevOutputScript finalKey, sharedOutputAmount⟩
  else match tx.inputs with
    | [] => .error (message "Wrong input index=0")
    | parentInput :: _ => match parentInput.txid with
      | none => .error (message "missing parent input txid")
      | some parentTxid => match graph.find lib.id parentTxid with
        | none => .error (message "parent  tx not found")
        | some parent => match parentInput.index with
          | none => .error (message "missing input index")
          | some index => match parent.outputs[index]? with
            | none => .error (message "parent output not found")
            | some parentOutput => match parentOutput.amount with
              | none | some 0 => .error (message "parent output amount not found")
              | some amount => .ok ⟨prevOutputScript finalKey, amount⟩

theorem getPrevOutput_script {lib : TxLibrary} {finalKey : Bytes} {graph : TxTree}
    {sharedOutputAmount : ℤ} {tx : Transaction} {prevout : PrevOutput}
    (h : getPrevOutput lib finalKey graph sharedOutputAmount tx = .ok prevout) :
    prevout.script = prevOutputScript finalKey := by
  unfold getPrevOutput at h
  split at h
  · cases h
    rfl
  · repeat' split at h
    all_goals first | cases h; rfl | cases h

def spentOutput (parent child : Transaction) : Option TxOutput :=
  (child.inputs.head?.bind (·.index)).bind (parent.outputs[·]?)

/-- Input 0 of `child` spends an output of `parent` that pays exactly to the key of the cosigners
of `child`, the one that a session of theirs signs with and for. -/
def Locked (keys : CosignerLibrary) (sweepTapTreeRoot : Bytes) (parent child : Transaction) :
    Prop :=
  ∃ cosigners finalKey, keys.cosigners child = .ok cosigners ∧
    keys.aggregateKeys cosigners sweepTapTreeRoot = .ok (some finalKey) ∧
    (spentOutput parent child).bind (·.script) = some (prevOutputScript finalKey)

def AllLocked (keys : CosignerLibrary) (sweepTapTreeRoot : Bytes) (graph : TxTree)
    (roundTransaction : Transaction) : Prop :=
  Locked keys sweepTapTreeRoot roundTransaction graph.root ∧
    ∀ path parent, At graph path parent → ∀ e ∈ parent.children.toList,
      Locked keys sweepTapTreeRoot parent.root e.2.root

/-- The output is a witness program of version 1, 32 bytes long. -/
def IsTaproot (parent child : Transaction) : Prop :=
  ((spentOutput parent child).bind (·.script)).map (·.take 2) = some [0x51, 0x20]

section

variable {lib : TxLibrary} {keys : CosignerLibrary} {sweepTapTreeRoot : Bytes}

theorem Spends.spentOutput_eq {parent child : Transaction} {i : OutputIndex} {n : ℕ}
    (h : Spends lib parent i child n) : spentOutput parent child = parent.outputs[n]? := by
  have hout := h.outpoints_eq
  unfold Transaction.outpoints at hout
  obtain ⟨input, hinput, heq⟩ := List.map_eq_singleton_iff.mp hout
  simp only [Prod.mk.injEq] at heq
  simp [spentOutput, hinput, heq.2]

theorem checkCosigners_ok {parent child : Transaction} {i : OutputIndex} {n : ℕ}
    (hspends : Spends lib parent i child n)
    (h : checkCosigners keys sweepTapTreeRoot parent i child = .ok ()) :
    ∃ cosigners finalKey script, keys.cosigners child = .ok cosigners ∧
      keys.aggregateKeys cosigners sweepTapTreeRoot = .ok (some finalKey) ∧
      (spentOutput parent child).bind (·.script) = some script ∧
      script.drop 2 = finalKey.drop 1 ∧ (finalKey.drop 1).length = 32 := by
  rw [hspends.spentOutput_eq]
  simp only [checkCosigners, hspends.index_eq, Option.bind_some, Int.natCast_nonneg, if_true,
    Int.toNat_natCast] at h
  split at h
  · cases h
  · next script hscript =>
    simp only [bind_ok] at h
    obtain ⟨_, hlength, cosigners, hcosigners, _, -, finalKey, hkey, hsame⟩ := h
    have hlength := not_not.mp (rejectIf_ok.mp hlength)
    have hsame := not_not.mp (rejectIf_ok.mp hsame)
    cases finalKey with
    | none => cases hsame
    | some finalKey =>
      have hsame : finalKey.drop 1 = script.drop 2 := Option.some.inj hsame
      exact ⟨cosigners, finalKey, script, hcosigners, hkey, hscript, hsame.symm, hsame ▸ hlength⟩

theorem checkAll_ok {parent : Transaction} {children : Children}
    (h : checkAll keys sweepTapTreeRoot parent children = .ok ()) :
    ∀ e ∈ children.toList, checkCosigners keys sweepTapTreeRoot parent e.1 e.2.root = .ok () := by
  match children with
  | .nil =>
    intro e he
    cases he
  | .cons childIndex child rest =>
    obtain ⟨hchild, hrest⟩ := then_ok.mp h
    intro e he
    rcases List.mem_cons.mp he with rfl | he
    · exact hchild
    · exact checkAll_ok hrest e he

theorem checkKeys_children {children : Children}
    (h : children.checkKeys keys sweepTapTreeRoot = .ok ()) :
    ∀ e ∈ children.toList, e.2.checkKeys keys sweepTapTreeRoot = .ok () := by
  match children with
  | .nil =>
    intro e he
    cases he
  | .cons childIndex child rest =>
    simp only [Children.checkKeys, then_ok] at h
    intro e he
    rcases List.mem_cons.mp he with rfl | he
    · exact h.1
    · exact checkKeys_children h.2 e he

theorem At.checkKeys {graph sub : TxTree} {path : List OutputIndex} (hat : At graph path sub)
    (h : graph.checkKeys keys sweepTapTreeRoot = .ok ()) :
    sub.checkKeys keys sweepTapTreeRoot = .ok () := by
  induction hat with
  | root => exact h
  | @child path parent child i hparent hmem ih =>
    cases parent with
    | node root children =>
      simp only [TxTree.checkKeys, then_ok] at ih
      exact checkKeys_children ih.1 _ hmem

/-- A child whose output passed is locked as soon as the first two bytes are right. -/
theorem locked_iff {parent child : Transaction} {i : OutputIndex} {n : ℕ}
    (hspends : Spends lib parent i child n)
    (h : checkCosigners keys sweepTapTreeRoot parent i child = .ok ()) :
    Locked keys sweepTapTreeRoot parent child ↔ IsTaproot parent child := by
  obtain ⟨cosigners, finalKey, script, hcosigners, hkey, hscript, hdrop, hlength⟩ :=
    checkCosigners_ok hspends h
  have hstart : prevOutputScript finalKey = 0x51 :: 0x20 :: finalKey.drop 1 := by
    rw [prevOutputScript, hlength]
    rfl
  constructor
  · rintro ⟨cosigners', finalKey', hcosigners', hkey', hscript'⟩
    rw [hcosigners] at hcosigners'
    cases hcosigners'
    rw [hkey] at hkey'
    cases hkey'
    rw [IsTaproot, hscript', hstart]
    rfl
  · intro htaproot
    rw [IsTaproot, hscript] at htaproot
    have htake : script.take 2 = [0x51, 0x20] := Option.some.inj htaproot
    refine ⟨cosigners, finalKey, hcosigners, hkey, ?_⟩
    rw [hscript, hstart, ← hdrop, ← List.take_append_drop 2 script, htake]
    simp

/-- An accepted tree is spendable throughout exactly when the batch output pays to the cosigners of
the root, which nothing checks, and every output that the tree spends is a taproot one. -/
theorem accepted_locked_iff {graph : TxTree} {roundTransaction : Transaction}
    (h : validateVtxoTxGraph lib keys graph roundTransaction sweepTapTreeRoot = .ok ()) :
    AllLocked keys sweepTapTreeRoot graph roundTransaction ↔
      Locked keys sweepTapTreeRoot roundTransaction graph.root ∧
        ∀ path parent, At graph path parent → ∀ e ∈ parent.children.toList,
          IsTaproot parent.root e.2.root := by
  obtain ⟨-, -, -, -, -, hvalid, hkeys⟩ := validateVtxoTxGraph_ok h
  have hedge : ∀ path parent, At graph path parent → ∀ e ∈ parent.children.toList,
      (Locked keys sweepTapTreeRoot parent.root e.2.root ↔ IsTaproot parent.root e.2.root) := by
    intro path parent hat e he
    have hparent := hat.valid hvalid
    have hcheck := hat.checkKeys hkeys
    cases parent with
    | node root children =>
      simp only [TxTree.validate, then_ok] at hparent
      simp only [TxTree.checkKeys, then_ok] at hcheck
      obtain ⟨n, hspends⟩ := validate_spends hparent.2.2 e he
      exact locked_iff hspends (checkAll_ok hcheck.2 e he)
  exact and_congr_right fun _ ↦ forall₃_congr fun path parent hat ↦
    forall₂_congr fun e he ↦ hedge path parent hat e he

theorem accepted_locked_branch :
    AllLocked branchKeys [] branchTree commitmentTx ↔
      Locked branchKeys [] commitmentTx branchTree.root ∧
        ∀ path parent, At branchTree path parent → ∀ e ∈ parent.children.toList,
          IsTaproot parent.root e.2.root :=
  have h : validateVtxoTxGraph branchLibrary branchKeys branchTree commitmentTx [] = .ok () := rfl
  accepted_locked_iff h

end

/-- A batch output that nobody can spend, and a script that ends in the right key only. -/
def burntCommitment : Transaction := ⟨[], [⟨some [0x6a], some 150⟩]⟩

def burntTree : TxTree :=
  .node ⟨[⟨some "commitment", some 0, none⟩],
      [⟨some branchScript, some 50⟩, ⟨some (0x6a :: 0x20 :: List.replicate 32 7), some 100⟩]⟩
    (.cons (some 1) (.node branchLeaf .nil) .nil)

theorem burnt_tree_accepted :
    (validateVtxoTxGraph branchLibrary branchKeys branchTree burntCommitment [] = .ok () ∧
      ¬AllLocked branchKeys [] branchTree burntCommitment) ∧
    validateVtxoTxGraph branchLibrary branchKeys burntTree commitmentTx [] = .ok () ∧
      ¬AllLocked branchKeys [] burntTree commitmentTx := by
  refine ⟨⟨rfl, ?_⟩, rfl, ?_⟩
  · rintro ⟨⟨cosigners, finalKey, ⟨⟩, ⟨⟩, hscript⟩, -⟩
    exact absurd hscript (by decide)
  · rintro ⟨-, h⟩
    obtain ⟨cosigners, finalKey, ⟨⟩, ⟨⟩, hscript⟩ :=
      h [] burntTree .root (some 1, .node branchLeaf .nil) List.mem_cons_self
    exact absurd hscript (by decide)

end ArkadeSdk.BatchTree
