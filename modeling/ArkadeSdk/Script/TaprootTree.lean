import Mathlib.Data.List.FinRange
import ArkadeSdk.Lib.JsNumber
import ArkadeSdk.Lib.LeafTree
import ArkadeSdk.Lib.WireFormat

/-! The taproot tree of a list of scripts, in the shape that the operator computes. -/

namespace ArkadeSdk

open WireFormat JsNumber LeafTree

def TAP_LEAF_VERSION : ℕ := 0xc0

structure TaprootLeaf where
  script : Bytes
  leafVersion : ℕ
  deriving DecidableEq, Repr

abbrev TaprootTreeNode := LeafTree TaprootLeaf

def scriptFromTapLeafScript (leaf : Bytes) : Bytes := leaf.dropLast

variable {α β : Type}

/-- Phase 1. `i` is the index of the first of the leaves that are left. -/
def pairLeaves (i : ℕ) (branches : List (LeafTree α)) :
    List α → Except Message (List (LeafTree α))
  | [] => .ok branches
  | [odd] =>
    match branches.getLast? with
    | none =>
      .error [.text "assembleBtcdTaprootTree: unexpected odd leaf at i=", .value (.ofNat i),
        .text " with no prior branch"]
    | some last => .ok (branches.dropLast ++ [.branch last (.leaf odd)])
  | left :: right :: leaves =>
    pairLeaves (i + 2) (branches ++ [.branch (.leaf left) (.leaf right)]) leaves

/-- Both phases. No tree stands for the `undefined` that `branches[0]` is on an empty queue. -/
def assembleLeaves : List α → Except Message (Option (LeafTree α))
  | [single] => .ok (some (.leaf single))
  | leaves => do
    let branches ← pairLeaves 0 [] leaves
    return merge branches

def assembleBtcdTaprootTree (scripts : List Bytes) : Except Message (Option TaprootTreeNode) :=
  if scripts.length = 0 then .error (message "assembleBtcdTaprootTree: empty scripts list")
  else assembleLeaves (scripts.map fun script ↦ ⟨script, TAP_LEAF_VERSION⟩)

theorem pairLeaves_map (f : α → β) (i : ℕ) (branches : List (LeafTree α)) (leaves : List α) :
    pairLeaves i (branches.map (map f)) (leaves.map f) =
      (pairLeaves i branches leaves).map (List.map (map f)) := by
  induction i, branches, leaves using pairLeaves.induct with
  | case1 i branches => rfl
  | case2 i branches odd h =>
    simp [pairLeaves, h, Except.map]
  | case3 i branches odd last h =>
    simp [pairLeaves, h, Except.map, LeafTree.map, List.map_dropLast]
  | case4 i branches left right leaves ih =>
    rw [List.map_cons, List.map_cons, pairLeaves, pairLeaves, ← ih, List.map_append]
    rfl

/-- The pairs of an even number of leaves, and how the last one takes in an odd leaf. -/
inductive Paired : List α → List (LeafTree α) → Prop
  | even {leaves : List α} {branches : List (LeafTree α)} :
      branches.flatMap LeafTree.leaves = leaves → (∀ b ∈ branches, b.height = 1) →
      leaves.length = 2 * branches.length → Paired leaves branches
  | odd {leaves : List α} {branches : List (LeafTree α)} {last : LeafTree α} :
      (branches ++ [last]).flatMap LeafTree.leaves = leaves → (∀ b ∈ branches, b.height = 1) →
      last.height = 2 → leaves.length = 2 * branches.length + 3 → Paired leaves (branches ++ [last])

theorem pairLeaves_ok {before leaves : List α} {branches : List (LeafTree α)} (i : ℕ)
    (hleaves : branches.flatMap LeafTree.leaves = before) (hheight : ∀ b ∈ branches, b.height = 1)
    (hlength : before.length = 2 * branches.length) (hne : branches ≠ [] ∨ leaves.length ≠ 1) :
    ∃ result, pairLeaves i branches leaves = .ok result ∧ Paired (before ++ leaves) result := by
  induction i, branches, leaves using pairLeaves.induct generalizing before with
  | case1 i branches =>
    refine ⟨branches, rfl, ?_⟩
    rw [List.append_nil]
    exact .even hleaves hheight hlength
  | case2 i branches odd h =>
    rw [List.getLast?_eq_none_iff] at h
    simp [h] at hne
  | case3 i branches odd last h =>
    have hlast : branches.dropLast ++ [last] = branches :=
      List.dropLast_append_getLast? last h
    refine ⟨branches.dropLast ++ [.branch last (.leaf odd)], by rw [pairLeaves, h], ?_⟩
    refine .odd ?_ ?_ ?_ ?_
    · rw [← hleaves, ← hlast]
      simp [LeafTree.leaves]
    · exact fun b hb ↦ hheight b (List.dropLast_subset _ hb)
    · rw [height, hheight last (List.mem_of_getLast? h), height]
      rfl
    · rw [← hlast] at hlength
      simp at hlength ⊢
      omega
  | case4 i branches left right leaves ih =>
    have hpair : (LeafTree.branch (.leaf left) (.leaf right)).height = 1 := rfl
    obtain ⟨result, hresult, hpaired⟩ := @ih (before ++ [left, right])
      (by rw [List.flatMap_append, hleaves]; rfl)
      (by
        intro b hb
        rcases List.mem_append.mp hb with hb | hb
        · exact hheight b hb
        · rwa [List.mem_singleton.mp hb])
      (by simp [hlength]; omega) (.inl (by simp))
    refine ⟨result, hresult, ?_⟩
    rwa [List.append_assoc] at hpaired

theorem Paired.flatMap_leaves {leaves : List α} {branches : List (LeafTree α)}
    (h : Paired leaves branches) : branches.flatMap LeafTree.leaves = leaves := by
  cases h with
  | even hleaves _ _ => exact hleaves
  | odd hleaves _ _ _ => exact hleaves

theorem Paired.height_merge_le {leaves : List α} {branches : List (LeafTree α)}
    {tree : LeafTree α} {k : ℕ} (h : Paired leaves branches) (hmerge : merge branches = some tree)
    (hlength : leaves.length ≤ 2 ^ (k + 1)) : tree.height ≤ k + 1 := by
  rw [Nat.add_comm]
  rw [Nat.pow_succ] at hlength
  cases h with
  | even hleaves hheight hcount =>
    refine LeafTree.height_merge_le hmerge (List.append_nil _).symm
      (fun b hb ↦ (hheight b hb).le) (by simp) ?_
    simp only [List.length_nil]
    omega
  | @odd branches last hleaves hheight hlast hcount =>
    refine LeafTree.height_merge_le hmerge rfl (fun b hb ↦ (hheight b hb).le) ?_ ?_
    · rintro b hb
      rw [List.mem_singleton.mp hb, hlast]
    · simp only [List.length_singleton]
      omega

theorem assembleLeaves_ok {leaves : List α} (h : leaves ≠ []) :
    ∃ tree, assembleLeaves leaves = .ok (some tree) ∧ tree.leaves.Perm leaves ∧
      tree.height ≤ Nat.clog 2 leaves.length := by
  match leaves with
  | [single] => exact ⟨.leaf single, rfl, .refl _, Nat.zero_le _⟩
  | first :: second :: rest =>
    obtain ⟨branches, hbranches, hpaired⟩ := @pairLeaves_ok _ []
      (first :: second :: rest) [] 0 rfl (by simp) rfl (.inr (by simp))
    have hne : branches ≠ [] := by
      rintro rfl
      simpa using hpaired.flatMap_leaves
    obtain ⟨tree, htree⟩ := merge_isSome hne
    refine ⟨tree, ?_, ?_, ?_⟩
    · rw [assembleLeaves, hbranches, ← htree]
      · rfl
      · simp
    · have hleaves := leaves_merge htree
      rwa [hpaired.flatMap_leaves] at hleaves
    · obtain ⟨k, hk⟩ : ∃ k, Nat.clog 2 (rest.length + 2) = k + 1 :=
        Nat.exists_eq_succ_of_ne_zero (Nat.clog_pos (by decide) (by omega)).ne'
      rw [List.length_cons, List.length_cons, hk]
      refine hpaired.height_merge_le htree ?_
      rw [← hk]
      exact Nat.le_pow_clog (by decide) _

theorem assembleLeaves_map (f : α → β) (leaves : List α) :
    assembleLeaves (leaves.map f) = (assembleLeaves leaves).map (Option.map (LeafTree.map f)) := by
  have hpairs := pairLeaves_map f 0 [] leaves
  match leaves with
  | [] => simp [assembleLeaves, pairLeaves, merge, Except.map, bind, Except.bind, pure, Except.pure]
  | [single] => rfl
  | first :: second :: rest =>
    simp only [List.map_cons, List.map_nil] at hpairs ⊢
    rw [assembleLeaves, hpairs, assembleLeaves]
    · cases pairLeaves 0 [] (first :: second :: rest) with
      | error e => rfl
      | ok branches => exact congrArg Except.ok (merge_map f branches)
    · simp
    · simp

/-- The tree holds every position of the list exactly once, and is as low as it can be. -/
theorem assembleBtcdTaprootTree_balanced {scripts : List Bytes} (h : scripts ≠ []) :
    ∃ (tree : TaprootTreeNode) (positions : LeafTree (Fin scripts.length)),
      assembleBtcdTaprootTree scripts = .ok (some tree) ∧
      tree = positions.map (fun i ↦ ⟨scripts[i], TAP_LEAF_VERSION⟩) ∧
      positions.leaves.Perm (List.finRange scripts.length) ∧
      tree.leaves.Perm (scripts.map fun script ↦ ⟨script, TAP_LEAF_VERSION⟩) ∧
      tree.height ≤ Nat.clog 2 scripts.length ∧
      (scripts.length ≤ 2 ^ 127 → tree.height < 128) := by
  let leafAt (i : Fin scripts.length) : TaprootLeaf := ⟨scripts[i], TAP_LEAF_VERSION⟩
  have hleaves : (scripts.map fun script ↦ (⟨script, TAP_LEAF_VERSION⟩ : TaprootLeaf)) =
      (List.finRange scripts.length).map leafAt := by
    rw [← List.ofFn_eq_map]
    exact List.ext_getElem (by simp) fun i _ _ ↦ by simp [leafAt]
  have hne : List.finRange scripts.length ≠ [] := by
    simpa [List.finRange_eq_nil_iff] using h
  obtain ⟨positions, hpositions, hperm, hheight⟩ := assembleLeaves_ok hne
  rw [List.length_finRange] at hheight
  refine ⟨positions.map leafAt, positions, ?_, rfl, hperm, ?_, ?_, ?_⟩
  · rw [assembleBtcdTaprootTree, if_neg (by simpa using h), hleaves, assembleLeaves_map, hpositions]
    rfl
  · rw [leaves_map, hleaves]
    exact hperm.map leafAt
  · rwa [height_map]
  · intro hlength
    rw [height_map]
    have := Nat.clog_le_of_le_pow hlength
    omega

theorem three_leaves_balanced : ∃ (tree : TaprootTreeNode) (positions : LeafTree (Fin 3)),
    assembleBtcdTaprootTree [[0x51], [0x52], [0x53]] = .ok (some tree) ∧
    tree = positions.map (fun i ↦ ⟨[[0x51], [0x52], [0x53]][i], TAP_LEAF_VERSION⟩) ∧
    positions.leaves.Perm (List.finRange 3) ∧
    tree.leaves.Perm [⟨[0x51], 0xc0⟩, ⟨[0x52], 0xc0⟩, ⟨[0x53], 0xc0⟩] ∧
    tree.height ≤ Nat.clog 2 3 ∧ (3 ≤ 2 ^ 127 → tree.height < 128) :=
  @assembleBtcdTaprootTree_balanced [[0x51], [0x52], [0x53]] (by decide)

end ArkadeSdk
