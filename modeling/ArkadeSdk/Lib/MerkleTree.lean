import ArkadeSdk.Lib.LeafTree

/-! Hash trees whose levels pair their neighbours and in which an odd node moves up as it is. -/

namespace MerkleTree

variable {α β γ κ : Type}

def next (branch : β → β → β) : List β → List β
  | [] => []
  | [odd] => [odd]
  | left :: right :: rest => branch left right :: next branch rest

theorem length_next (branch : β → β → β) (nodes : List β) :
    (next branch nodes).length = (nodes.length + 1) / 2 := by
  induction nodes using next.induct with
  | case1 => simp [next]
  | case2 odd => simp [next]
  | case3 left right rest ih =>
    simp only [next, List.length_cons, ih]
    omega

/-- The levels from these nodes up to the root. -/
def levels (branch : β → β → β) (current : List β) : List (List β) :=
  if 1 < current.length then current :: levels branch (next branch current) else [current]
termination_by current.length
decreasing_by
  rw [length_next]
  omega

/-- The first node of the last level. -/
def top (branch : β → β → β) (current : List β) : Option β :=
  (levels branch current).getLast?.bind List.head?

theorem top_next {branch : β → β → β} {current : List β} (h : 1 < current.length) :
    top branch current = top branch (next branch current) := by
  have hne : levels branch (next branch current) ≠ [] := by
    rw [levels]
    split <;> simp
  rw [top, levels, if_pos h, List.getLast?_cons, List.getLast?_eq_some_getLast hne, top,
    List.getLast?_eq_some_getLast hne]
  rfl

theorem top_of_length_le {branch : β → β → β} {current : List β} (h : current.length ≤ 1) :
    top branch current = current.head? := by
  rw [top, levels, if_neg (by omega)]
  rfl

theorem next_map {branch : β → β → β} {branch' : γ → γ → γ} {f : β → γ}
    (hf : ∀ x y, f (branch x y) = branch' (f x) (f y)) (nodes : List β) :
    next branch' (nodes.map f) = (next branch nodes).map f := by
  induction nodes using next.induct with
  | case1 => rfl
  | case2 odd => rfl
  | case3 left right rest ih => simp only [List.map_cons, next, ih, hf]

theorem top_induction {branch : β → β → β} {P : List β → Option β → Prop}
    (hbase : ∀ nodes : List β, nodes.length ≤ 1 → P nodes nodes.head?)
    (hstep : ∀ nodes root, 1 < nodes.length → P (next branch nodes) root → P nodes root)
    (nodes : List β) : P nodes (top branch nodes) := by
  induction nodes using levels.induct branch with
  | case1 nodes h ih =>
    rw [top_next h]
    exact hstep nodes _ h ih
  | case2 nodes h =>
    rw [top_of_length_le (by omega)]
    exact hbase nodes (by omega)

theorem top_map {branch : β → β → β} {branch' : γ → γ → γ} {f : β → γ}
    (hf : ∀ x y, f (branch x y) = branch' (f x) (f y)) (nodes : List β) :
    top branch' (nodes.map f) = (top branch nodes).map f := by
  refine top_induction (P := fun nodes root ↦ top branch' (nodes.map f) = root.map f) ?_ ?_ nodes
  · intro nodes h
    rw [top_of_length_le (by simpa using h), List.head?_map]
  · intro nodes root h ih
    rw [top_next (by simpa using h), next_map hf, ih]

theorem top_isSome {branch : β → β → β} {nodes : List β} (h : nodes ≠ []) :
    ∃ root, top branch nodes = some root := by
  refine top_induction (P := fun nodes root ↦ nodes ≠ [] → ∃ r, root = some r) ?_ ?_ nodes h
  · intro nodes _ hne
    exact ⟨nodes.head hne, List.head?_eq_some_head hne⟩
  · intro nodes root hlt ih _
    refine ih fun hnil ↦ ?_
    have hlength := length_next branch nodes
    rw [hnil, List.length_nil] at hlength
    omega

theorem leaves_next (trees : List (LeafTree α)) :
    (next .branch trees).flatMap LeafTree.leaves = trees.flatMap LeafTree.leaves := by
  induction trees using next.induct with
  | case1 => rfl
  | case2 odd => rfl
  | case3 left right rest ih =>
    simp only [next, List.flatMap_cons, ih, LeafTree.leaves, List.append_assoc]

/-- The tree whose root the levels compute. -/
def tree (items : List α) : Option (LeafTree α) := top .branch (items.map .leaf)

theorem tree_isSome {items : List α} (h : items ≠ []) : ∃ t, tree items = some t :=
  top_isSome (by simpa using h)

theorem leaves_tree {items : List α} {t : LeafTree α} (h : tree items = some t) :
    t.leaves = items := by
  have hleaves := @top_induction _ LeafTree.branch (fun trees root ↦ ∀ t : LeafTree α,
    root = some t → t.leaves = trees.flatMap LeafTree.leaves)
    ?_ ?_ (items.map .leaf) t h
  · rw [hleaves, List.flatMap_map]
    simp [LeafTree.leaves]
  · intro trees hlength t ht
    cases trees with
    | nil => cases ht
    | cons only rest =>
      cases rest with
      | nil =>
        cases ht
        simp
      | cons _ _ => simp at hlength
  · intro trees root _ ih t ht
    rw [ih t ht, leaves_next]

/-- How leaves and branches become messages, and the hash of a message. -/
structure Scheme (α κ β : Type) where
  hash : κ → β
  leafMessage : α → κ
  branchMessage : β → β → κ
  leafMessage_ne : ∀ a x y, leafMessage a ≠ branchMessage x y
  /-- A branch fixes its two children up to their order. -/
  branchMessage_inj : ∀ p q p' q', branchMessage (hash p) (hash q) =
    branchMessage (hash p') (hash q') →
      (hash p = hash p' ∧ hash q = hash q') ∨ (hash p = hash q' ∧ hash q = hash p')

namespace Scheme

variable (S : Scheme α κ β)

def root : LeafTree α → β
  | .leaf a => S.hash (S.leafMessage a)
  | .branch left right => S.hash (S.branchMessage (root left) (root right))

/-- The message whose hash is the root. -/
def message : LeafTree α → κ
  | .leaf a => S.leafMessage a
  | .branch left right => S.branchMessage (S.root left) (S.root right)

theorem root_eq (t : LeafTree α) : S.root t = S.hash (S.message t) := by
  cases t <;> rfl

/-- Everything that is hashed for the root. -/
def messages : LeafTree α → List κ
  | .leaf a => [S.leafMessage a]
  | .branch left right =>
    S.branchMessage (S.root left) (S.root right) :: (messages left ++ messages right)

theorem message_mem (t : LeafTree α) : S.message t ∈ S.messages t := by
  cases t <;> exact List.mem_cons_self

variable {S}

/-- Unless two of the hashed messages collide, trees with one root have the same leaves. -/
theorem leaves_perm {t t' : LeafTree α} (hleaf : ∀ a ∈ t.leaves, ∀ a' ∈ t'.leaves,
      S.leafMessage a = S.leafMessage a' → a = a')
    (hcollision : ∀ m ∈ S.messages t, ∀ m' ∈ S.messages t', S.hash m = S.hash m' → m = m')
    (hroot : S.root t = S.root t') : t.leaves.Perm t'.leaves := by
  induction t generalizing t' with
  | leaf a =>
    rw [S.root_eq, S.root_eq] at hroot
    have hmessage := hcollision _ (S.message_mem _) _ (S.message_mem _) hroot
    cases t' with
    | leaf a' =>
      rw [hleaf a List.mem_cons_self a' List.mem_cons_self hmessage]
    | branch left' right' => exact absurd hmessage (S.leafMessage_ne _ _ _)
  | branch left right ihl ihr =>
    rw [S.root_eq, S.root_eq t'] at hroot
    have hmessage := hcollision _ (S.message_mem _) _ (S.message_mem _) hroot
    cases t' with
    | leaf a' => exact absurd hmessage.symm (S.leafMessage_ne _ _ _)
    | branch left' right' =>
      simp only [LeafTree.leaves, messages, List.mem_append, List.mem_cons] at hleaf hcollision ⊢
      have hmessage : S.branchMessage (S.hash (S.message left)) (S.hash (S.message right)) =
          S.branchMessage (S.hash (S.message left')) (S.hash (S.message right')) := by
        rw [← S.root_eq, ← S.root_eq, ← S.root_eq, ← S.root_eq]
        exact hmessage
      rcases S.branchMessage_inj _ _ _ _ hmessage with ⟨hl, hr⟩ | ⟨hl, hr⟩
      · refine (ihl (fun a ha a' ha' ↦ ?_) (fun m hm m' hm' ↦ ?_) ?_).append
          (ihr (fun a ha a' ha' ↦ ?_) (fun m hm m' hm' ↦ ?_) ?_)
        · exact hleaf a (.inl ha) a' (.inl ha')
        · exact hcollision m (.inr (.inl hm)) m' (.inr (.inl hm'))
        · rwa [S.root_eq, S.root_eq]
        · exact hleaf a (.inr ha) a' (.inr ha')
        · exact hcollision m (.inr (.inr hm)) m' (.inr (.inr hm'))
        · rwa [S.root_eq, S.root_eq]
      · refine ((ihl (fun a ha a' ha' ↦ ?_) (fun m hm m' hm' ↦ ?_) ?_).append
          (ihr (fun a ha a' ha' ↦ ?_) (fun m hm m' hm' ↦ ?_) ?_)).trans List.perm_append_comm
        · exact hleaf a (.inl ha) a' (.inr ha')
        · exact hcollision m (.inr (.inl hm)) m' (.inr (.inr hm'))
        · rwa [S.root_eq, S.root_eq]
        · exact hleaf a (.inr ha) a' (.inl ha')
        · exact hcollision m (.inr (.inr hm)) m' (.inr (.inl hm'))
        · rwa [S.root_eq, S.root_eq]

theorem top_eq_root (items : List α) :
    top (fun x y ↦ S.hash (S.branchMessage x y)) (items.map fun a ↦ S.hash (S.leafMessage a)) =
      (tree items).map S.root := by
  have hmap := @top_map _ _ LeafTree.branch (fun x y ↦ S.hash (S.branchMessage x y)) S.root
    (fun _ _ ↦ rfl) (items.map .leaf)
  rw [List.map_map] at hmap
  exact hmap

end Scheme

theorem next_swap {branch : β → β → β} (hcomm : ∀ x y, branch x y = branch y x)
    {front : List β} (heven : front.length % 2 = 0) (x y : β) (back : List β) :
    next branch (front ++ y :: x :: back) = next branch (front ++ x :: y :: back) := by
  induction front using next.induct with
  | case1 => rw [List.nil_append, List.nil_append, next, next, hcomm]
  | case2 odd => simp at heven
  | case3 left right rest ih =>
    rw [List.cons_append, List.cons_append, List.cons_append, List.cons_append, next, next, ih]
    simp only [List.length_cons] at heven
    omega

/-- The root does not tell the order of a pair. -/
theorem top_swap {branch : β → β → β} (hcomm : ∀ x y, branch x y = branch y x)
    {front : List β} (heven : front.length % 2 = 0) (x y : β) (back : List β) :
    top branch (front ++ y :: x :: back) = top branch (front ++ x :: y :: back) := by
  rw [top_next, next_swap hcomm heven, ← top_next]
  · simp only [List.length_append, List.length_cons]
    omega
  · simp only [List.length_append, List.length_cons]
    omega

end MerkleTree
