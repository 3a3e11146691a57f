import Mathlib.Algebra.Group.Nat.Defs
import Mathlib.Data.List.Perm.Basic
import Mathlib.Data.Nat.Log

/-! Binary trees with their data at the leaves, and the queue that merges a forest into one. -/

inductive LeafTree (α : Type)
  | leaf (a : α)
  | branch (left right : LeafTree α)
  deriving DecidableEq, Repr

namespace LeafTree

variable {α β : Type}

def leaves : LeafTree α → List α
  | leaf a => [a]
  | branch left right => left.leaves ++ right.leaves

/-- The depth of the deepest leaf. -/
def height : LeafTree α → ℕ
  | leaf _ => 0
  | branch left right => max left.height right.height + 1

def map (f : α → β) : LeafTree α → LeafTree β
  | leaf a => leaf (f a)
  | branch left right => branch (left.map f) (right.map f)

theorem leaves_map (f : α → β) (t : LeafTree α) : (t.map f).leaves = t.leaves.map f := by
  induction t with
  | leaf a => rfl
  | branch left right ihl ihr => rw [map, leaves, ihl, ihr, leaves, List.map_append]

theorem height_map (f : α → β) (t : LeafTree α) : (t.map f).height = t.height := by
  induction t with
  | leaf a => rfl
  | branch left right ihl ihr => rw [map, height, ihl, ihr, height]

/-- The two trees in front become one at the back, until one is left. -/
def merge : List (LeafTree α) → Option (LeafTree α)
  | [] => none
  | [t] => some t
  | left :: right :: rest => merge (rest ++ [branch left right])
termination_by queue => queue.length
decreasing_by simp

theorem merge_isSome {queue : List (LeafTree α)} (h : queue ≠ []) : ∃ t, merge queue = some t := by
  induction queue using merge.induct with
  | case1 => exact absurd rfl h
  | case2 t => exact ⟨t, by rw [merge]⟩
  | case3 left right rest ih =>
    rw [merge]
    exact ih (by simp)

theorem merge_map (f : α → β) (queue : List (LeafTree α)) :
    merge (queue.map (map f)) = (merge queue).map (map f) := by
  induction queue using merge.induct with
  | case1 => rw [List.map_nil, merge, merge, Option.map_none]
  | case2 t => rw [List.map_singleton, merge, merge, Option.map_some]
  | case3 left right rest ih =>
    rw [List.map_append] at ih
    rw [List.map_cons, List.map_cons, merge, merge]
    exact ih

theorem leaves_merge {queue : List (LeafTree α)} {t : LeafTree α} (h : merge queue = some t) :
    t.leaves.Perm (queue.flatMap leaves) := by
  induction queue using merge.induct with
  | case1 => rw [merge] at h; cases h
  | case2 u =>
    rw [merge] at h
    cases h
    simp
  | case3 left right rest ih =>
    rw [merge] at h
    refine (ih h).trans ?_
    simp only [List.flatMap_append, List.flatMap_cons, List.flatMap_nil, List.append_nil, leaves]
    rw [← List.append_assoc left.leaves]
    exact List.perm_append_comm

/-- The queue holds trees of one level and, behind them, those that have been merged from it. -/
theorem height_merge_le {queue xs ys : List (LeafTree α)} {t : LeafTree α} {d k : ℕ}
    (h : merge queue = some t) (hqueue : queue = xs ++ ys) (hxs : ∀ x ∈ xs, x.height ≤ d)
    (hys : ∀ y ∈ ys, y.height ≤ d + 1) (hlength : xs.length + 2 * ys.length ≤ 2 ^ k) :
    t.height ≤ d + k := by
  induction queue using merge.induct generalizing xs ys d k with
  | case1 => rw [merge] at h; cases h
  | case2 u =>
    rw [merge] at h
    cases h
    cases xs with
    | nil =>
      obtain rfl : ys = [t] := hqueue.symm
      have hk : k ≠ 0 := by rintro rfl; simp at hlength
      have ht := hys t (by simp)
      omega
    | cons x xs =>
      obtain ⟨rfl, -⟩ := List.cons.inj hqueue
      have ht := hxs t (by simp)
      omega
  | case3 left right rest ih =>
    rw [merge] at h
    -- With fewer than two trees of the level in front, the next level begins.
    have hnext (hleft : left.height ≤ d + 1) (hright : right.height ≤ d + 1)
        (hrest : ∀ x ∈ rest, x.height ≤ d + 1) (hlt : 2 * rest.length + 2 < 2 ^ k) :
        t.height ≤ d + k := by
      obtain ⟨j, rfl⟩ : ∃ j, k = j + 1 :=
        Nat.exists_eq_succ_of_ne_zero (by rintro rfl; simp at hlt)
      have ht := @ih rest [branch left right] (d + 1) j h rfl hrest
        (fun y hy ↦ by rw [List.mem_singleton.mp hy, height]; omega)
        (by rw [Nat.pow_succ] at hlt; simp only [List.length_singleton]; omega)
      omega
    match xs with
    | [] =>
      obtain rfl : ys = left :: right :: rest := hqueue.symm
      simp only [List.forall_mem_cons] at hys
      refine hnext hys.1 hys.2.1 hys.2.2 ?_
      simp only [List.length_cons, List.length_nil] at hlength
      omega
    | [x] =>
      obtain ⟨rfl, rfl⟩ := List.cons.inj hqueue
      simp only [List.forall_mem_cons] at hys
      have hleft := hxs left (by simp)
      refine hnext (by omega) hys.1 hys.2 ?_
      simp only [List.length_cons, List.length_nil] at hlength
      omega
    | x :: x' :: xs =>
      obtain ⟨rfl, htail⟩ := List.cons.inj hqueue
      obtain ⟨rfl, rfl⟩ := List.cons.inj htail
      simp only [List.forall_mem_cons] at hxs
      refine ih h (List.append_assoc xs ys _) hxs.2.2 (fun y hy ↦ ?_) ?_
      · rcases List.mem_append.mp hy with hy | hy
        · exact hys y hy
        · rw [List.mem_singleton.mp hy, height]
          omega
      · simp only [List.length_append, List.length_cons, List.length_nil] at hlength ⊢
        omega

end LeafTree
