import Mathlib.Data.List.Nodup
import Mathlib.Data.Int.Notation
import Mathlib.Data.Nat.Notation
import Mathlib.Tactic.Common

/-! A limited number of slots, and those who wait for one in the order in which they came. -/

namespace SlotQueue

variable {W : Type}

structure Slots (W : Type) where
  active : ℤ
  queue : List W

namespace Slots

def empty : Slots W := ⟨0, []⟩

/-- There is a slot to be had. -/
def hasFree (max : ℕ) (s : Slots W) : Bool := s.active < max

/-- A slot if there is one, else a place at the end of the queue. -/
def acquire (max : ℕ) (s : Slots W) (w : W) : Slots W :=
  if s.hasFree max then { s with active := s.active + 1 } else { s with queue := s.queue ++ [w] }

/-- The slot goes to the first in the queue, if anybody waits. -/
def release (s : Slots W) : Slots W :=
  match s.queue with
  | [] => { s with active := s.active - 1 }
  | _ :: queue => ⟨s.active - 1 + 1, queue⟩

end Slots

/-- Everybody who came and everybody who was given a slot, in order, and those who have one. -/
structure Book (W : Type) where
  arrived : List W
  granted : List W
  holders : List W

namespace Book

variable [DecidableEq W]

def empty : Book W := ⟨[], [], []⟩

def grant (b : Book W) (w : W) : Book W :=
  { b with granted := b.granted ++ [w], holders := w :: b.holders }

def acquire (b : Book W) (free : Bool) (w : W) : Book W :=
  let b := { b with arrived := b.arrived ++ [w] }
  if free then b.grant w else b

def release (b : Book W) (w : W) (next : Option W) : Book W :=
  let b := { b with holders := b.holders.erase w }
  match next with
  | some next => b.grant next
  | none => b

end Book

/-- The count of active ones is that of the holders, nobody waits while there is a free slot, and
slots are given in the order of arrival. -/
structure Kept (max : ℕ) (s : Slots W) (b : Book W) : Prop where
  count : (b.holders.length : ℤ) = s.active
  bound : s.active ≤ max
  full : s.queue ≠ [] → s.active = max
  order : b.arrived = b.granted ++ s.queue
  nodup : b.arrived.Nodup
  holders_nodup : b.holders.Nodup
  holders_subset : b.holders ⊆ b.granted

section Kept

variable {max : ℕ} {s : Slots W} {b : Book W} {w : W}

theorem kept_empty : Kept max (Slots.empty : Slots W) Book.empty where
  count := rfl
  bound := Int.natCast_nonneg max
  full h := absurd rfl h
  order := rfl
  nodup := List.nodup_nil
  holders_nodup := List.nodup_nil
  holders_subset := List.nil_subset _

theorem Kept.granted_subset (h : Kept max s b) : b.granted ⊆ b.arrived := by
  rw [h.order]
  exact List.subset_append_left _ _

theorem Kept.queue_subset (h : Kept max s b) : s.queue ⊆ b.arrived := by
  rw [h.order]
  exact List.subset_append_right _ _

theorem Kept.notMem_queue (h : Kept max s b) (hw : w ∈ b.granted) : w ∉ s.queue := by
  have hnodup := h.nodup
  rw [h.order] at hnodup
  exact fun hq ↦ (List.nodup_append.mp hnodup).2.2 w hw w hq rfl

theorem Kept.acquire (h : Kept max s b) (hw : w ∉ b.arrived) :
    Kept max (s.acquire max w) (b.acquire (s.hasFree max) w) := by
  have hnodup : (b.arrived ++ [w]).Nodup := by
    rw [List.nodup_append_comm, List.singleton_append, List.nodup_cons]
    exact ⟨hw, h.nodup⟩
  by_cases hfree : s.hasFree max
  · have hlt : s.active < max := of_decide_eq_true hfree
    have hqueue : s.queue = [] := by
      by_contra hne
      have := h.full hne
      omega
    have hcount := h.count
    rw [Slots.acquire, Book.acquire, if_pos hfree, if_pos hfree]
    exact {
      count := by
        simp only [Book.grant, List.length_cons]
        omega
      bound := by
        dsimp only
        omega
      full := fun hne ↦ absurd hqueue hne
      order := by
        simp only [Book.grant, h.order, hqueue, List.append_nil]
      nodup := hnodup
      holders_nodup :=
        List.nodup_cons.mpr ⟨fun hmem ↦ hw (h.granted_subset (h.holders_subset hmem)),
          h.holders_nodup⟩
      holders_subset := by
        refine List.cons_subset.mpr ⟨List.mem_append_right _ List.mem_cons_self, ?_⟩
        exact List.subset_append_of_subset_left _ h.holders_subset }
  · have hge : ¬s.active < max := fun hlt ↦ hfree (decide_eq_true hlt)
    have hbound := h.bound
    rw [Slots.acquire, Book.acquire, if_neg hfree, if_neg hfree]
    exact {
      count := h.count
      bound := hbound
      full := fun _ ↦ by
        dsimp only
        omega
      order := by simp only [h.order, List.append_assoc]
      nodup := hnodup
      holders_nodup := h.holders_nodup
      holders_subset := h.holders_subset }

variable [DecidableEq W]

theorem Kept.release (h : Kept max s b) (hw : w ∈ b.holders) :
    Kept max s.release (b.release w s.queue.head?) := by
  have hlength : ((b.holders.erase w).length : ℤ) = s.active - 1 := by
    have hpos := List.length_pos_of_mem hw
    have hcount := h.count
    rw [List.length_erase_of_mem hw]
    omega
  have hsubset : b.holders.erase w ⊆ b.granted :=
    fun x hx ↦ h.holders_subset (List.mem_of_mem_erase hx)
  have hbound := h.bound
  cases hqueue : s.queue with
  | nil =>
    simp only [Slots.release, Book.release, hqueue, List.head?_nil]
    exact {
      count := hlength
      bound := by
        dsimp only
        omega
      full := fun hne ↦ absurd rfl hne
      order := by
        rw [← hqueue]
        exact h.order
      nodup := h.nodup
      holders_nodup := h.holders_nodup.erase w
      holders_subset := hsubset }
  | cons next queue =>
    have hfull := h.full (by rw [hqueue]; exact List.cons_ne_nil _ _)
    have hnext : next ∉ b.granted := fun hmem ↦
      h.notMem_queue hmem (by rw [hqueue]; exact List.mem_cons_self)
    simp only [Slots.release, Book.release, hqueue, List.head?_cons]
    exact {
      count := by
        simp only [Book.grant, List.length_cons]
        omega
      bound := by
        dsimp only
        omega
      full := fun _ ↦ by
        dsimp only
        omega
      order := by
        simp only [Book.grant, h.order, hqueue, List.append_assoc, List.singleton_append]
      nodup := h.nodup
      holders_nodup :=
        List.nodup_cons.mpr ⟨fun hmem ↦ hnext (hsubset hmem), h.holders_nodup.erase w⟩
      holders_subset := by
        refine List.cons_subset.mpr ⟨List.mem_append_right _ List.mem_cons_self, ?_⟩
        exact List.subset_append_of_subset_left _ hsubset }

end Kept

end SlotQueue
