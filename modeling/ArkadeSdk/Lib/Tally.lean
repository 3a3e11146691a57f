import ArkadeSdk.Lib.JsMap
import Mathlib.Algebra.BigOperators.Group.List.Basic
import Mathlib.Algebra.Order.Ring.Int

/-! Amounts summed up by key, in the order in which the keys come up. -/

namespace Tally

open JsMap

variable {κ : Type} [DecidableEq κ]

/-- `m.set(k, (m.get(k) ?? 0) + n)` -/
def add (m : Entries κ ℤ) (e : κ × ℤ) : Entries κ ℤ := set e.1 ((get m e.1).getD 0 + e.2) m

/-- What the entries of a key come to. -/
def amountOf (l : List (κ × ℤ)) (k : κ) : ℤ := ((l.filter (·.1 = k)).map (·.2)).sum

@[simp] theorem amountOf_nil (k : κ) : amountOf ([] : List (κ × ℤ)) k = 0 := rfl

theorem amountOf_cons (e : κ × ℤ) (l : List (κ × ℤ)) (k : κ) :
    amountOf (e :: l) k = (if e.1 = k then e.2 else 0) + amountOf l k := by
  by_cases h : e.1 = k <;> simp [amountOf, h]

theorem amountOf_append (l l' : List (κ × ℤ)) (k : κ) :
    amountOf (l ++ l') k = amountOf l k + amountOf l' k := by
  simp [amountOf, List.filter_append]

theorem amountOf_filter_ne {l : List (κ × ℤ)} {j k : κ} (h : j ≠ k) :
    amountOf (l.filter (·.1 ≠ j)) k = amountOf l k := by
  unfold amountOf
  rw [List.filter_filter]
  congr 2
  refine List.filter_congr fun e _ ↦ ?_
  by_cases hk : e.1 = k
  · simp [hk, h.symm]
  · simp [hk]

theorem get_add (m : Entries κ ℤ) (e : κ × ℤ) (k : κ) :
    (get (add m e) k).getD 0 = (get m k).getD 0 + if e.1 = k then e.2 else 0 := by
  unfold add
  rw [get_set]
  by_cases h : e.1 = k
  · simp [h]
  · simp [h]

theorem get_foldl_add (l : List (κ × ℤ)) (m : Entries κ ℤ) (k : κ) :
    (get (l.foldl add m) k).getD 0 = (get m k).getD 0 + amountOf l k := by
  induction l generalizing m with
  | nil => simp
  | cons e l ih => rw [List.foldl_cons, ih, get_add, amountOf_cons, add_assoc]

theorem mem_keys_add (m : Entries κ ℤ) (e : κ × ℤ) (k : κ) :
    k ∈ (add m e).map Prod.fst ↔ k ∈ m.map Prod.fst ∨ k = e.1 := by
  unfold add
  rw [keys_set]
  split
  · constructor
    · exact .inl
    · rintro (h | rfl)
      · exact h
      · assumption
  · simp

theorem mem_keys_foldl_add (l : List (κ × ℤ)) (m : Entries κ ℤ) (k : κ) :
    k ∈ (l.foldl add m).map Prod.fst ↔ k ∈ m.map Prod.fst ∨ k ∈ l.map Prod.fst := by
  induction l generalizing m with
  | nil => simp
  | cons e l ih =>
    rw [List.foldl_cons, ih, mem_keys_add, List.map_cons, List.mem_cons, or_assoc]

theorem nodup_foldl_add (l : List (κ × ℤ)) {m : Entries κ ℤ} (h : (m.map Prod.fst).Nodup) :
    ((l.foldl add m).map Prod.fst).Nodup := by
  induction l generalizing m with
  | nil => exact h
  | cons e l ih => exact ih (nodup_set h _ _)

omit [DecidableEq κ] in
theorem exists_of_mem_keys {ν : Type} {m : Entries κ ν} {k : κ} (h : k ∈ m.map Prod.fst) :
    ∃ v, (k, v) ∈ m := by
  obtain ⟨⟨k', v⟩, hmem, rfl⟩ := List.mem_map.mp h
  exact ⟨v, hmem⟩

theorem amountOf_nonneg {l : List (κ × ℤ)} (h : ∀ e ∈ l, 0 ≤ e.2) (k : κ) : 0 ≤ amountOf l k := by
  induction l with
  | nil => exact le_rfl
  | cons e l ih =>
    obtain ⟨he, hl⟩ := List.forall_mem_cons.mp h
    have hrest := ih hl
    rw [amountOf_cons]
    split <;> omega

/-- Where keys are not repeated, the amount of a key is that of its only entry. -/
theorem amountOf_eq_find {l : List (κ × ℤ)} (h : (l.map Prod.fst).Nodup) (k : κ) :
    amountOf l k = ((l.find? (·.1 = k)).map (·.2)).getD 0 := by
  induction l with
  | nil => rfl
  | cons e l ih =>
    obtain ⟨hnew, hl⟩ := List.nodup_cons.mp h
    rw [amountOf_cons]
    by_cases hk : e.1 = k
    · have hnone : l.filter (·.1 = k) = [] := by
        refine List.filter_eq_nil_iff.mpr fun e' he' ↦ ?_
        simp only [decide_eq_true_eq]
        exact fun heq ↦ hnew (List.mem_map.mpr ⟨e', he', heq.trans hk.symm⟩)
      have hzero : amountOf l k = 0 := by
        rw [amountOf, hnone]
        rfl
      rw [if_pos hk, hzero, List.find?_cons_of_pos (by simpa using hk)]
      simp
    · rw [if_neg hk, zero_add, ih hl, List.find?_cons_of_neg (by simpa using hk)]

end Tally
