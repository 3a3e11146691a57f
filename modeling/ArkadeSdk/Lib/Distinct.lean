import Mathlib.Data.List.Nodup

/-! Lists in which a key is kept where it first comes up. -/

namespace Distinct

variable {α κ : Type} [DecidableEq κ] (key : α → κ)

/-- `if (seen.has(key)) continue; seen.add(key); all.push(a)` -/
def add (all : List α) (a : α) : List α := if key a ∈ all.map key then all else all ++ [a]

def addAll (all l : List α) : List α := l.foldl (add key) all

variable {key} {all l : List α}

theorem nodup_add (h : (all.map key).Nodup) (a : α) : ((add key all a).map key).Nodup := by
  unfold add
  split
  · exact h
  · next hnew =>
    rw [List.map_append, List.map_singleton]
    exact h.append (List.nodup_singleton _) (List.disjoint_singleton.mpr hnew)

theorem nodup_addAll (h : (all.map key).Nodup) : ((addAll key all l).map key).Nodup := by
  induction l generalizing all with
  | nil => exact h
  | cons a l ih => exact ih (nodup_add h a)

/-! Without a key, a list without repetitions. -/

theorem mem_add_id {all : List κ} {a b : κ} : b ∈ add id all a ↔ b ∈ all ∨ b = a := by
  unfold add
  split
  · next hmem =>
    refine ⟨Or.inl, fun h ↦ h.elim (fun h ↦ h) ?_⟩
    rintro rfl
    simpa using hmem
  · simp

theorem nodup_add_id {all : List κ} (h : all.Nodup) (a : κ) : (add id all a).Nodup := by
  have hids : (all.map id).Nodup := by rwa [List.map_id]
  have hnodup := nodup_add hids a
  rwa [List.map_id] at hnodup

theorem mem_addAll_id {all l : List κ} {b : κ} : b ∈ addAll id all l ↔ b ∈ all ∨ b ∈ l := by
  induction l generalizing all with
  | nil => simp [addAll]
  | cons a l ih =>
    rw [addAll, List.foldl_cons, ← addAll, ih, mem_add_id, List.mem_cons, or_assoc]

theorem nodup_addAll_id {all l : List κ} (h : all.Nodup) : (addAll id all l).Nodup := by
  have hids : (all.map id).Nodup := by rwa [List.map_id]
  have hnodup := nodup_addAll hids (l := l)
  rwa [List.map_id] at hnodup

end Distinct
