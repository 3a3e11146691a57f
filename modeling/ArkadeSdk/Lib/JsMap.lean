import Mathlib.Data.List.Nodup
import Mathlib.Data.List.Basic

/-! The language's `Map`: entries in the order in which their keys were first set. -/

namespace JsMap

variable {κ ν : Type} [DecidableEq κ]

abbrev Entries (κ ν : Type) := List (κ × ν)

/-- A key that is there already keeps its place. -/
def set (k : κ) (v : ν) : Entries κ ν → Entries κ ν
  | [] => [(k, v)]
  | (k', v') :: m => if k' = k then (k, v) :: m else (k', v') :: set k v m

def get (m : Entries κ ν) (k : κ) : Option ν := (m.find? (·.1 = k)).map (·.2)

def erase (k : κ) (m : Entries κ ν) : Entries κ ν := m.filter (·.1 ≠ k)

@[simp] theorem get_nil (k : κ) : get ([] : Entries κ ν) k = none := rfl

theorem get_cons (k k' : κ) (v : ν) (m : Entries κ ν) :
    get ((k', v) :: m) k = if k' = k then some v else get m k := by
  unfold get
  rw [List.find?_cons]
  by_cases h : k' = k <;> simp [h]

theorem get_set (m : Entries κ ν) (k k' : κ) (v : ν) :
    get (set k v m) k' = if k = k' then some v else get m k' := by
  induction m with
  | nil => simp [set, get_cons]
  | cons e m ih =>
    obtain ⟨j, w⟩ := e
    unfold set
    by_cases hj : j = k
    · rw [if_pos hj, get_cons, get_cons, hj]
      by_cases hk : k = k' <;> simp [hk]
    · rw [if_neg hj, get_cons, get_cons, ih]
      by_cases hk : j = k'
      · have hne : ¬k = k' := fun h ↦ hj (hk.trans h.symm)
        simp [hk, hne]
      · simp [hk]

theorem get_erase (m : Entries κ ν) (k k' : κ) :
    get (erase k m) k' = if k = k' then none else get m k' := by
  induction m with
  | nil => simp [erase]
  | cons e m ih =>
    obtain ⟨j, w⟩ := e
    unfold erase at ih ⊢
    by_cases hj : j = k
    · rw [List.filter_cons_of_neg (by simpa using hj), ih, get_cons, hj]
      by_cases hk : k = k' <;> simp [hk]
    · rw [List.filter_cons_of_pos (by simpa using hj), get_cons, ih, get_cons]
      by_cases hk : j = k'
      · have hne : ¬k = k' := fun h ↦ hj (hk.trans h.symm)
        simp [hk, hne]
      · simp [hk]

theorem mem_of_get {m : Entries κ ν} {k : κ} {v : ν} (h : get m k = some v) : (k, v) ∈ m := by
  obtain ⟨⟨j, w⟩, hfind, rfl⟩ := Option.map_eq_some_iff.mp h
  have hkey : j = k := by simpa using List.find?_some hfind
  rw [← hkey]
  exact List.mem_of_find?_eq_some hfind

theorem mem_set {m : Entries κ ν} {k : κ} {v : ν} {e : κ × ν} (h : e ∈ set k v m) :
    e ∈ m ∨ e = (k, v) := by
  induction m with
  | nil => exact .inr (List.mem_singleton.mp h)
  | cons e' m ih =>
    obtain ⟨j, w⟩ := e'
    unfold set at h
    split at h
    · rcases List.mem_cons.mp h with rfl | h
      · exact .inr rfl
      · exact .inl (List.mem_cons_of_mem _ h)
    · rcases List.mem_cons.mp h with rfl | h
      · exact .inl List.mem_cons_self
      · rcases ih h with h | h
        · exact .inl (List.mem_cons_of_mem _ h)
        · exact .inr h

theorem keys_set (m : Entries κ ν) (k : κ) (v : ν) : (set k v m).map Prod.fst =
    if k ∈ m.map Prod.fst then m.map Prod.fst else m.map Prod.fst ++ [k] := by
  induction m with
  | nil => rfl
  | cons e m ih =>
    obtain ⟨j, w⟩ := e
    unfold set
    by_cases hj : j = k
    · simp [hj]
    · have hne : ¬k = j := fun h ↦ hj h.symm
      rw [if_neg hj, List.map_cons, ih, List.map_cons]
      by_cases hk : k ∈ m.map Prod.fst <;> simp [hk, hne]

theorem set_new {m : Entries κ ν} {k : κ} (v : ν) (h : k ∉ m.map Prod.fst) :
    set k v m = m ++ [(k, v)] := by
  induction m with
  | nil => rfl
  | cons e m ih =>
    obtain ⟨j, w⟩ := e
    obtain ⟨hne, hm⟩ : ¬k = j ∧ k ∉ m.map Prod.fst := not_or.mp fun hor ↦ h (List.mem_cons.mpr hor)
    rw [set, if_neg fun heq ↦ hne heq.symm, ih hm]
    rfl

theorem length_set_le (k : κ) (v : ν) (m : Entries κ ν) : (set k v m).length ≤ m.length + 1 := by
  have hkeys := congrArg List.length (keys_set m k v)
  rw [List.length_map] at hkeys
  rw [hkeys]
  split
  · simp
  · simp

theorem nodup_set {m : Entries κ ν} (h : (m.map Prod.fst).Nodup) (k : κ) (v : ν) :
    ((set k v m).map Prod.fst).Nodup := by
  rw [keys_set]
  split
  · exact h
  · rename_i hk
    exact List.nodup_append.mpr ⟨h, List.nodup_singleton k, by
      rintro a ha b hb rfl
      exact hk ((List.mem_singleton.mp hb) ▸ ha)⟩

theorem nodup_erase {m : Entries κ ν} (h : (m.map Prod.fst).Nodup) (k : κ) :
    ((erase k m).map Prod.fst).Nodup :=
  (List.filter_sublist.map _).nodup h

/-- A map is the entry of a key and what is left without it. -/
theorem perm_erase {m : Entries κ ν} (h : (m.map Prod.fst).Nodup) {k : κ} {v : ν}
    (hmem : (k, v) ∈ m) : m.Perm ((k, v) :: erase k m) := by
  induction m with
  | nil => cases hmem
  | cons e m ih =>
    obtain ⟨hnew, hm⟩ := List.nodup_cons.mp h
    rcases List.mem_cons.mp hmem with rfl | hmem
    · have hrest : erase k ((k, v) :: m) = m := by
        rw [erase, List.filter_cons_of_neg (by simp), List.filter_eq_self.mpr]
        intro e he
        have hne : e.1 ≠ k := fun heq ↦ hnew (List.mem_map.mpr ⟨e, he, heq⟩)
        simpa using hne
      rw [hrest]
    · have hne : e.1 ≠ k := fun heq ↦ hnew (List.mem_map.mpr ⟨(k, v), hmem, heq.symm⟩)
      have hkeep : erase k (e :: m) = e :: erase k m :=
        List.filter_cons_of_pos (by simpa using hne)
      rw [hkeep]
      exact ((ih hm hmem).cons e).trans (.swap _ _ _)

theorem get_of_mem {m : Entries κ ν} (h : (m.map Prod.fst).Nodup) {k : κ} {v : ν}
    (hmem : (k, v) ∈ m) : get m k = some v := by
  induction m with
  | nil => cases hmem
  | cons e m ih =>
    obtain ⟨j, w⟩ := e
    obtain ⟨hj, hm⟩ := List.nodup_cons.mp h
    rw [get_cons]
    rcases List.mem_cons.mp hmem with heq | hmem
    · obtain ⟨rfl, rfl⟩ := Prod.mk.inj heq
      exact if_pos rfl
    · have hkey : k ∈ m.map Prod.fst := List.mem_map.mpr ⟨(k, v), hmem, rfl⟩
      rw [if_neg (fun heq : j = k ↦ hj (heq ▸ hkey))]
      exact ih hm hmem

end JsMap
