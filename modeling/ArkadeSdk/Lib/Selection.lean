import Mathlib.Data.List.Basic

/-! Lists that answer the elements of another list that qualify, one for one and in order. -/

namespace Selection

variable {α β : Type} (P : α → Prop) (R : α → β → Prop)

inductive Selects : List α → List β → Prop
  | nil : Selects [] []
  | keep {a b l out} : P a → R a b → Selects l out → Selects (a :: l) (b :: out)
  | skip {a l out} : ¬P a → Selects l out → Selects (a :: l) out

variable {P R} {f : α → Option β} {l : List α} {out : List β}

/-- A partial answer is no longer, and as long only when it leaves nothing out. -/
theorem Selects.length_filterMap (hf : ∀ a b, f a = some b → P a) (h : Selects P R l out) :
    (l.filterMap f).length ≤ out.length ∧
      ((l.filterMap f).length = out.length → ∀ a ∈ l, P a → (f a).isSome) := by
  induction h with
  | nil => simp
  | @keep a b l out hP hR _ ih =>
    obtain ⟨hle, hall⟩ := ih
    cases ha : f a with
    | none =>
      rw [List.filterMap_cons_none ha, List.length_cons]
      exact ⟨by omega, fun heq ↦ by omega⟩
    | some c =>
      rw [List.filterMap_cons_some ha, List.length_cons, List.length_cons]
      refine ⟨by omega, fun heq ↦ ?_⟩
      rw [List.forall_mem_cons, ha]
      exact ⟨fun _ ↦ rfl, hall (by omega)⟩
  | @skip a l out hP _ ih =>
    have ha : f a = none := by
      cases ha : f a with
      | none => rfl
      | some b => exact absurd (hf a b ha) hP
    rw [List.filterMap_cons_none ha]
    refine ⟨ih.1, fun heq ↦ ?_⟩
    rw [List.forall_mem_cons]
    exact ⟨fun h ↦ absurd h hP, ih.2 heq⟩

/-- A sound partial answer answers exactly what qualifies when it misses nothing that does. -/
theorem selects_filterMap (hf : ∀ a b, f a = some b → P a ∧ R a b) :
    Selects P R l (l.filterMap f) ↔ ∀ a ∈ l, P a → (f a).isSome := by
  constructor
  · intro h
    exact (h.length_filterMap fun a b hab ↦ (hf a b hab).1).2 rfl
  · intro h
    induction l with
    | nil => exact .nil
    | cons a l ih =>
      obtain ⟨ha, hl⟩ := List.forall_mem_cons.mp h
      cases hfa : f a with
      | none =>
        rw [List.filterMap_cons_none hfa]
        refine .skip (fun hP ↦ ?_) (ih hl)
        have hsome := ha hP
        rw [hfa] at hsome
        cases hsome
      | some b =>
        rw [List.filterMap_cons_some hfa]
        exact .keep (hf a b hfa).1 (hf a b hfa).2 (ih hl)

/-- A traversal of optional results succeeds when every one is there. -/
theorem mapM_eq_some {l' : List β} :
    l.mapM f = some l' ↔ (∀ a ∈ l, (f a).isSome) ∧ l' = l.filterMap f := by
  induction l generalizing l' with
  | nil =>
    simp only [List.mapM_nil, Option.pure_def, Option.some.injEq, List.filterMap_nil]
    exact ⟨fun h ↦ ⟨by simp, h.symm⟩, fun h ↦ h.2.symm⟩
  | cons a l ih =>
    rw [List.mapM_cons]
    cases ha : f a with
    | none => simp [ha]
    | some b =>
      rw [List.filterMap_cons_some ha, List.forall_mem_cons, ha]
      simp only [Option.bind_eq_bind, Option.bind_some, Option.bind_eq_some_iff, ih,
        Option.pure_def, Option.some.injEq, Option.isSome_some, true_and]
      constructor
      · rintro ⟨_, ⟨hall, rfl⟩, rfl⟩
        exact ⟨hall, rfl⟩
      · rintro ⟨hall, rfl⟩
        exact ⟨_, ⟨hall, rfl⟩, rfl⟩

end Selection
