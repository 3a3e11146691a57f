import Mathlib.Data.List.Basic
import Mathlib.Data.List.TakeDrop

/-! Going through a list and taking what may still be added to what was taken before. -/

namespace Admission

variable {α : Type} (admits : List α → α → Bool)

def fill (taken : List α) : List α → List α
  | [] => taken
  | a :: rest => if admits taken a then fill (taken ++ [a]) rest else fill taken rest

variable {admits} in
theorem fill_keeps {P : List α → Prop} {taken : List α} (l : List α) (h : P taken)
    (hstep : ∀ taken a, P taken → admits taken a → P (taken ++ [a])) :
    P (fill admits taken l) := by
  induction l generalizing taken with
  | nil => exact h
  | cons a rest ih =>
    rw [fill]
    split
    · next hadmits => exact ih (hstep taken a h hadmits)
    · exact ih h

theorem exists_fill_eq (taken l : List α) :
    ∃ added, fill admits taken l = taken ++ added ∧ added.Sublist l := by
  induction l generalizing taken with
  | nil => exact ⟨[], (List.append_nil taken).symm, .slnil⟩
  | cons a rest ih =>
    rw [fill]
    split
    · obtain ⟨added, hadded, hsub⟩ := ih (taken ++ [a])
      exact ⟨a :: added, by rw [hadded, List.append_assoc]; rfl, hsub.cons_cons a⟩
    · obtain ⟨added, hadded, hsub⟩ := ih taken
      exact ⟨added, hadded, hsub.cons a⟩

variable {admits} in
theorem fill_sublist (l : List α) : (fill admits [] l).Sublist l := by
  obtain ⟨added, hadded, hsub⟩ := exists_fill_eq admits [] l
  rw [hadded, List.nil_append]
  exact hsub

/-- The last one that was taken was admitted after all the others. -/
theorem fill_last (l : List α) :
    fill admits [] l = [] ∨ ∃ taken a, fill admits [] l = taken ++ [a] ∧ admits taken a :=
  fill_keeps (P := fun t ↦ t = [] ∨ ∃ taken a, t = taken ++ [a] ∧ admits taken a) l (.inl rfl)
    fun taken a _ hadmits ↦ .inr ⟨taken, a, rfl, hadmits⟩

variable {admits} in
/-- Where each one is admitted on its turn, all are taken. -/
theorem fill_all {taken l : List α}
    (h : ∀ k a, l[k]? = some a → admits (taken ++ l.take k) a) :
    fill admits taken l = taken ++ l := by
  induction l generalizing taken with
  | nil => exact (List.append_nil taken).symm
  | cons a rest ih =>
    have ha := h 0 a rfl
    rw [List.take_zero, List.append_nil] at ha
    rw [fill, if_pos ha, ih fun k b hb ↦ ?_, List.append_assoc]
    · rfl
    · have hb := h (k + 1) b hb
      rwa [List.take_succ_cons, List.append_cons] at hb

end Admission
