import Mathlib.Data.List.Basic
import Mathlib.Order.Basic

/-! Runs of a system that answers inputs one at a time, under a condition on each step, and
chronicles of what they did. -/

namespace LabelledRun

variable {σ ι ε : Type}

/-- The states that inputs lead to when every step meets the condition. -/
inductive Run (step : σ → ι → Option σ) (ok : σ → ι → Prop) : σ → σ → Prop
  | refl (s : σ) : Run step ok s s
  | tail {s t u : σ} {i : ι} : Run step ok s t → ok t i → step t i = some u → Run step ok s u

namespace Run

variable {step : σ → ι → Option σ} {ok ok' : σ → ι → Prop} {s t u : σ}

theorem trans (h : Run step ok s t) (h' : Run step ok t u) : Run step ok s u := by
  induction h' with
  | refl => exact h
  | tail _ hok hstep ih => exact ih.tail hok hstep

/-- What every step preserves holds at the end of a run. -/
theorem invariant {P : σ → Prop} (hstep : ∀ s i t, P s → ok s i → step s i = some t → P t)
    (h : Run step ok s t) (hs : P s) : P t := by
  induction h with
  | refl => exact hs
  | tail _ hok ht ih => exact hstep _ _ _ ih hok ht

theorem mono (hok : ∀ s i, ok s i → ok' s i) (h : Run step ok s t) : Run step ok' s t := by
  induction h with
  | refl => exact .refl _
  | tail _ h ht ih => exact ih.tail (hok _ _ h) ht

/-- The condition of a run, with what an invariant adds to it. -/
theorem strengthen {P : σ → Prop} (hinv : ∀ s i t, P s → ok s i → step s i = some t → P t)
    (hok : ∀ s i t, P s → ok s i → step s i = some t → ok' s i) (h : Run step ok s t)
    (hs : P s) : Run step ok' s t := by
  induction h with
  | refl => exact .refl _
  | tail h hi ht ih => exact ih.tail (hok _ _ _ (invariant hinv h hs) hi ht) ht

/-- What holds between the two ends of every step from a state with the invariant holds between
the two ends of a run. -/
theorem relation {P : σ → Prop} {R : σ → σ → Prop} (hrefl : ∀ s, R s s)
    (htrans : ∀ s t u, R s t → R t u → R s u)
    (hinv : ∀ s i t, P s → ok s i → step s i = some t → P t)
    (hR : ∀ s i t, P s → ok s i → step s i = some t → R s t)
    (h : Run step ok s t) (hs : P s) : R s t := by
  induction h with
  | refl => exact hrefl _
  | tail h hok ht ih => exact htrans _ _ _ ih (hR _ _ _ (invariant hinv h hs) hok ht)

end Run

/-- The inputs one after the other, as long as each is answered. -/
def exec (step : σ → ι → Option σ) : σ → List ι → Option σ
  | s, [] => some s
  | s, i :: is => (step s i).bind fun t ↦ exec step t is

def Along (step : σ → ι → Option σ) (ok : σ → ι → Prop) : σ → List ι → Prop
  | _, [] => True
  | s, i :: is => ok s i ∧ ∀ t, step s i = some t → Along step ok t is

theorem run_of_exec {step : σ → ι → Option σ} {ok : σ → ι → Prop} {s t : σ} {is : List ι}
    (h : exec step s is = some t) (hok : Along step ok s is) : Run step ok s t := by
  induction is generalizing s with
  | nil =>
    obtain rfl := Option.some.inj h
    exact .refl s
  | cons i is ih =>
    obtain ⟨u, hu, h⟩ := Option.bind_eq_some_iff.mp h
    exact (Run.tail (.refl s) hok.1 hu).trans (ih h (hok.2 u hu))

def checkAlong (step : σ → ι → Option σ) (p : σ → ι → Bool) : σ → List ι → Bool
  | _, [] => true
  | s, i :: is => p s i && (step s i).all fun t ↦ checkAlong step p t is

theorem along_of_check {step : σ → ι → Option σ} {ok : σ → ι → Prop} {p : σ → ι → Bool} {s : σ}
    {is : List ι} (hp : ∀ s i, p s i = true → ok s i) (h : checkAlong step p s is = true) :
    Along step ok s is := by
  induction is generalizing s with
  | nil => trivial
  | cons i is ih =>
    obtain ⟨hi, hrest⟩ := (Bool.and_eq_true _ _).mp h
    refine ⟨hp s i hi, fun t ht ↦ ih ?_⟩
    rw [ht] at hrest
    exact hrest

/-- Every entry stands in its relation to the entries before it. The newest entry is the head. -/
def Chronicle (P : ε → List ε → Prop) : List ε → Prop
  | [] => True
  | e :: l => P e l ∧ Chronicle P l

namespace Chronicle

variable {P Q : ε → List ε → Prop} {e : ε} {l l' : List ε}

theorem of_append (h : Chronicle P (l ++ l')) : Chronicle P l' := by
  induction l with
  | nil => exact h
  | cons e l ih => exact ih h.2

theorem entry (h : Chronicle P (l ++ e :: l')) : P e l' := h.of_append.1

theorem append (hl : ∀ e ∈ l, ∀ l', P e l') (h : Chronicle P l') : Chronicle P (l ++ l') := by
  induction l with
  | nil => exact h
  | cons e l ih =>
    obtain ⟨he, hl⟩ := List.forall_mem_cons.mp hl
    exact ⟨he _, ih hl⟩

end Chronicle

end LabelledRun
