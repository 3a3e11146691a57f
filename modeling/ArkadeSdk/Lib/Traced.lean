import Mathlib.Data.List.Basic

/-! Computations that question an environment whose answers may depend on everything asked so far.
A computation is given the history and returns, with its result, the events that it adds. -/

def Traced (E α : Type) : Type := List E → α × List E

namespace Traced

variable {E α β : Type}

def ask (answer : List E → α) (event : α → E) : Traced E α := fun history ↦
  (answer history, [event (answer history)])

instance : Monad (Traced E) where
  pure a := fun _ ↦ (a, [])
  bind x f := fun history ↦
    let (a, events) := x history
    let (b, later) := f a (history ++ events)
    (b, events ++ later)

/-- From this history the computation returns `a` and adds these events. -/
def Yields (x : Traced E α) (history : List E) (a : α) (events : List E) : Prop :=
  x history = (a, events)

variable {history events : List E} {a : α} {b : β}

theorem yields_result (x : Traced E α) (history : List E) :
    x.Yields history (x history).1 (x history).2 := rfl

@[simp] theorem yields_pure {c : α} :
    (pure c : Traced E α).Yields history a events ↔ a = c ∧ events = [] := by
  constructor
  · intro h
    cases h
    exact ⟨rfl, rfl⟩
  · rintro ⟨rfl, rfl⟩
    rfl

theorem yields_bind {x : Traced E α} {f : α → Traced E β} :
    (x >>= f).Yields history b events ↔ ∃ a asked later, x.Yields history a asked ∧
      (f a).Yields (history ++ asked) b later ∧ events = asked ++ later := by
  constructor
  · intro h
    cases h
    exact ⟨_, _, _, rfl, rfl, rfl⟩
  · rintro ⟨a, asked, later, hx, hf, rfl⟩
    unfold Yields at hx hf ⊢
    simp only [bind, hx, hf]

theorem yields_ask {answer : List E → α} {event : α → E} :
    (ask answer event).Yields history a events ↔ a = answer history ∧ events = [event a] := by
  constructor
  · intro h
    cases h
    exact ⟨rfl, rfl⟩
  · rintro ⟨rfl, rfl⟩
    rfl

end Traced
