import ArkadeSdk.Lib.WireFormat
import Mathlib.Data.List.ReduceOption

/-! A loop that keeps what it finds for some of the elements, and stops at an error. -/

namespace Sieve

open WireFormat

variable {ε α β : Type} {f g : α → Except ε (Option β)} {l : List α} {bs cs : List β}

def sieve (f : α → Except ε (Option β)) (l : List α) : Except ε (List β) :=
  List.reduceOption <$> l.mapM f

theorem sieve_cons_ok {a : α} : sieve f (a :: l) = .ok bs ↔
    ∃ o, f a = .ok o ∧ ∃ cs, sieve f l = .ok cs ∧ o.toList ++ cs = bs := by
  constructor
  · intro h
    obtain ⟨all, hall, rfl⟩ := map_ok.mp h
    obtain ⟨o, ho, os, hos, rfl⟩ := mapM_cons_ok.mp hall
    refine ⟨o, ho, os.reduceOption, map_ok.mpr ⟨os, hos, rfl⟩, ?_⟩
    cases o <;> rfl
  · rintro ⟨o, ho, cs, hcs, rfl⟩
    obtain ⟨os, hos, rfl⟩ := map_ok.mp hcs
    refine map_ok.mpr ⟨o :: os, mapM_cons_ok.mpr ⟨o, ho, os, hos, rfl⟩, ?_⟩
    cases o <;> rfl

/-- It fails on no list when it fails on no element. -/
theorem exists_sieve_ok (h : ∀ a ∈ l, ∃ o, f a = .ok o) : ∃ bs, sieve f l = .ok bs := by
  obtain ⟨os, hos⟩ := exists_mapM_ok h
  exact ⟨os.reduceOption, map_ok.mpr ⟨os, hos, rfl⟩⟩

theorem mem_sieve {b : β} (h : sieve f l = .ok bs) :
    b ∈ bs ↔ ∃ a ∈ l, f a = .ok (some b) := by
  induction l generalizing bs with
  | nil =>
    obtain rfl := Except.ok.inj h
    simp [List.reduceOption]
  | cons a l ih =>
    obtain ⟨o, ho, cs, hcs, rfl⟩ := sieve_cons_ok.mp h
    rw [List.mem_append, ih hcs, List.exists_mem_cons_iff, ho, Except.ok.injEq, Option.mem_toList]

/-- A loop that keeps less keeps it in the same order. -/
theorem sieve_sublist (h : ∀ a ∈ l, ∀ b, f a = .ok (some b) → g a = .ok (some b))
    (hf : sieve f l = .ok bs) (hg : sieve g l = .ok cs) : bs.Sublist cs := by
  induction l generalizing bs cs with
  | nil =>
    obtain rfl := Except.ok.inj (hf.symm.trans hg)
    exact List.Sublist.refl _
  | cons a l ih =>
    obtain ⟨hhead, hrest⟩ := List.forall_mem_cons.mp h
    obtain ⟨o, ho, bs, hbs, rfl⟩ := sieve_cons_ok.mp hf
    obtain ⟨o', ho', cs, hcs, rfl⟩ := sieve_cons_ok.mp hg
    apply List.Sublist.append _ (ih hrest hbs hcs)
    cases o with
    | none => exact List.nil_sublist _
    | some b =>
      obtain rfl := Except.ok.inj (ho'.symm.trans (hhead b ho))
      exact List.Sublist.refl _

end Sieve
