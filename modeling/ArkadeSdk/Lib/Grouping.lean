import ArkadeSdk.Lib.JsMap
import Mathlib.Data.List.Perm.Basic

/-! Values put into groups by a key, each group in the order in which its values come up. -/

namespace Grouping

open JsMap

variable {κ α : Type} [DecidableEq κ] (key : α → κ)

/-- `m.set(k, [...(m.get(k) ?? []), ...vs])` -/
def extend (m : Entries κ (List α)) (k : κ) (vs : List α) : Entries κ (List α) :=
  JsMap.set k ((get m k).getD [] ++ vs) m

def group (l : List α) : Entries κ (List α) := l.foldl (fun m v ↦ extend m (key v) [v]) []

def members (m : Entries κ (List α)) : List α := m.flatMap Prod.snd

theorem members_extend (m : Entries κ (List α)) (k : κ) (vs : List α) :
    (members (extend m k vs)).Perm (members m ++ vs) := by
  induction m with
  | nil => simp [members, extend, JsMap.set]
  | cons e m ih =>
    obtain ⟨j, ws⟩ := e
    unfold extend members at ih ⊢
    rw [get_cons, JsMap.set]
    by_cases hj : j = k
    · rw [if_pos hj, if_pos hj, List.flatMap_cons, List.flatMap_cons, Option.getD_some,
        List.append_assoc, List.append_assoc]
      exact List.perm_append_comm.append_left ws
    · rw [if_neg hj, if_neg hj, List.flatMap_cons, List.flatMap_cons, List.append_assoc]
      exact ih.append_left ws

theorem members_foldl (l : List α) (m : Entries κ (List α)) :
    (members (l.foldl (fun m v ↦ extend m (key v) [v]) m)).Perm (members m ++ l) := by
  induction l generalizing m with
  | nil => simp
  | cons v l ih =>
    rw [List.foldl_cons]
    refine (ih _).trans ?_
    rw [List.append_cons]
    exact (members_extend m (key v) [v]).append_right l

theorem members_group (l : List α) : (members (group key l)).Perm l := members_foldl key l []

end Grouping
