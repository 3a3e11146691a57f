import Mathlib.Data.List.Nodup
import Mathlib.Tactic.Linarith

/-! Lists that are read in pages: the page at an index, a list cut into slices, and the loop that
asks for one page after another until it has seen enough or a page comes short. -/

namespace Paging

variable {α β σ ε : Type}

def pageAt (size : ℕ) (l : List α) (index : ℕ) : List α := (l.drop (index * size)).take size

/-- `for (let i = 0; i < l.length; i += size) l.slice(i, i + size)` -/
def slices (size : ℕ) (l : List α) : List (List α) :=
  (List.range ((l.length + size - 1) / size)).map (pageAt size l)

/-- An answer; one that is not paged is all there is. -/
structure Page (α : Type) where
  items : List α
  paged : Bool

inductive Stop (ε : Type)
  | failed (error : ε)
  | outOfFuel

/-- Reads on while the state asks for more and the last page was full. -/
def readWhile (fetch : ℕ → Except ε (Page α)) (wanted : σ → Bool) (visit : σ → α → σ)
    (size : ℕ) : ℕ → ℕ → σ → Except (Stop ε) σ
  | 0, _, _ => .error .outOfFuel
  | fuel + 1, index, s =>
    if wanted s then
      match fetch index with
      | .error error => .error (.failed error)
      | .ok page =>
        let s := page.items.foldl visit s
        if page.paged ∧ page.items.length = size then
          readWhile fetch wanted visit size fuel (index + 1) s
        else .ok s
    else .ok s

theorem map_pageAt (f : α → β) (size : ℕ) (l : List α) (index : ℕ) :
    (pageAt size l index).map f = pageAt size (l.map f) index := by
  rw [pageAt, pageAt, List.map_take, List.map_drop]

theorem flatten_pages (size : ℕ) (l : List α) (n : ℕ) :
    ((List.range n).map (pageAt size l)).flatten = l.take (n * size) := by
  induction n with
  | zero => simp
  | succ n ih =>
    rw [List.range_succ, List.map_append, List.flatten_append, ih, Nat.succ_mul, List.take_add]
    simp [pageAt]

theorem flatten_slices {size : ℕ} (hsize : 0 < size) (l : List α) :
    (slices size l).flatten = l := by
  rw [slices, flatten_pages]
  refine List.take_of_length_le ?_
  have hdiv := Nat.div_add_mod (l.length + size - 1) size
  have hmod := Nat.mod_lt (l.length + size - 1) hsize
  rw [Nat.mul_comm] at hdiv
  omega

theorem ne_nil_of_mem_slices {size : ℕ} {l slice : List α} (hsize : 0 < size)
    (h : slice ∈ slices size l) : slice ≠ [] := by
  obtain ⟨index, hindex, rfl⟩ := List.mem_map.mp h
  have hlt := List.mem_range.mp hindex
  have hle : (index + 1) * size ≤ l.length + size - 1 :=
    (Nat.le_div_iff_mul_le hsize).mp hlt
  rw [Nat.succ_mul] at hle
  refine List.ne_nil_of_length_pos ?_
  rw [pageAt, List.length_take, List.length_drop]
  omega

/-- The source answers with stable pages of the list, or with all of it at once. -/
def Serves (fetch : ℕ → Except ε (Page α)) (size : ℕ) (l : List α) : Prop :=
  (∀ index, fetch index = .ok ⟨pageAt size l index, true⟩) ∨ ∀ index, fetch index = .ok ⟨l, false⟩

section Reading

variable {fetch : ℕ → Except ε (Page α)} {size : ℕ} {l : List α} (wanted : σ → Bool)
  (visit : σ → α → σ)

/-- From any page on, a loop over pages sees the rest, or enough of it. -/
theorem readWhile_paged (hpaged : ∀ index, fetch index = .ok ⟨pageAt size l index, true⟩)
    (hsize : 0 < size) {fuel : ℕ} :
    ∀ (index : ℕ) (s : σ), (l.drop (index * size)).length < fuel →
      ∃ seen rest, l.drop (index * size) = seen ++ rest ∧
        (rest = [] ∨ wanted (seen.foldl visit s) = false) ∧
        readWhile fetch wanted visit size fuel index s = .ok (seen.foldl visit s) := by
  induction fuel with
  | zero => exact fun _ _ hfuel ↦ absurd hfuel (Nat.not_lt_zero _)
  | succ fuel ih =>
    intro index s hfuel
    rw [readWhile, hpaged index]
    split
    · next hwanted =>
      dsimp only
      split
      · next hfull =>
        -- a full page: what is left is shorter
        have hdrop : (l.drop (index * size)).drop size = l.drop ((index + 1) * size) := by
          rw [List.drop_drop, Nat.succ_mul]
        have hlength := congrArg List.length hdrop
        rw [pageAt, List.length_take] at hfull
        rw [List.length_drop] at hlength
        obtain ⟨seen, rest, hsplit, hstop, hread⟩ := ih (index + 1)
          ((pageAt size l index).foldl visit s) (by omega)
        refine ⟨pageAt size l index ++ seen, rest, ?_, ?_, ?_⟩
        · rw [List.append_assoc, ← hsplit, ← hdrop, pageAt, List.take_append_drop]
        · rwa [List.foldl_append]
        · rwa [List.foldl_append]
      · next hshort =>
        have hall : pageAt size l index = l.drop (index * size) := by
          refine List.take_of_length_le ?_
          rw [pageAt, List.length_take] at hshort
          simp only [true_and] at hshort
          omega
        exact ⟨pageAt size l index, [], by rw [List.append_nil, hall], .inl rfl, rfl⟩
    · next hwanted =>
      exact ⟨[], l.drop (index * size), rfl, .inr (by simpa using hwanted), rfl⟩

/-- A loop over a served list ends, and has seen all of the list or as much as it wanted. -/
theorem Serves.readWhile (h : Serves fetch size l) (hsize : 0 < size) {fuel : ℕ}
    (hfuel : l.length < fuel) (s : σ) :
    ∃ seen rest, l = seen ++ rest ∧ (rest = [] ∨ wanted (seen.foldl visit s) = false) ∧
      Paging.readWhile fetch wanted visit size fuel 0 s = .ok (seen.foldl visit s) := by
  rcases h with hpaged | hwhole
  · simpa using readWhile_paged wanted visit hpaged hsize 0 s (by simpa using hfuel)
  · obtain ⟨fuel, rfl⟩ := Nat.exists_eq_succ_of_ne_zero (Nat.ne_of_gt (Nat.zero_lt_of_lt hfuel))
    rw [Paging.readWhile, hwhole 0]
    split
    · exact ⟨l, [], by simp, .inl rfl, by simp⟩
    · next hwanted => exact ⟨[], l, rfl, .inr (by simpa using hwanted), rfl⟩

end Reading

end Paging
