import Mathlib.Data.List.Induction

namespace Words

variable {α : Type} {p : α → Bool}

/-- What stands between the separators of a text, where something does. -/
def words (p : α → Bool) (cs : List α) : List (List α) := (cs.splitOnP p).filter (!·.isEmpty)

@[simp] theorem words_nil : words p [] = [] := by simp [words]

theorem words_cons {c : α} (h : p c = true) (cs : List α) : words p (c :: cs) = words p cs := by
  simp [words, List.splitOnP_cons_eq_if_modifyHead, h]

theorem words_concat {c : α} (h : p c = true) (cs : List α) : words p (cs ++ [c]) = words p cs := by
  simp [words, List.splitOnP_append_cons cs [] h]

theorem words_append_cons {l : List α} (hl : ∀ c ∈ l, p c = false) {sep : α} (hsep : p sep = true)
    (cs : List α) : words p (l ++ sep :: cs) = [l].filter (!·.isEmpty) ++ words p cs := by
  rw [words, List.splitOnP_append_cons_of_forall_mem hl sep hsep, ← List.singleton_append,
    List.filter_append]
  rfl

theorem words_singleton {l : List α} (hl : ∀ c ∈ l, p c = false) :
    words p l = [l].filter (!·.isEmpty) := by
  rw [words, List.splitOnP_eq_singleton hl]

/-- Separators at the start of a text stand between nothing. -/
theorem words_dropWhile (cs : List α) : words p (cs.dropWhile p) = words p cs := by
  induction cs with
  | nil => rfl
  | cons c cs ih =>
    by_cases hc : p c = true
    · rw [List.dropWhile_cons_of_pos hc, ih, words_cons hc]
    · rw [List.dropWhile_cons_of_neg hc]

theorem words_dropWhile_reverse (cs : List α) :
    words p (cs.reverse.dropWhile p).reverse = words p cs := by
  induction cs using List.reverseRecOn with
  | nil => rfl
  | append_singleton cs c ih =>
    rw [List.reverse_append, List.reverse_singleton, List.singleton_append]
    by_cases hc : p c = true
    · rw [List.dropWhile_cons_of_pos hc, ih, words_concat hc]
    · rw [List.dropWhile_cons_of_neg hc, List.reverse_cons, List.reverse_reverse]

/-- Joined words come apart again, but for the empty ones. -/
theorem words_intercalate {sep : α} (hsep : p sep = true) {ls : List (List α)}
    (h : ∀ l ∈ ls, ∀ c ∈ l, p c = false) :
    words p ([sep].intercalate ls) = ls.filter (!·.isEmpty) := by
  induction ls with
  | nil => exact words_nil
  | cons l ls ih =>
    obtain ⟨hl, hls⟩ := List.forall_mem_cons.mp h
    cases ls with
    | nil => rw [List.intercalate_singleton, words_singleton hl]
    | cons l' ls =>
      rw [List.intercalate_cons_cons, List.append_assoc, List.singleton_append,
        words_append_cons hl hsep, ih hls, ← List.filter_append, List.singleton_append]

/-- A part of a text of which nothing stands in the middle is before it or after it. -/
theorem infix_between {part before middle after : List α} (hne : middle ≠ [])
    (hmiddle : ∀ c ∈ middle, c ∉ part) (h : part <:+: before ++ middle ++ after) :
    part <:+: before ∨ part <:+: after := by
  induction middle generalizing before with
  | nil => exact absurd rfl hne
  | cons c middle ih =>
    obtain ⟨hc, hmiddle⟩ := List.forall_mem_cons.mp hmiddle
    have hsplit : part <:+: before ∨ part <:+: middle ++ after := by
      rw [List.append_assoc, List.infix_append_iff] at h
      obtain h | h | ⟨left, right, rfl, hleft, hright⟩ := h
      · exact .inl h
      · rw [List.cons_append, List.infix_cons_iff, List.prefix_cons_iff] at h
        obtain (rfl | ⟨rest, rfl, -⟩) | h := h
        · exact .inl List.nil_infix
        · exact absurd List.mem_cons_self hc
        · exact .inr h
      · rw [List.cons_append, List.prefix_cons_iff] at hright
        obtain rfl | ⟨rest, rfl, -⟩ := hright
        · exact .inl (by simpa using hleft.isInfix)
        · exact absurd (List.mem_append_right _ List.mem_cons_self) hc
    obtain h | h := hsplit
    · exact .inl h
    · by_cases hnil : middle = []
      · exact .inr (by simpa [hnil] using h)
      · have hrest : part <:+: [] ∨ part <:+: after := ih hnil hmiddle h
        refine hrest.imp_left fun h ↦ ?_
        rw [List.infix_nil.mp h]
        exact List.nil_infix

end Words
