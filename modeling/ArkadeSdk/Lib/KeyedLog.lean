import Mathlib.Algebra.BigOperators.Group.Finset.Piecewise
import Mathlib.Algebra.Order.Ring.Int

/-! A log that takes at most one entry for each key, and what its amounts come to. -/

namespace KeyedLog

variable {α κ ε : Type}

section

variable (about : ε → κ → Bool)

/-- An entry is made only where none is about the key. -/
def post (k : κ) (entry : Option ε) (log : List ε) : List ε :=
  if log.any fun e ↦ about e k then log else log ++ entry.toList

def postAll (log : List ε) (postings : List (κ × Option ε)) : List ε :=
  postings.foldl (fun log p ↦ post about p.1 p.2 log) log

end

variable {about : ε → κ → Bool} {amount : ε → ℤ} {net : κ → ℤ}

@[simp] theorem postAll_nil (log : List ε) : postAll about log [] = log := rfl

@[simp] theorem postAll_cons (log : List ε) (p : κ × Option ε) (ps : List (κ × Option ε)) :
    postAll about log (p :: ps) = postAll about (post about p.1 p.2 log) ps := rfl

theorem postAll_append (log : List ε) (ps qs : List (κ × Option ε)) :
    postAll about log (ps ++ qs) = postAll about (postAll about log ps) qs :=
  List.foldl_append

theorem mem_postAll {log : List ε} {ps : List (κ × Option ε)} {e : ε}
    (h : e ∈ postAll about log ps) : e ∈ log ∨ ∃ p ∈ ps, p.2 = some e := by
  induction ps generalizing log with
  | nil => exact .inl h
  | cons p ps ih =>
    rw [postAll_cons] at h
    rcases ih h with he | ⟨q, hq, he⟩
    · unfold post at he
      split at he
      · exact .inl he
      · rcases List.mem_append.mp he with he | he
        · exact .inl he
        · exact .inr ⟨p, List.mem_cons_self, Option.mem_toList.mp he⟩
    · exact .inr ⟨q, List.mem_cons_of_mem p hq, he⟩

variable (about amount net) in
/-- An entry about one key, with the amount which that key comes to. -/
structure Books (k : κ) (e : ε) : Prop where
  about_iff : ∀ k', about e k' = true ↔ k' = k
  amount_eq : amount e = net k

variable (about amount net) in
/-- A key without an entry comes to nothing. -/
structure Faithful (p : κ × Option ε) : Prop where
  books : ∀ e, p.2 = some e → Books about amount net p.1 e
  silent : p.2 = none → net p.1 = 0

variable (about amount net) in
structure Settles (keys : Finset κ) (log : List ε) : Prop where
  known : ∀ e ∈ log, ∃ k ∈ keys, Books about amount net k e
  covered : ∀ k ∈ keys, net k = 0 ∨ ∃ e ∈ log, Books about amount net k e
  apart : log.Pairwise fun e e' ↦ ∀ k, about e k = true → ¬about e' k = true
  total : (log.map amount).sum = ∑ k ∈ keys, net k

theorem settles_nil : Settles about amount net ∅ [] where
  known e he := absurd he List.not_mem_nil
  covered k hk := absurd hk (Finset.notMem_empty k)
  apart := .nil
  total := by simp

variable [DecidableEq κ]

theorem Settles.post {keys : Finset κ} {log : List ε} {k : κ} {entry : Option ε}
    (h : Settles about amount net keys log) (hp : Faithful about amount net (k, entry)) :
    Settles about amount net (insert k keys) (post about k entry log) := by
  unfold KeyedLog.post
  by_cases hany : log.any (fun e ↦ about e k) = true
  · obtain ⟨e, he, habout⟩ := List.any_eq_true.mp hany
    obtain ⟨k', hk', hbooks⟩ := h.known e he
    have heq : k = k' := (hbooks.about_iff k).mp habout
    rw [if_pos hany, Finset.insert_eq_self.mpr (heq ▸ hk')]
    exact h
  · have hnone : ∀ e ∈ log, ¬about e k = true := fun e he habout ↦
      hany (List.any_eq_true.mpr ⟨e, he, habout⟩)
    have hzero : k ∈ keys → net k = 0 := by
      intro hk
      rcases h.covered k hk with hzero | ⟨e, he, hbooks⟩
      · exact hzero
      · exact absurd ((hbooks.about_iff k).mpr rfl) (hnone e he)
    rw [if_neg hany]
    cases entry with
    | none =>
      have hnet : net k = 0 := hp.silent rfl
      rw [Option.toList_none, List.append_nil]
      refine ⟨fun e he ↦ ?_, fun k' hk' ↦ ?_, h.apart, ?_⟩
      · obtain ⟨k', hk', hbooks⟩ := h.known e he
        exact ⟨k', Finset.mem_insert_of_mem hk', hbooks⟩
      · rcases Finset.mem_insert.mp hk' with rfl | hk'
        · exact .inl hnet
        · exact h.covered k' hk'
      · rw [h.total, Finset.sum_insert_of_eq_zero_if_notMem fun _ ↦ hnet]
    | some e =>
      have hbooks := hp.books e rfl
      rw [Option.toList_some]
      refine ⟨fun e' he' ↦ ?_, fun k' hk' ↦ ?_, ?_, ?_⟩
      · rcases List.mem_append.mp he' with he' | he'
        · obtain ⟨k', hk', hbooks'⟩ := h.known e' he'
          exact ⟨k', Finset.mem_insert_of_mem hk', hbooks'⟩
        · obtain rfl := List.mem_singleton.mp he'
          exact ⟨k, Finset.mem_insert_self k keys, hbooks⟩
      · rcases Finset.mem_insert.mp hk' with rfl | hk'
        · exact .inr ⟨e, by simp, hbooks⟩
        · rcases h.covered k' hk' with hz | ⟨e', he', hbooks'⟩
          · exact .inl hz
          · exact .inr ⟨e', List.mem_append_left _ he', hbooks'⟩
      · refine List.pairwise_append.mpr ⟨h.apart, List.pairwise_singleton _ _, ?_⟩
        intro e₁ he₁ e₂ he₂ k' h₁ h₂
        obtain rfl := List.mem_singleton.mp he₂
        obtain rfl := (hbooks.about_iff k').mp h₂
        exact hnone e₁ he₁ h₁
      · rw [List.map_append, List.sum_append, h.total, List.map_singleton, List.sum_singleton,
          hbooks.amount_eq]
        by_cases hk : k ∈ keys
        · rw [Finset.insert_eq_self.mpr hk, hzero hk, add_zero]
        · rw [Finset.sum_insert hk, add_comm]

theorem Settles.postAll {postings : List (κ × Option ε)} {keys : Finset κ} {log : List ε}
    (h : Settles about amount net keys log)
    (hps : ∀ p ∈ postings, Faithful about amount net p) :
    Settles about amount net (keys ∪ (postings.map Prod.fst).toFinset)
      (postAll about log postings) := by
  induction postings generalizing keys log with
  | nil => simpa using h
  | cons p ps ih =>
    obtain ⟨hp, hps⟩ := List.forall_mem_cons.mp hps
    have hrest := ih (h.post hp) hps
    have hkeys : keys ∪ ((p :: ps).map Prod.fst).toFinset =
        insert p.1 keys ∪ (ps.map Prod.fst).toFinset := by
      ext k
      simp only [List.map_cons, List.toFinset_cons, Finset.mem_union, Finset.mem_insert]
      tauto
    rw [hkeys]
    exact hrest

omit [DecidableEq κ] in
theorem Settles.length_filter_le {keys : Finset κ} {log : List ε}
    (h : Settles about amount net keys log) (k : κ) :
    (log.filter fun e ↦ about e k).length ≤ 1 := by
  have hapart : (log.filter fun e ↦ about e k).Pairwise fun e e' ↦
      about e k = true → ¬about e' k = true :=
    (h.apart.sublist List.filter_sublist).imp fun hall ↦ hall k
  have hall : ∀ e ∈ log.filter fun e ↦ about e k, about e k = true := fun e he ↦
    (List.mem_filter.mp he).2
  match hlog : log.filter fun e ↦ about e k with
  | [] => simp
  | [_] => simp
  | e :: e' :: rest =>
    rw [hlog] at hapart hall
    have hne := (List.pairwise_cons.mp hapart).1 e' (by simp)
    exact absurd (hall e' (by simp)) (hne (hall e (by simp)))

/-- What those that qualify come to. -/
def sumOf (p : α → Prop) [DecidablePred p] (w : α → ℤ) (l : List α) : ℤ :=
  ((l.filter fun a ↦ p a).map w).sum

section

variable {p q : α → Prop} [DecidablePred p] [DecidablePred q] {w : α → ℤ} {l : List α}

@[simp] theorem sumOf_nil : sumOf p w [] = 0 := rfl

theorem sumOf_cons (a : α) (l : List α) :
    sumOf p w (a :: l) = (if p a then w a else 0) + sumOf p w l := by
  by_cases h : p a <;> simp [sumOf, h]

theorem sumOf_congr (h : ∀ a ∈ l, (p a ↔ q a)) : sumOf p w l = sumOf q w l := by
  have hfilter : l.filter (fun a ↦ p a) = l.filter fun a ↦ q a :=
    List.filter_congr fun a ha ↦ by simp [h a ha]
  rw [sumOf, sumOf, hfilter]

theorem sumOf_add_not : sumOf p w l + sumOf (fun a ↦ ¬p a) w l = (l.map w).sum := by
  induction l with
  | nil => rfl
  | cons a l ih =>
    rw [sumOf_cons, sumOf_cons, List.map_cons, List.sum_cons, ← ih]
    by_cases h : p a
    · rw [if_pos h, if_neg (not_not_intro h)]
      omega
    · rw [if_neg h, if_pos h]
      omega

theorem sumOf_append (l' : List α) : sumOf p w (l ++ l') = sumOf p w l + sumOf p w l' := by
  simp [sumOf, List.filter_append]

theorem sumOf_all (h : ∀ a ∈ l, p a) : sumOf p w l = (l.map w).sum := by
  rw [sumOf, List.filter_eq_self.mpr fun a ha ↦ by simpa using h a ha]

theorem sumOf_none (h : ∀ a ∈ l, ¬p a) : sumOf p w l = 0 := by
  rw [sumOf, List.filter_eq_nil_iff.mpr fun a ha ↦ by simpa using h a ha]
  rfl

theorem sumOf_perm {l' : List α} (h : l.Perm l') : sumOf p w l = sumOf p w l' :=
  ((h.filter _).map w).sum_eq

theorem sumOf_nonneg (h : ∀ a ∈ l, 0 ≤ w a) : 0 ≤ sumOf p w l := by
  induction l with
  | nil => exact le_rfl
  | cons a l ih =>
    obtain ⟨ha, hl⟩ := List.forall_mem_cons.mp h
    have hrest := ih hl
    rw [sumOf_cons]
    split <;> omega

/-- The sums over the keys of a set are the sum over all whose key is in it. -/
theorem sum_sumOf (keys : Finset κ) (f : α → Option κ) :
    ∑ k ∈ keys, sumOf (fun a ↦ f a = some k) w l =
      sumOf (fun a ↦ ∃ k ∈ keys, f a = some k) w l := by
  induction l with
  | nil => simp
  | cons a l ih =>
    simp only [sumOf_cons, Finset.sum_add_distrib, ih, add_left_inj]
    cases f a with
    | none => simp
    | some k => simp [Finset.sum_ite_eq]

end

end KeyedLog
