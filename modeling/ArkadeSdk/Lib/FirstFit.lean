import Mathlib.Data.List.Forall2
import Mathlib.Data.List.Nodup
import Mathlib.Data.List.Count

/-! Requests served one after another, each by the first free slot that fits it. -/

namespace FirstFit

variable {κ σ : Type} [DecidableEq σ] (slots : List σ) (fits : κ → σ → Bool)

def firstFit (used : List σ) (k : κ) : Option σ :=
  slots.find? fun s ↦ fits k s && decide (s ∉ used)

/-- The slots that the requests are served by. -/
def assign (used : List σ) : List κ → Option (List σ)
  | [] => some []
  | k :: ks =>
    match firstFit slots fits used k with
    | none => none
    | some s => (assign (s :: used) ks).map (s :: ·)

/-- Any way to serve the requests by free slots. -/
structure Matching (used : List σ) (ks : List κ) (ss : List σ) : Prop where
  fits : List.Forall₂ (fun k s ↦ fits k s) ks ss
  nodup : ss.Nodup
  free : ∀ s ∈ ss, s ∈ slots ∧ s ∉ used

variable {slots fits}

theorem firstFit_some {used : List σ} {k : κ} {s : σ} (h : firstFit slots fits used k = some s) :
    fits k s ∧ s ∈ slots ∧ s ∉ used := by
  have hp := List.find?_some h
  simp only [Bool.and_eq_true, decide_eq_true_eq] at hp
  exact ⟨hp.1, List.mem_of_find?_eq_some h, hp.2⟩

theorem assign_cons {used : List σ} {k : κ} {ks : List κ} {ss : List σ} :
    assign slots fits used (k :: ks) = some ss ↔ ∃ s rest, firstFit slots fits used k = some s ∧
      assign slots fits (s :: used) ks = some rest ∧ ss = s :: rest := by
  rw [assign]
  cases firstFit slots fits used k with
  | none => simp
  | some s =>
    simp only [Option.map_eq_some_iff, Option.some.injEq]
    constructor
    · rintro ⟨rest, hrest, rfl⟩
      exact ⟨s, rest, rfl, hrest, rfl⟩
    · rintro ⟨_, rest, rfl, hrest, rfl⟩
      exact ⟨rest, hrest, rfl⟩

theorem assign_matching {used : List σ} {ks : List κ} {ss : List σ}
    (h : assign slots fits used ks = some ss) : Matching slots fits used ks ss := by
  induction ks generalizing used ss with
  | nil =>
    cases h
    exact ⟨.nil, List.nodup_nil, by simp⟩
  | cons k ks ih =>
    obtain ⟨s, rest, hs, hrest, rfl⟩ := assign_cons.mp h
    obtain ⟨hfits, hslot, hfree⟩ := firstFit_some hs
    obtain ⟨hall, hnodup, hothers⟩ := ih hrest
    refine ⟨.cons hfits hall, List.nodup_cons.mpr ⟨?_, hnodup⟩, ?_⟩
    · exact fun hmem ↦ (hothers s hmem).2 List.mem_cons_self
    · rintro t (_ | ⟨_, ht⟩)
      · exact ⟨hslot, hfree⟩
      · exact ⟨(hothers t ht).1, fun hused ↦ (hothers t ht).2 (List.mem_cons_of_mem _ hused)⟩

/-- Only requests of one key compete for a slot. -/
def Apart (fits : κ → σ → Bool) : Prop := ∀ k k' s, fits k s → fits k' s → k = k'

theorem Matching.exchange (hapart : Apart fits) {used : List σ} {k : κ} {ks : List κ} {s s₀ : σ}
    {ss : List σ} (h : Matching slots fits used (k :: ks) (s₀ :: ss))
    (hs : firstFit slots fits used k = some s) :
    Matching slots fits (s :: used) ks (ss.map fun t ↦ if t = s then s₀ else t) := by
  obtain ⟨hfits, hslot, hfree⟩ := firstFit_some hs
  obtain ⟨hall, hnodup, hothers⟩ := h
  obtain ⟨hfits₀, hall⟩ := List.forall₂_cons.mp hall
  obtain ⟨hnew, hnodup⟩ := List.nodup_cons.mp hnodup
  refine ⟨?_, ?_, ?_⟩
  · refine List.forall₂_map_right_iff.mpr (hall.imp fun k' t ht ↦ ?_)
    split
    · next heq =>
      subst heq
      rw [hapart k' k t ht hfits]
      exact hfits₀
    · exact ht
  · refine hnodup.map_on fun t ht t' ht' heq ↦ ?_
    split at heq <;> split at heq
    · next h h' => exact h.trans h'.symm
    · exact absurd (heq ▸ ht') hnew
    · exact absurd (heq ▸ ht) hnew
    · exact heq
  · intro t ht
    obtain ⟨t', ht', rfl⟩ := List.mem_map.mp ht
    split
    · next heq =>
      obtain ⟨hslot₀, hfree₀⟩ := hothers s₀ List.mem_cons_self
      refine ⟨hslot₀, fun hmem ↦ ?_⟩
      rcases List.mem_cons.mp hmem with rfl | hused
      · exact hnew (heq ▸ ht')
      · exact hfree₀ hused
    · next hne =>
      obtain ⟨hslot', hfree'⟩ := hothers t' (List.mem_cons_of_mem _ ht')
      refine ⟨hslot', fun hmem ↦ ?_⟩
      rcases List.mem_cons.mp hmem with heq | hused
      · exact hne heq
      · exact hfree' hused

/-- Where the requests can be served at all, taking the first slot serves them. -/
theorem Matching.assign (hapart : Apart fits) {used : List σ} {ks : List κ} {ss : List σ}
    (h : Matching slots fits used ks ss) : ∃ ss', assign slots fits used ks = some ss' := by
  induction ks generalizing used ss with
  | nil => exact ⟨[], rfl⟩
  | cons k ks ih =>
    cases ss with
    | nil => cases h.fits
    | cons s₀ ss =>
      obtain ⟨hslot₀, hfree₀⟩ := h.free s₀ List.mem_cons_self
      have hfits₀ := (List.forall₂_cons.mp h.fits).1
      have hfound : (firstFit slots fits used k).isSome :=
        List.find?_isSome.mpr ⟨s₀, hslot₀, by simp [hfits₀, hfree₀]⟩
      obtain ⟨s, hs⟩ := Option.isSome_iff_exists.mp hfound
      obtain ⟨rest, hrest⟩ := ih (h.exchange hapart hs)
      exact ⟨s :: rest, assign_cons.mpr ⟨s, rest, hs, hrest, rfl⟩⟩

variable [DecidableEq κ]

/-- Of the slots that fit a key, those in front are used, one for each request served. -/
def InFront (slots : List σ) (fits : κ → σ → Bool) (served : List κ) (used : List σ) : Prop :=
  ∀ k, ∀ s ∈ slots.filter (fits k), s ∈ used ↔ s ∈ (slots.filter (fits k)).take (served.count k)

theorem find?_after {l used : List σ} {n : ℕ} (hnodup : l.Nodup)
    (hused : ∀ s ∈ l, s ∈ used ↔ s ∈ l.take n) :
    l.find? (fun s ↦ decide (s ∉ used)) = l[n]? := by
  induction l generalizing n with
  | nil => rfl
  | cons a l ih =>
    obtain ⟨hnew, hnodup⟩ := List.nodup_cons.mp hnodup
    have ha := hused a List.mem_cons_self
    cases n with
    | zero =>
      have hfree : a ∉ used := fun hmem ↦ by cases ha.mp hmem
      rw [List.find?_cons_of_pos (by simpa using hfree)]
      rfl
    | succ n =>
      have htaken : a ∈ used := ha.mpr List.mem_cons_self
      rw [List.find?_cons_of_neg (by simpa using htaken), List.getElem?_cons_succ]
      refine ih hnodup fun s hs ↦ ?_
      rw [hused s (List.mem_cons_of_mem _ hs), List.take_succ_cons, List.mem_cons]
      exact or_iff_right fun heq ↦ hnew (heq ▸ hs)

theorem InFront.next {served : List κ} {used : List σ} (h : InFront slots fits served used)
    (hnodup : slots.Nodup) (k : κ) :
    firstFit slots fits used k = (slots.filter (fits k))[served.count k]? := by
  rw [← find?_after (hnodup.filter _) (h k), List.find?_filter, firstFit]
  refine congrArg (List.find? · slots) (funext fun s ↦ ?_)
  rw [Bool.decide_and, Bool.decide_eq_true, Bool.decide_eq_true]

theorem InFront.serve (hapart : Apart fits) (hnodup : slots.Nodup) {served : List κ}
    {used : List σ} (h : InFront slots fits served used) {k : κ} {s : σ}
    (hs : firstFit slots fits used k = some s) :
    InFront slots fits (k :: served) (s :: used) := by
  intro k' t ht
  rw [List.mem_cons, h k' t ht]
  by_cases hk : k = k'
  · subst hk
    rw [h.next hnodup] at hs
    rw [List.count_cons_self, List.take_add_one, hs, List.mem_append, or_comm]
    simp
  · rw [List.count_cons_of_ne hk]
    refine or_iff_right ?_
    rintro rfl
    exact hk (hapart _ _ _ (firstFit_some hs).1 (List.mem_filter.mp ht).2)

theorem assign_get_of_inFront (hapart : Apart fits) (hnodup : slots.Nodup) {served : List κ}
    {used : List σ} (hfront : InFront slots fits served used) {ks : List κ} {ss : List σ}
    (h : assign slots fits used ks = some ss) {n : ℕ} {k : κ} (hk : ks[n]? = some k) :
    ss[n]? = (slots.filter (fits k))[(ks.take n).count k + served.count k]? := by
  induction ks generalizing served used ss n with
  | nil => cases hk
  | cons k' ks ih =>
    obtain ⟨s, rest, hs, hrest, rfl⟩ := assign_cons.mp h
    cases n with
    | zero =>
      obtain rfl : k' = k := Option.some.inj hk
      rw [hfront.next hnodup] at hs
      rw [List.take_zero, List.count_nil, Nat.zero_add, hs]
      rfl
    | succ n =>
      have hlater := ih (hfront.serve hapart hnodup hs) hrest hk
      rw [List.getElem?_cons_succ, hlater, List.take_succ_cons, List.count_cons, List.count_cons]
      congr 1
      omega

/-- A request gets the slot whose place among those that fit it is the request's own place among
those of its key. -/
theorem assign_get (hapart : Apart fits) (hnodup : slots.Nodup) {ks : List κ} {ss : List σ}
    (h : assign slots fits [] ks = some ss) {n : ℕ} {k : κ} (hk : ks[n]? = some k) :
    ss[n]? = (slots.filter (fits k))[(ks.take n).count k]? := by
  have hfront : InFront slots fits [] [] := fun k s _ ↦ by simp
  exact assign_get_of_inFront hapart hnodup hfront h hk

end FirstFit
