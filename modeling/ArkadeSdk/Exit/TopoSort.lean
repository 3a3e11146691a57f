import ArkadeSdk.Exit.Ancestry
import ArkadeSdk.Lib.Kahn

/-! What `topoSortByDeps` refuses: the lists whose items depend on each other in a circle. -/

namespace ArkadeSdk.Exit

variable {T I : Type} [DecidableEq I] {idOf : T → I} {depsOf : T → List I}

section Loop

variable (idOf depsOf)

/-- How the loop of `topoSortByDeps` ends, if it does, with no bound on its passes: `none` when
it throws. -/
inductive TopoRun (produced : List I) : List T → List T → Option (List T) → Prop
  | done (ordered : List T) : TopoRun produced [] ordered (some ordered)
  | stuck {remaining ordered : List T} (hne : remaining ≠ [])
      (h : (topoPass idOf depsOf produced remaining ordered).2.length = remaining.length) :
      TopoRun produced remaining ordered none
  | pass {remaining ordered : List T} {result : Option (List T)} (hne : remaining ≠ [])
      (h : (topoPass idOf depsOf produced remaining ordered).2.length ≠ remaining.length)
      (hrun : TopoRun produced (topoPass idOf depsOf produced remaining ordered).2
        (topoPass idOf depsOf produced remaining ordered).1 result) :
      TopoRun produced remaining ordered result

/-- `d` is listed and an item with the id `c` depends on it. -/
def DependencyOf (items : List T) (d c : I) : Prop :=
  d ∈ items.map idOf ∧ ∃ item ∈ items, idOf item = c ∧ d ∈ depsOf item

end Loop

variable {items result : List T}

theorem topoRun_topoPasses {produced : List I} {remaining ordered : List T} {fuel : ℕ}
    (hfuel : remaining.length ≤ fuel) : TopoRun idOf depsOf produced remaining ordered
      (topoPasses idOf depsOf produced fuel remaining ordered) := by
  induction fuel generalizing remaining ordered with
  | zero =>
    obtain rfl := List.length_eq_zero_iff.mp (Nat.le_zero.mp hfuel)
    exact .done ordered
  | succ fuel ih =>
    cases remaining with
    | nil => exact .done ordered
    | cons item remaining =>
      have hle : (topoPass idOf depsOf produced (item :: remaining) ordered).2.length ≤
          remaining.length + 1 := topoPass_length_le
      dsimp only [topoPasses]
      split
      · next hlt =>
        refine .pass (List.cons_ne_nil _ _) (Nat.ne_of_lt hlt) (ih ?_)
        exact Nat.le_of_lt_succ (Nat.lt_of_lt_of_le hlt hfuel)
      · next hlt => exact .stuck (List.cons_ne_nil _ _) (Nat.le_antisymm hle (Nat.not_lt.mp hlt))

/-- In an order that respects the dependencies, each is at an earlier place than its dependents. -/
theorem DepsFirst.idxOf_lt (hperm : result.Perm items) (hids : (items.map idOf).Nodup)
    (hfirst : DepsFirst idOf depsOf (items.map idOf) result) {d c : I}
    (h : DependencyOf idOf depsOf items d c) :
    (result.map idOf).idxOf d < (result.map idOf).idxOf c := by
  obtain ⟨hd, item, hitem, rfl, hdeps⟩ := h
  obtain ⟨before, after, rfl⟩ := List.append_of_mem (hperm.mem_iff.mpr hitem)
  have hbefore : d ∈ before.map idOf := hfirst before item after rfl d hdeps hd
  have hnodup := (hperm.map idOf).nodup_iff.mpr hids
  rw [List.map_append, List.map_cons] at hnodup ⊢
  have hitem' : idOf item ∉ before.map idOf := fun hmem ↦
    (List.nodup_append.mp hnodup).2.2 _ hmem _ List.mem_cons_self rfl
  rw [List.idxOf_append_of_mem hbefore, List.idxOf_append_of_notMem hitem']
  exact Nat.lt_of_lt_of_le (List.idxOf_lt_length_of_mem hbefore) (Nat.le_add_right _ _)

theorem topoSortByDeps_eq_none_iff (hids : (items.map idOf).Nodup) :
    topoSortByDeps idOf depsOf items = none ↔
      ∃ i, Relation.TransGen (DependencyOf idOf depsOf items) i i := by
  constructor
  · intro hnone
    by_contra hcycle
    rw [not_exists] at hcycle
    obtain ⟨rank, hrank⟩ := Acyclic.exists_rank (fun d c h ↦ h.1) hcycle
    have hsome := topoSortByDeps_isSome fun item hitem d hd hmem ↦
      hrank d (idOf item) ⟨hmem, item, hitem, rfl, hd⟩
    rw [hnone] at hsome
    cases hsome
  · rintro ⟨i, hcycle⟩
    cases hresult : topoSortByDeps idOf depsOf items with
    | none => rfl
    | some result =>
      obtain ⟨hperm, hfirst⟩ := topoSortByDeps_spec hresult
      exact absurd hcycle (Acyclic.of_rank (fun _ _ h ↦ hfirst.idxOf_lt hperm hids h) i)

/-- The loop ends. It throws on a cycle only, and what it returns is in order. -/
theorem topoSortByDeps_correct {T I : Type} [DecidableEq I] (idOf : T → I) (depsOf : T → List I)
    (items : List T) (hids : (items.map idOf).Nodup) :
    TopoRun idOf depsOf (items.map idOf) items [] (topoSortByDeps idOf depsOf items) ∧
      (∀ result, topoSortByDeps idOf depsOf items = some result →
        result.Perm items ∧ DepsFirst idOf depsOf (items.map idOf) result) ∧
      (topoSortByDeps idOf depsOf items = none ↔
        ∃ i, Relation.TransGen (DependencyOf idOf depsOf items) i i) :=
  ⟨topoRun_topoPasses (Nat.le_refl _), fun _ ↦ topoSortByDeps_spec,
    topoSortByDeps_eq_none_iff hids⟩

/-- Two items, listed in the wrong order. -/
theorem topoSortByDeps_two :
    TopoRun Prod.fst Prod.snd ["b", "a"] [("b", ["a", "x"]), ("a", [])] []
        (some [("a", []), ("b", ["a", "x"])]) ∧
      ¬∃ i, Relation.TransGen (DependencyOf Prod.fst Prod.snd
        [("b", ["a", "x"]), ("a", ([] : List String))]) i i := by
  obtain ⟨hrun, -, hcycle⟩ := topoSortByDeps_correct Prod.fst Prod.snd
    [("b", ["a", "x"]), ("a", ([] : List String))] (by decide)
  have hsome : topoSortByDeps Prod.fst Prod.snd [("b", ["a", "x"]), ("a", ([] : List String))] =
      some [("a", []), ("b", ["a", "x"])] := by decide
  rw [hsome] at hrun hcycle
  exact ⟨hrun, fun h ↦ absurd (hcycle.mpr h) (Option.some_ne_none _)⟩

end ArkadeSdk.Exit
