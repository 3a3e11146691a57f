import Mathlib.Data.List.Perm.Basic
import Mathlib.Data.List.Nodup
import Mathlib.Data.List.MinMax
import ArkadeSdk.Lib.JsCoercion

/-! Exit branches are stored in an order in which every transaction follows those it spends. -/

namespace ArkadeSdk.Exit

section TopoSort

variable {T I : Type} [DecidableEq I] (idOf : T → I) (depsOf : T → List I)

/-- Dependencies that no item produces count as satisfied. -/
def ready (produced : List I) (ordered : List T) (item : T) : Bool :=
  (depsOf item).all fun d ↦ d ∉ produced || d ∈ ordered.map idOf

/-- One pass: what has been put in order, and what is left for the next pass. -/
def topoPass (produced : List I) : List T → List T → List T × List T
  | [], ordered => (ordered, [])
  | item :: remaining, ordered =>
    if ready idOf depsOf produced ordered item then
      topoPass produced remaining (ordered ++ [item])
    else
      ((topoPass produced remaining ordered).1, item :: (topoPass produced remaining ordered).2)

/-- Passes until nothing remains, `none` for the error of a pass that gets nowhere. A pass that
gets somewhere leaves less, so as many passes as items are enough. -/
def topoPasses (produced : List I) : ℕ → List T → List T → Option (List T)
  | _, [], ordered => some ordered
  | 0, _ :: _, _ => none
  | fuel + 1, item :: remaining, ordered =>
    let next := topoPass idOf depsOf produced (item :: remaining) ordered
    if next.2.length < remaining.length + 1 then topoPasses produced fuel next.2 next.1
    else none

def topoSortByDeps (items : List T) : Option (List T) :=
  topoPasses idOf depsOf (items.map idOf) items.length items []

/-- Every produced dependency of an item comes before it. -/
def DepsFirst (produced : List I) (ordered : List T) : Prop :=
  ∀ before (item : T) after, ordered = before ++ item :: after →
    ∀ d ∈ depsOf item, d ∈ produced → d ∈ before.map idOf

variable {idOf depsOf} {produced : List I} {remaining ordered : List T} {item : T}

theorem ready_iff : ready idOf depsOf produced ordered item = true ↔
    ∀ d ∈ depsOf item, d ∈ produced → d ∈ ordered.map idOf := by
  unfold ready
  rw [List.all_eq_true]
  refine forall₂_congr fun d _ ↦ ?_
  rw [Bool.or_eq_true, decide_eq_true_iff, decide_eq_true_iff]
  exact imp_iff_not_or.symm

theorem DepsFirst.append (h : DepsFirst idOf depsOf produced ordered)
    (hready : ready idOf depsOf produced ordered item = true) :
    DepsFirst idOf depsOf produced (ordered ++ [item]) := by
  intro before x after heq d hd hp
  rcases List.eq_nil_or_concat' after with rfl | ⟨after, last, rfl⟩
  · obtain ⟨rfl, hx⟩ := List.append_inj' heq rfl
    obtain rfl := (List.cons.inj hx).1
    exact ready_iff.mp hready d hd hp
  · rw [← List.cons_append, ← List.append_assoc] at heq
    exact h before x after (List.append_inj' heq rfl).1 d hd hp

theorem topoPass_perm : ((topoPass idOf depsOf produced remaining ordered).1 ++
    (topoPass idOf depsOf produced remaining ordered).2).Perm (ordered ++ remaining) := by
  induction remaining generalizing ordered with
  | nil => exact .refl _
  | cons item remaining ih =>
    unfold topoPass
    split
    · exact ih.trans (by rw [List.append_assoc]; exact .refl _)
    · exact List.perm_middle.trans ((List.Perm.cons item ih).trans List.perm_middle.symm)

theorem topoPass_depsFirst (h : DepsFirst idOf depsOf produced ordered) :
    DepsFirst idOf depsOf produced (topoPass idOf depsOf produced remaining ordered).1 := by
  induction remaining generalizing ordered with
  | nil => exact h
  | cons item remaining ih =>
    unfold topoPass
    split
    · rename_i hready
      exact ih (h.append hready)
    · exact ih h

theorem topoPass_length_le :
    (topoPass idOf depsOf produced remaining ordered).2.length ≤ remaining.length := by
  induction remaining generalizing ordered with
  | nil => exact Nat.le_refl _
  | cons item remaining ih =>
    unfold topoPass
    split
    · exact (ih).trans (Nat.le_succ _)
    · exact Nat.succ_le_succ ih

theorem topoPass_length_lt (hmem : item ∈ remaining)
    (h : ready idOf depsOf produced ordered item = true) :
    (topoPass idOf depsOf produced remaining ordered).2.length < remaining.length := by
  induction remaining generalizing ordered with
  | nil => cases hmem
  | cons x remaining ih =>
    unfold topoPass
    split
    · exact Nat.lt_succ_of_le topoPass_length_le
    · rename_i hx
      rcases List.mem_cons.mp hmem with rfl | hmem
      · exact absurd h hx
      · exact Nat.succ_lt_succ (ih hmem h)

theorem topoPasses_spec {fuel : ℕ} {result : List T}
    (h : topoPasses idOf depsOf produced fuel remaining ordered = some result)
    (hfirst : DepsFirst idOf depsOf produced ordered) :
    result.Perm (ordered ++ remaining) ∧ DepsFirst idOf depsOf produced result := by
  induction fuel generalizing remaining ordered with
  | zero =>
    cases remaining with
    | nil =>
      obtain rfl := Option.some.inj h
      exact ⟨by rw [List.append_nil], hfirst⟩
    | cons item remaining => cases h
  | succ fuel ih =>
    cases remaining with
    | nil =>
      obtain rfl := Option.some.inj h
      exact ⟨by rw [List.append_nil], hfirst⟩
    | cons item remaining =>
      dsimp only [topoPasses] at h
      split at h
      · obtain ⟨hperm, hdeps⟩ := ih h (topoPass_depsFirst hfirst)
        exact ⟨hperm.trans topoPass_perm, hdeps⟩
      · cases h

theorem topoSortByDeps_spec {items result : List T}
    (h : topoSortByDeps idOf depsOf items = some result) :
    result.Perm items ∧ DepsFirst idOf depsOf (items.map idOf) result :=
  topoPasses_spec h fun before item after heq ↦ by
    cases before with
    | nil => cases heq
    | cons _ _ => cases heq

section Acyclic

variable {rank : I → ℕ} {items : List T}

theorem exists_ready
    (hrank : ∀ item ∈ items, ∀ d ∈ depsOf item, d ∈ items.map idOf → rank d < rank (idOf item))
    (hperm : (ordered ++ remaining).Perm items) (hne : remaining ≠ []) :
    ∃ item ∈ remaining, ready idOf depsOf (items.map idOf) ordered item = true := by
  obtain ⟨item, hmin⟩ := Option.ne_none_iff_exists'.mp
    (fun h ↦ hne (List.argmin_eq_none.mp h) : List.argmin (rank ∘ idOf) remaining ≠ none)
  have hitem : item ∈ remaining := List.argmin_mem hmin
  refine ⟨item, hitem, ready_iff.mpr fun d hd hp ↦ ?_⟩
  have hlt := hrank item (hperm.mem_iff.mp (List.mem_append_right _ hitem)) d hd hp
  obtain ⟨y, hy, rfl⟩ := List.mem_map.mp hp
  rcases List.mem_append.mp (hperm.mem_iff.mpr hy) with hy | hy
  · exact List.mem_map_of_mem hy
  · have hle : rank (idOf item) ≤ rank (idOf y) :=
      List.le_of_mem_argmin (f := rank ∘ idOf) hy hmin
    exact absurd hlt (Nat.not_lt_of_le hle)

theorem topoPasses_isSome {fuel : ℕ}
    (hrank : ∀ item ∈ items, ∀ d ∈ depsOf item, d ∈ items.map idOf → rank d < rank (idOf item))
    (hperm : (ordered ++ remaining).Perm items) (hfuel : remaining.length ≤ fuel) :
    (topoPasses idOf depsOf (items.map idOf) fuel remaining ordered).isSome := by
  induction fuel generalizing remaining ordered with
  | zero =>
    obtain rfl := List.length_eq_zero_iff.mp (Nat.le_zero.mp hfuel)
    rfl
  | succ fuel ih =>
    cases remaining with
    | nil => rfl
    | cons item remaining =>
      obtain ⟨x, hx, hready⟩ := exists_ready hrank hperm (List.cons_ne_nil _ _)
      have hlt : _ < remaining.length + 1 := topoPass_length_lt hx hready
      dsimp only [topoPasses]
      rw [if_pos hlt]
      exact ih (topoPass_perm.trans hperm)
        (Nat.le_of_lt_succ (Nat.lt_of_lt_of_le hlt hfuel))

theorem topoSortByDeps_isSome
    (hrank : ∀ item ∈ items, ∀ d ∈ depsOf item, d ∈ items.map idOf → rank d < rank (idOf item)) :
    (topoSortByDeps idOf depsOf items).isSome :=
  topoPasses_isSome hrank (.refl _) (Nat.le_refl _)

end Acyclic

end TopoSort

/-- What the indexer calls a transaction. -/
inductive ChainTxType
  | unspecified
  | commitment
  | ark
  | tree
  | checkpoint
  deriving DecidableEq

/-- What the repository calls it. -/
inductive ChainedTxType
  | unspecified
  | commitment
  | ark
  | tree
  | checkpoint
  deriving DecidableEq

def chainTxTypeToChainedExit : ChainTxType → ChainedTxType
  | .commitment => .commitment
  | .ark => .ark
  | .tree => .tree
  | .checkpoint => .checkpoint
  | .unspecified => .unspecified

structure ChainTx where
  txid : String
  expiresAt : String
  type : ChainTxType
  spends : List String
  deriving DecidableEq

namespace ChainTx

def chainedType (c : ChainTx) : ChainedTxType := chainTxTypeToChainedExit c.type

end ChainTx

def orderAncestryFirst (chain : List ChainTx) : Option (List ChainTx) :=
  topoSortByDeps (·.txid) (fun c ↦ c.spends.filter (· ∈ chain.map (·.txid))) chain

/-- Nothing comes before a transaction of the branch that it spends. -/
def AncestorsFirst (branch : List ChainTx) : Prop :=
  ∀ before (c : ChainTx) after, branch = before ++ c :: after →
    ∀ txid ∈ c.spends, txid ∈ branch.map (·.txid) → txid ∈ before.map (·.txid)

section OrderAncestryFirst

variable {chain branch : List ChainTx}

theorem orderAncestryFirst_perm (h : orderAncestryFirst chain = some branch) :
    branch.Perm chain :=
  (topoSortByDeps_spec h).1

theorem orderAncestryFirst_ancestorsFirst (h : orderAncestryFirst chain = some branch) :
    AncestorsFirst branch := by
  intro before c after heq txid hspends hmem
  obtain ⟨hperm, hfirst⟩ := topoSortByDeps_spec h
  have hchain : txid ∈ chain.map (·.txid) := (hperm.map _).mem_iff.mp hmem
  exact hfirst before c after heq txid
    (List.mem_filter.mpr ⟨hspends, decide_eq_true hchain⟩) hchain

/-- A chain in which every transaction is newer than those it spends is always put in order. -/
theorem orderAncestryFirst_isSome {age : String → ℕ}
    (h : ∀ c ∈ chain, ∀ txid ∈ c.spends, age txid < age c.txid) :
    (orderAncestryFirst chain).isSome :=
  topoSortByDeps_isSome fun c hc txid htxid _ ↦ h c hc txid (List.mem_of_mem_filter htxid)

end OrderAncestryFirst

end ArkadeSdk.Exit
