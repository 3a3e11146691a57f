import ArkadeSdk.Wallet.Onchain
import Mathlib.Algebra.Order.BigOperators.Group.List
import Mathlib.Tactic.Linarith

/-! What `selectCoins` promises of the coins it takes, and when it keeps the promise. -/

namespace ArkadeSdk.Onchain

open WireFormat

def Sufficient (target : ℤ) (forceChange : Bool) (amount : ℤ) : Prop :=
  if forceChange then target < amount else target ≤ amount

instance (target : ℤ) (forceChange : Bool) : DecidablePred (Sufficient target forceChange) :=
  fun amount ↦ inferInstanceAs (Decidable (if forceChange then target < amount else _))

structure SelectionRight (coins : List Coin) (target : ℤ) (forceChange : Bool)
    (selected : Selection) : Prop where
  subperm : selected.inputs.Subperm coins
  largestFirst : selected.inputs <+: coins.insertionSort larger
  total : totalValue selected.inputs = target + selected.changeAmount
  minimal : ∀ taken, taken <+: selected.inputs → taken ≠ selected.inputs →
    ¬Sufficient target forceChange (totalValue taken)
  change : 0 ≤ selected.changeAmount
  forced : forceChange = true → 0 < selected.changeAmount

def SelectionContract (coins : List Coin) (target : ℤ) (forceChange : Bool) :
    Except Message Selection → Prop
  | .ok selected => SelectionRight coins target forceChange selected
  | .error _ => totalValue coins < target ∨ forceChange = true ∧ totalValue coins = target

section TakeCoins

variable {reached : ℤ → Bool} {start : ℤ} {coins taken : List Coin}

@[simp] theorem totalValue_nil : totalValue [] = 0 := rfl

@[simp] theorem totalValue_cons (coin : Coin) (coins : List Coin) :
    totalValue (coin :: coins) = coin.value + totalValue coins := rfl

theorem takeCoins_prefix_self : takeCoins reached start coins <+: coins := by
  induction coins generalizing start with
  | nil => exact List.prefix_refl _
  | cons coin coins ih =>
    unfold takeCoins
    split
    · exact List.prefix_append [coin] coins
    · exact (List.prefix_cons_inj coin).mpr ih

theorem takeCoins_minimal (hstart : reached start = false)
    (hinitial : taken <+: takeCoins reached start coins)
    (hne : taken ≠ takeCoins reached start coins) :
    reached (start + totalValue taken) = false := by
  induction coins generalizing start taken with
  | nil => exact absurd (List.prefix_nil.mp hinitial) hne
  | cons coin coins ih =>
    cases taken with
    | nil => simpa using hstart
    | cons first taken =>
      unfold takeCoins at hinitial hne
      split at hinitial
      · next hreached =>
        rw [if_pos hreached] at hne
        obtain ⟨rfl, hnil⟩ := List.cons_prefix_cons.mp hinitial
        exact absurd (by rw [List.prefix_nil.mp hnil]) hne
      · next hreached =>
        rw [if_neg hreached] at hne
        obtain ⟨rfl, hinitial⟩ := List.cons_prefix_cons.mp hinitial
        rw [totalValue_cons, ← add_assoc]
        refine ih (Bool.eq_false_iff.mpr hreached) hinitial fun heq ↦ hne ?_
        rw [heq]

theorem takeCoins_reached (h : takeCoins reached start coins ≠ coins) :
    reached (start + totalValue (takeCoins reached start coins)) = true := by
  induction coins generalizing start with
  | nil => exact absurd rfl h
  | cons coin coins ih =>
    unfold takeCoins at h ⊢
    split
    · next hreached => simpa using hreached
    · next hreached =>
      rw [if_neg hreached] at h
      rw [totalValue_cons, ← add_assoc]
      exact ih fun heq ↦ h (by rw [heq])

theorem totalValue_nonneg (hpos : ∀ coin ∈ coins, 0 < coin.value) : 0 ≤ totalValue coins :=
  List.sum_nonneg fun v hv ↦ by
    obtain ⟨coin, hcoin, rfl⟩ := List.mem_map.mp hv
    exact (hpos coin hcoin).le

theorem totalValue_le_of_prefix (hpos : ∀ coin ∈ coins, 0 < coin.value) (h : taken <+: coins) :
    totalValue taken ≤ totalValue coins := by
  obtain ⟨rest, rfl⟩ := h
  have hrest := totalValue_nonneg fun coin hcoin ↦ hpos coin (List.mem_append_right taken hcoin)
  have happend : totalValue (taken ++ rest) = totalValue taken + totalValue rest := by
    simp [totalValue]
  omega

end TakeCoins

variable {coins : List Coin} {target : ℤ} {forceChange : Bool}

def loopCoins (coins : List Coin) (target : ℤ) (forceChange : Bool) : List Coin :=
  takeCoins (fun amount ↦ if forceChange then target < amount else target ≤ amount) 0
    (coins.insertionSort larger)

theorem selectCoins_eq (htarget : 0 < target) : selectCoins coins target forceChange =
    if totalValue (loopCoins coins target forceChange) = target then
      .ok ⟨loopCoins coins target forceChange, 0⟩
    else if totalValue (loopCoins coins target forceChange) < target then .error insufficientFunds
    else .ok ⟨loopCoins coins target forceChange,
      totalValue (loopCoins coins target forceChange) - target⟩ := by
  rw [selectCoins, if_neg (by omega), if_neg (by omega)]
  rfl

theorem sufficient_iff {amount : ℤ} : Sufficient target forceChange amount ↔
    (if forceChange then decide (target < amount) else decide (target ≤ amount)) = true := by
  cases forceChange <;> simp [Sufficient]

theorem totalValue_sorted (coins : List Coin) :
    totalValue (coins.insertionSort larger) = totalValue coins :=
  ((List.perm_insertionSort larger coins).map Coin.value).sum_eq

theorem loopCoins_minimal {taken : List Coin} (htarget : 0 < target)
    (hinitial : taken <+: loopCoins coins target forceChange)
    (hne : taken ≠ loopCoins coins target forceChange) :
    ¬Sufficient target forceChange (totalValue taken) := by
  have hstart : (if forceChange then decide (target < 0) else decide (target ≤ 0)) = false := by
    split <;> exact decide_eq_false (by omega)
  have h := takeCoins_minimal hstart hinitial hne
  rw [zero_add] at h
  rw [sufficient_iff, h]
  exact Bool.false_ne_true

theorem loopCoins_reached (coins : List Coin) (target : ℤ) (forceChange : Bool) :
    Sufficient target forceChange (totalValue (loopCoins coins target forceChange)) ∨
      loopCoins coins target forceChange = coins.insertionSort larger := by
  by_cases hall : loopCoins coins target forceChange = coins.insertionSort larger
  · exact .inr hall
  · have h := takeCoins_reached hall
    rw [zero_add] at h
    exact .inl (sufficient_iff.mpr h)

theorem loopCoins_right {change : ℤ} (htarget : 0 < target)
    (htotal : totalValue (loopCoins coins target forceChange) = target + change)
    (hchange : 0 ≤ change) (hforced : forceChange = true → 0 < change) :
    SelectionRight coins target forceChange ⟨loopCoins coins target forceChange, change⟩ where
  subperm := takeCoins_prefix_self.sublist.subperm.trans
    (List.perm_insertionSort larger coins).subperm
  largestFirst := takeCoins_prefix_self
  total := htotal
  minimal _ hinitial hne := loopCoins_minimal htarget hinitial hne
  change := hchange
  forced := hforced

/-- The contract is kept unless change is forced and the coins are worth the target exactly: then
the whole of them is selected with no change. -/
theorem selectCoins_contract_iff (coins : List Coin) (target : ℤ) (forceChange : Bool)
    (hpos : ∀ coin ∈ coins, 0 < coin.value) (htarget : 0 < target) :
    SelectionContract coins target forceChange (selectCoins coins target forceChange) ↔
      ¬(forceChange = true ∧ totalValue coins = target) := by
  have hle : totalValue (loopCoins coins target forceChange) ≤ totalValue coins := by
    have hpos' : ∀ coin ∈ coins.insertionSort larger, 0 < coin.value :=
      fun coin hcoin ↦ hpos coin ((List.mem_insertionSort larger).mp hcoin)
    rw [← totalValue_sorted coins]
    exact totalValue_le_of_prefix hpos' takeCoins_prefix_self
  rw [selectCoins_eq htarget]
  rcases loopCoins_reached coins target forceChange with hreached | hall
  · cases forceChange with
    | true =>
      have hlt : target < totalValue (loopCoins coins target true) := hreached
      rw [if_neg hlt.ne', if_neg hlt.not_gt]
      refine iff_of_true ?_ fun h ↦ absurd h.2 (by omega)
      exact loopCoins_right htarget (by omega) (by omega) fun _ ↦ by omega
    | false =>
      have hge : target ≤ totalValue (loopCoins coins target false) := hreached
      refine iff_of_true ?_ fun h ↦ absurd h.1 Bool.false_ne_true
      split
      · next htotal =>
        exact loopCoins_right htarget (by omega) le_rfl fun h ↦ absurd h Bool.false_ne_true
      · rw [if_neg hge.not_gt]
        exact loopCoins_right htarget (by omega) (by omega) fun h ↦ absurd h Bool.false_ne_true
  · have hall' : totalValue (loopCoins coins target forceChange) = totalValue coins := by
      rw [hall, totalValue_sorted]
    rw [hall']
    split
    · next htotal =>
      constructor
      · rintro hright ⟨hforced, -⟩
        exact absurd (hright.forced hforced) (lt_irrefl 0)
      · intro h
        exact loopCoins_right htarget (by omega) le_rfl fun hforced ↦ absurd ⟨hforced, htotal⟩ h
    · next htotal =>
      refine iff_of_true ?_ fun h ↦ htotal h.2
      split
      · next hlt => exact .inl hlt
      · exact loopCoins_right htarget (by omega) (by omega) fun _ ↦ by omega

def twoCoins : List Coin := [⟨"", 0, 330⟩, ⟨"", 1, 1000⟩]

theorem selectCoins_contract_twoCoins :
    SelectionContract twoCoins 400 true (selectCoins twoCoins 400 true) :=
  (selectCoins_contract_iff twoCoins 400 true (by decide) (by decide)).mpr (by decide)

/-- Change is forced, and there is none. -/
theorem selectCoins_without_forced_change :
    selectCoins twoCoins 1330 true = .ok ⟨[⟨"", 1, 1000⟩, ⟨"", 0, 330⟩], 0⟩ ∧
      ¬SelectionContract twoCoins 1330 true (selectCoins twoCoins 1330 true) := by
  have h : selectCoins twoCoins 1330 true = .ok ⟨[⟨"", 1, 1000⟩, ⟨"", 0, 330⟩], 0⟩ := by decide
  rw [h]
  exact ⟨rfl, fun hright ↦ absurd (hright.forced rfl) (by decide)⟩

end ArkadeSdk.Onchain
