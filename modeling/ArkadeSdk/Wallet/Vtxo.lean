import ArkadeSdk.Lib.JsNumber
import ArkadeSdk.Lib.WireFormat
import Mathlib.Data.List.Sort
import Mathlib.Algebra.Order.Ring.Int
import Mathlib.Algebra.BigOperators.Group.List.Basic

/-! Virtual outputs, what can be done with them, and how those that pay for something are chosen. -/

namespace ArkadeSdk.Vtxo

open WireFormat JsNumber

structure Asset where
  assetId : String
  amount : ℤ
  deriving DecidableEq

/-- A virtual output whose facts have been filled in. Times are in milliseconds. -/
structure VirtualCoin where
  txid : String
  vout : ℕ
  value : ℤ
  createdAt : ℤ
  isSpent : Bool
  isSwept : Bool
  spentBy : String
  settledBy : Option String
  expiresAt : Option ℤ
  expiresAtHeight : Option ℤ
  assets : Option (List Asset)
  deriving DecidableEq

abbrev Outpoint := String × ℕ

/-- An expiry is judged by height only where the height of the chain is at hand. -/
structure TimeHeight where
  timestamp : ℤ
  height : Option ℤ

namespace VirtualCoin

variable (coin : VirtualCoin)

def outpoint : Outpoint := (coin.txid, coin.vout)

def toBatchExpiry : Option ℤ := coin.expiresAt.or (coin.expiresAtHeight.map (· * 1000))

/-- `toBatchExpiry(coin) || undefined` -/
def batchExpiry : Option ℤ := coin.toBatchExpiry.filter (· ≠ 0)

def hasTerminalSpend : Bool :=
  coin.isSpent || coin.spentBy ≠ "" || (coin.settledBy.getD "") ≠ ""

def isPastExpiry (now : TimeHeight) : Bool :=
  (coin.expiresAt.any fun expiresAt ↦ expiresAt ≤ now.timestamp) ||
    (coin.expiresAtHeight.any fun expiresAtHeight ↦
      now.height.any fun height ↦ expiresAtHeight ≤ height)

def canSpendOffchain (now : TimeHeight) : Bool :=
  !coin.hasTerminalSpend && !(coin.isSwept || coin.isPastExpiry now)

def canRecoverOnchain (now : TimeHeight) : Bool :=
  !coin.hasTerminalSpend && (coin.isSwept || coin.isPastExpiry now)

def isSubdust (dust : ℤ) : Bool := coin.value < dust

def assetList : List Asset := coin.assets.getD []

def assetAmount (assetId : String) : ℤ :=
  ((coin.assetList.find? (·.assetId = assetId)).map (·.amount)).getD 0

def hasAsset (assetId : String) : Bool := coin.assetList.any (·.assetId = assetId)

end VirtualCoin

def totalValue (coins : List VirtualCoin) : ℤ := (coins.map (·.value)).sum

def outpoints (coins : List VirtualCoin) : List Outpoint := coins.map (·.outpoint)

def MAX_SAFE_INTEGER : ℤ := 2 ^ 53 - 1

/-- The earlier expiry first, then the larger amount. -/
def sooner (a b : VirtualCoin) : Prop :=
  let expiryA := a.batchExpiry.getD MAX_SAFE_INTEGER
  let expiryB := b.batchExpiry.getD MAX_SAFE_INTEGER
  if expiryA ≠ expiryB then expiryA ≤ expiryB else b.value ≤ a.value

instance : DecidableRel sooner := fun a b ↦ by
  unfold sooner
  infer_instance

/-- Coins are taken until they reach the target, one at the least. -/
def takeReaching (targetAmount selectedAmount : ℤ) :
    List VirtualCoin → List VirtualCoin × ℤ
  | [] => ([], selectedAmount)
  | coin :: coins =>
    if selectedAmount + coin.value ≥ targetAmount then ([coin], selectedAmount + coin.value)
    else
      let (selected, total) := takeReaching targetAmount (selectedAmount + coin.value) coins
      (coin :: selected, total)

structure CoinSelection where
  inputs : List VirtualCoin
  changeAmount : ℤ

def selectVirtualCoins (coins : List VirtualCoin) (targetAmount : ℤ) :
    Except Message CoinSelection :=
  let (selectedCoins, selectedAmount) := takeReaching targetAmount 0 (coins.insertionSort sooner)
  if selectedAmount = targetAmount then .ok ⟨selectedCoins, 0⟩
  else if selectedAmount < targetAmount then .error (message "Insufficient funds")
  else .ok ⟨selectedCoins, selectedAmount - targetAmount⟩

/-- Coins are taken while the amount required has not been reached. -/
def takeAssets (assetId : String) (requiredAmount totalAssetAmount : ℤ) :
    List VirtualCoin → List VirtualCoin × ℤ
  | [] => ([], totalAssetAmount)
  | coin :: coins =>
    if totalAssetAmount ≥ requiredAmount then ([], totalAssetAmount)
    else
      let (selected, total) := takeAssets assetId requiredAmount
        (totalAssetAmount + coin.assetAmount assetId) coins
      (coin :: selected, total)

def selectCoinsWithAsset (coins : List VirtualCoin) (assetId : String) (requiredAmount : ℤ) :
    Except Message (List VirtualCoin) := do
  let coinsWithAsset := (coins.filter (·.hasAsset assetId)).insertionSort
    fun a b ↦ a.assetAmount assetId ≤ b.assetAmount assetId
  let (selected, totalAssetAmount) := takeAssets assetId requiredAmount 0 coinsWithAsset
  rejectIf (totalAssetAmount < requiredAmount)
    [.text "Insufficient asset balance: have ", .value (.ofInt totalAssetAmount),
      .text ", need ", .value (.ofInt requiredAmount)]
  return selected

theorem takeReaching_isPrefix (targetAmount selectedAmount : ℤ) (coins : List VirtualCoin) :
    (takeReaching targetAmount selectedAmount coins).1 <+: coins := by
  induction coins generalizing selectedAmount with
  | nil => exact List.prefix_rfl
  | cons coin coins ih =>
    unfold takeReaching
    split
    · exact ⟨coins, rfl⟩
    · exact List.prefix_cons_inj coin |>.mpr (ih (selectedAmount + coin.value))

theorem takeAssets_isPrefix (assetId : String) (requiredAmount totalAssetAmount : ℤ)
    (coins : List VirtualCoin) :
    (takeAssets assetId requiredAmount totalAssetAmount coins).1 <+: coins := by
  induction coins generalizing totalAssetAmount with
  | nil => exact List.prefix_rfl
  | cons coin coins ih =>
    unfold takeAssets
    split
    · exact List.nil_prefix
    · exact List.prefix_cons_inj coin |>.mpr (ih (totalAssetAmount + coin.assetAmount assetId))

/-- What is chosen is found among the coins, in another order and none more often. -/
theorem selectVirtualCoins_subperm {coins : List VirtualCoin} {targetAmount : ℤ}
    {selection : CoinSelection} (h : selectVirtualCoins coins targetAmount = .ok selection) :
    selection.inputs.Subperm coins := by
  have hstart := (takeReaching_isPrefix targetAmount 0 (coins.insertionSort sooner)).sublist
  have hsub := hstart.subperm.trans (List.perm_insertionSort sooner coins).subperm
  simp only [selectVirtualCoins] at h
  split at h
  · obtain rfl := Except.ok.inj h
    exact hsub
  · split at h
    · cases h
    · obtain rfl := Except.ok.inj h
      exact hsub

theorem selectCoinsWithAsset_subperm {coins selected : List VirtualCoin} {assetId : String}
    {requiredAmount : ℤ} (h : selectCoinsWithAsset coins assetId requiredAmount = .ok selected) :
    selected.Subperm coins := by
  obtain ⟨-, h⟩ := then_ok.mp h
  obtain rfl := pure_ok.mp h
  exact (takeAssets_isPrefix _ _ _ _).sublist.subperm.trans
    ((List.perm_insertionSort _ _).subperm.trans List.filter_sublist.subperm)

theorem nodup_outpoints {coins selected : List VirtualCoin} (h : selected.Subperm coins)
    (hcoins : (outpoints coins).Nodup) : (outpoints selected).Nodup := by
  obtain ⟨l, hperm, hsub⟩ := h
  exact (hperm.map VirtualCoin.outpoint).nodup_iff.mp ((hsub.map VirtualCoin.outpoint).nodup hcoins)

end ArkadeSdk.Vtxo
