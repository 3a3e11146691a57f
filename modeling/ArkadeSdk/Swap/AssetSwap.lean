import ArkadeSdk.Lib.HexCodec
import ArkadeSdk.Script.TaprootTree
import ArkadeSdk.Swap.OfferCodec

/-! Offer swap records, and what a spend of a deposit says about them. -/

namespace ArkadeSdk

open WireFormat HexCodec

inductive AssetSwapStatus
  | pending
  | cancelling
  | fulfilled
  | cancelled
  | recoverable
  | awaiting_fill
  | claimable
  | claimed
  | refunded_l1
  deriving DecidableEq, Repr

structure AssetSwap where
  id : String
  fromAsset : String
  toAsset : String
  fromAmount : String
  toAmount : String
  swapAddress : String
  swapPkScript : String
  offerHex : String
  fundingTxid : String
  spentTxid : Option String
  status : AssetSwapStatus
  createdAt : ℤ
  completedAt : Option ℤ
  deriving DecidableEq

/-- What an update merges into a record. -/
structure AssetSwapChanges where
  status : AssetSwapStatus
  spentTxid : Option String
  completedAt : Option ℤ
  deriving DecidableEq

namespace AssetSwap

/-- `{ ...s, ...changes }`. -/
def merge (swap : AssetSwap) (changes : AssetSwapChanges) : AssetSwap :=
  { swap with
    status := changes.status
    spentTxid := changes.spentTxid.or swap.spentTxid
    completedAt := changes.completedAt.or swap.completedAt }

def byNewest (swaps : List AssetSwap) : List AssetSwap :=
  swaps.mergeSort fun a b ↦ b.createdAt ≤ a.createdAt

def mergeById (id : String) (changes : AssetSwapChanges) (swaps : List AssetSwap) :
    List AssetSwap :=
  swaps.map fun s ↦ if s.id = id then s.merge changes else s

end AssetSwap

/-- Statuses a spend cannot move. -/
def TERMINAL : List AssetSwapStatus := [.fulfilled, .cancelled, .recoverable]

/-- Statuses after which the covenant holds no funds. -/
def RETIRABLE : List AssetSwapStatus := [.fulfilled, .cancelled]

inductive SpendKind
  | cancelled
  | fulfilled
  | indeterminate
  deriving DecidableEq, Repr

/-- An input of a transaction, as far as a spend is read off it. The leaves end in their version
byte. -/
structure SpendInput where
  txid : Option Bytes
  index : Option ℕ
  tapLeafScript : List Bytes
  deriving DecidableEq

structure SpendTx where
  id : String
  inputs : List SpendInput
  deriving DecidableEq

structure Deposit where
  txid : String
  vout : ℕ
  deriving DecidableEq

/-- Compiling covenants, and the script of a tree. -/
structure OfferLibraries (Tree : Type) where
  program : ProgramLibraries Tree
  pkScript : Tree → Bytes

variable {Tree : Type} (L : OfferLibraries Tree)

def SpendInput.takes (input : SpendInput) (deposit : Deposit) : Bool :=
  input.index = some deposit.vout && input.txid.any fun txid ↦ base16.encode txid = deposit.txid

structure Leaves where
  cancel : Option Bytes
  fulfill : Option Bytes

def offerLeaves (offer : Offer) (serverPubkey : Bytes) : Option Leaves :=
  match offer.offerVtxoScript L.program serverPubkey with
  | .error _ => none
  | .ok script =>
    if L.pkScript script.vtxoScript ≠ offer.swapPkScript then none
    else
      let functionByName (name : String) := script.compiled.find? (·.name = name)
      some ⟨(functionByName "cancel").map (·.leafScript),
        (functionByName "fulfill").map (·.leafScript)⟩

def classifyLeaf (leaves : Leaves) (leaf : Bytes) : Option SpendKind :=
  let spent := scriptFromTapLeafScript leaf
  if leaves.cancel = some spent then some .cancelled
  else if leaves.fulfill = some spent then some .fulfilled
  else none

def classifySpend (offer : Offer) (serverPubkey : Bytes) (spendTx : SpendTx) (deposit : Deposit) :
    SpendKind :=
  match offerLeaves L offer serverPubkey with
  | none => .indeterminate
  | some leaves =>
    let taken := (spendTx.inputs.filter (·.takes deposit)).flatMap (·.tapLeafScript)
    (taken.findSome? (classifyLeaf leaves)).getD .indeterminate

/-- Both halves of a spend, the checkpoint first. -/
def spendTxidsOf (spentBy arkTxId : Option String) : List String :=
  [spentBy, arkTxId].reduceOption.filter (· ≠ "")

/-- The first definite answer. -/
def classifyDepositSpend (offer : Offer) (serverPubkey : Bytes) (spendTxs : List SpendTx)
    (deposit : Deposit) : SpendKind :=
  match spendTxs with
  | [] => .indeterminate
  | tx :: spendTxs => match classifySpend L offer serverPubkey tx deposit with
    | .indeterminate => classifyDepositSpend offer serverPubkey spendTxs deposit
    | kind => kind

/-- The record change that a classified spend implies. -/
def spendUpdate (swap : AssetSwap) (txid : String) (kind : SpendKind) (at' : ℤ) :
    Option AssetSwapChanges :=
  if TERMINAL.contains swap.status then none
  else match kind with
    | .indeterminate => none
    | .cancelled => some ⟨.cancelled, some txid, none⟩
    | .fulfilled => some ⟨.fulfilled, some txid, if at' ≠ 0 then some at' else none⟩

/-- The transaction takes the deposit through the covenant's cancel leaf. -/
def SpendTx.Cancels (tx : SpendTx) (offer : Offer) (serverPubkey : Bytes) (deposit : Deposit) :
    Prop :=
  ∃ leaves ∈ offerLeaves L offer serverPubkey, ∃ input ∈ tx.inputs, input.takes deposit = true ∧
    ∃ leaf ∈ input.tapLeafScript, leaves.cancel = some (scriptFromTapLeafScript leaf)

variable {L}

theorem classifySpend_cancelled {offer : Offer} {serverPubkey : Bytes} {tx : SpendTx}
    {deposit : Deposit} (h : classifySpend L offer serverPubkey tx deposit = .cancelled) :
    tx.Cancels L offer serverPubkey deposit := by
  unfold classifySpend at h
  split at h
  · cases h
  · rename_i leaves hleaves
    obtain ⟨kind, hkind, rfl⟩ : ∃ kind, ((tx.inputs.filter (·.takes deposit)).flatMap
        (·.tapLeafScript)).findSome? (classifyLeaf leaves) = some kind ∧ kind = .cancelled := by
      cases hfound : ((tx.inputs.filter (·.takes deposit)).flatMap
          (·.tapLeafScript)).findSome? (classifyLeaf leaves) with
      | none =>
        simp only [hfound] at h
        cases h
      | some kind => exact ⟨kind, rfl, by simpa [hfound] using h⟩
    obtain ⟨leaf, hleaf, hclass⟩ := List.exists_of_findSome?_eq_some hkind
    obtain ⟨input, hinput, hmem⟩ := List.mem_flatMap.mp hleaf
    obtain ⟨hin, htakes⟩ := List.mem_filter.mp hinput
    refine ⟨leaves, hleaves, input, hin, htakes, leaf, hmem, ?_⟩
    unfold classifyLeaf at hclass
    dsimp only at hclass
    split at hclass
    · assumption
    · split at hclass <;> cases hclass

theorem classifyDepositSpend_cancelled {offer : Offer} {serverPubkey : Bytes} {txs : List SpendTx}
    {deposit : Deposit} (h : classifyDepositSpend L offer serverPubkey txs deposit = .cancelled) :
    ∃ tx ∈ txs, tx.Cancels L offer serverPubkey deposit := by
  induction txs with
  | nil => cases h
  | cons tx txs ih =>
    unfold classifyDepositSpend at h
    split at h
    · obtain ⟨tx', htx', hcancels⟩ := ih h
      exact ⟨tx', List.mem_cons_of_mem tx htx', hcancels⟩
    · exact ⟨tx, List.mem_cons_self, classifySpend_cancelled h⟩

theorem spendUpdate_some {swap : AssetSwap} {txid : String} {kind : SpendKind} {at' : ℤ}
    {changes : AssetSwapChanges} (h : spendUpdate swap txid kind at' = some changes) :
    swap.status ∉ TERMINAL ∧ changes.spentTxid = some txid ∧ changes.status ∈ RETIRABLE ∧
      (changes.status = .cancelled → kind = .cancelled) := by
  unfold spendUpdate at h
  split at h
  · cases h
  · rename_i hterminal
    refine ⟨by simpa using hterminal, ?_⟩
    cases kind with
    | indeterminate => cases h
    | cancelled =>
      cases h
      exact ⟨rfl, by simp [RETIRABLE], fun _ ↦ rfl⟩
    | fulfilled =>
      cases h
      exact ⟨rfl, by simp [RETIRABLE], fun hc ↦ by cases hc⟩

end ArkadeSdk
