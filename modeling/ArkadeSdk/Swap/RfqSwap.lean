import ArkadeSdk.Lib.HexCodec
import ArkadeSdk.Lib.WireFormat

/-! The record of a live swap, and what it says about itself. -/

namespace ArkadeSdk.Rfq

open WireFormat JsNumber HexCodec

inductive RfqSwapState
  | pending
  | claimable
  | claimed
  | needs_counterparty
  | settled
  | refunded
  | failed
  deriving DecidableEq, Repr

def RFQ_SWAP_TERMINAL_STATES : List RfqSwapState := [.settled, .refunded, .failed]

def isRfqSwapTerminal (state : RfqSwapState) : Bool := RFQ_SWAP_TERMINAL_STATES.contains state

inductive RfqSwapKind
  | lightning_send
  | onchain_send
  | lightning_receive
  deriving DecidableEq, Repr

structure Outpoint where
  txid : String
  vout : ℕ
  deriving DecidableEq, Repr

structure RfqSwapLockup where
  pkScript : Bytes
  address : String
  deriving DecidableEq

structure OnchainHtlc where
  pkScript : Bytes
  paymentHash : String
  refundLocktime : ℤ
  deriving DecidableEq

/-- What a swap agreed on. Nothing writes these once the swap exists, and those that belong to
another kind are never read. -/
structure RfqSwapTerms where
  rfqId : String
  kind : RfqSwapKind
  lockupPkScript : Bytes
  lockup : Option RfqSwapLockup
  paymentHash : String
  refundLocktime : ℤ
  createdAt : ℤ
  /-- On an onchain send. -/
  htlc : OnchainHtlc
  minConfirmations : ℤ
  /-- On a lightning receive. -/
  expectedAmount : Number
  deriving DecidableEq

structure RfqSwap extends RfqSwapTerms where
  state : RfqSwapState
  updatedAt : ℤ
  refundArkTxid : Option String
  lockupSpendArkTxids : Option (List String)
  failure : Option Message
  blockedReason : Option Message
  funding : Option Outpoint
  claimTxid : Option String
  claimArkTxid : Option String
  deriving DecidableEq

/-- A text that is there and not empty. -/
def truthy (s : Option String) : Bool := s.any (· ≠ "")

def traderClaimTxid (swap : RfqSwap) : Option String :=
  match swap.kind with
  | .onchain_send => swap.claimTxid
  | .lightning_receive => swap.claimArkTxid
  | .lightning_send => none

def isPayoutDecided (swap : RfqSwap) : Bool :=
  swap.state = .settled || swap.state = .refunded ||
    swap.kind = .onchain_send && swap.claimTxid.isSome

structure RfqSwapOutcome where
  state : RfqSwapState
  txid : Option String
  deriving DecidableEq

def outcomeOf (swap : RfqSwap) : RfqSwapOutcome :=
  let lostReceive := swap.kind = .lightning_receive ∧ swap.state = .refunded
  ⟨swap.state, if lostReceive then swap.refundArkTxid
    else (traderClaimTxid swap).or swap.refundArkTxid⟩

def RfqSwapKind.name : RfqSwapKind → String
  | .lightning_send => "lightning_send"
  | .onchain_send => "onchain_send"
  | .lightning_receive => "lightning_receive"

/-- The half of a record that the caller wrote: its kind, and the script that its lockup address
decodes to. -/
structure RfqSwapOrigin where
  kind : RfqSwapKind
  lockupScript : Except String Bytes

def assertSameSwap (origin : RfqSwapOrigin) (swap : RfqSwap) : Except Message Unit :=
  if origin.kind ≠ swap.kind then
    .error (message ("rfq swap record is a " ++ origin.kind.name ++ " origin paired with a " ++
      swap.kind.name ++ " swap"))
  else match origin.lockupScript with
    | .error error => .error (message error)
    | .ok funded => rejectIf (funded ≠ swap.lockupPkScript)
        (message ("rfq swap record's lockup address holds " ++ base16.encode funded ++
          ", but the swap watches " ++ base16.encode swap.lockupPkScript ++
          " — these are not the same swap"))

structure LockupVtxo where
  txid : String
  vout : ℕ
  value : Number
  recoverable : Bool
  deriving DecidableEq

def LockupVtxo.outpoint (vtxo : LockupVtxo) : Outpoint := ⟨vtxo.txid, vtxo.vout⟩

/-- `vtxos.reduce((sum, vtxo) => sum + vtxo.value, 0)`. -/
def lockedAmount (vtxos : List LockupVtxo) : Number :=
  vtxos.foldl (fun sum vtxo ↦ sum.add vtxo.value) (.ofInt 0)

/-- What chain data says became of a lockup. The spends name their ark transactions, where the
indexer knew them. -/
inductive LockupFate
  | isOpen
  | claimed (spends : List (Option String))
  | returned (spends : List (Option String))
  | unknown
  deriving DecidableEq

def LockupFate.verdict : LockupFate → Option RfqSwapState
  | .claimed _ => some .settled
  | .returned _ => some .refunded
  | .isOpen | .unknown => none

def LockupFate.spends : LockupFate → List (Option String)
  | .claimed spends | .returned spends => spends
  | .isOpen | .unknown => []

theorem LockupFate.isTerminal_verdict {fate : LockupFate} {state : RfqSwapState}
    (h : fate.verdict = some state) : isRfqSwapTerminal state = true := by
  cases fate <;> cases h <;> rfl

end ArkadeSdk.Rfq
