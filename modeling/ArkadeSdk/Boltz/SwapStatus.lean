import Mathlib.Data.Int.Notation
import Mathlib.Data.List.Basic

/-! Swaps with Boltz: their kinds, and what a status means for each. -/

namespace ArkadeSdk.SwapManager

abbrev SwapId := String

inductive BoltzSwapStatus
  | invoiceExpired
  | invoiceFailedToPay
  | invoicePaid
  | invoicePending
  | invoiceSet
  | invoiceSettled
  | swapCreated
  | swapExpired
  | transactionClaimPending
  | transactionClaimed
  | transactionConfirmed
  | transactionFailed
  | transactionLockupFailed
  | transactionMempool
  | transactionRefunded
  | transactionServerMempool
  | transactionServerConfirmed
  deriving DecidableEq

inductive Chain
  | ark
  | btc
  deriving DecidableEq

/-- Restored swaps have an empty preimage or invoice. A chain swap goes from `request.from` to
`request.to`. -/
inductive SwapKind
  | reverse (preimage : String)
  | submarine (invoice : String)
  | chain (source target : Chain)
  deriving DecidableEq

/-- `nextRetryAt` is `none` where the stored number is not finite. -/
structure RefundRetryState where
  pending : Bool
  nextRetryAt : Option ℤ
  deriving DecidableEq

structure BoltzSwap where
  id : SwapId
  kind : SwapKind
  status : BoltzSwapStatus
  refundRetry : Option RefundRetryState
  claimTxid : Option String
  deriving DecidableEq

def isSubmarineFinalStatus (status : BoltzSwapStatus) : Bool :=
  status ∈ [.invoiceFailedToPay, .transactionClaimed, .swapExpired]

def isSubmarineRefundableStatus (status : BoltzSwapStatus) : Bool :=
  status ∈ [.invoiceFailedToPay, .transactionLockupFailed, .swapExpired]

def isReverseFinalStatus (status : BoltzSwapStatus) : Bool :=
  status ∈ [.transactionRefunded, .transactionFailed, .invoiceSettled, .invoiceExpired,
    .swapExpired]

def isReverseClaimableStatus (status : BoltzSwapStatus) : Bool :=
  status ∈ [.transactionMempool, .transactionConfirmed]

def isChainClaimableStatus (status : BoltzSwapStatus) : Bool :=
  status ∈ [.transactionServerMempool, .transactionServerConfirmed]

def isChainFinalStatus (status : BoltzSwapStatus) : Bool :=
  status ∈ [.transactionRefunded, .transactionFailed, .transactionClaimed, .swapExpired]

def isChainRefundableStatus (status : BoltzSwapStatus) : Bool := status = .swapExpired

def isChainSignableStatus (status : BoltzSwapStatus) : Bool := status = .transactionClaimPending

def SwapKind.isFinalStatus : SwapKind → BoltzSwapStatus → Bool
  | .reverse _, status => isReverseFinalStatus status
  | .submarine _, status => isSubmarineFinalStatus status
  | .chain _ _, status => isChainFinalStatus status

namespace BoltzSwap

def isFinalStatus (swap : BoltzSwap) : Bool := swap.kind.isFinalStatus swap.status

def isRefundRetryableSwap (swap : BoltzSwap) : Bool :=
  match swap.kind with
  | .reverse _ => false
  | .submarine _ | .chain _ _ => true

def hasPendingRefundRetry (swap : BoltzSwap) : Bool :=
  swap.isRefundRetryableSwap && swap.refundRetry.any fun retry ↦
    retry.pending && retry.nextRetryAt.isSome

def shouldMonitorOnStart (enableAutoActions : Bool) (swap : BoltzSwap) : Bool :=
  !swap.isFinalStatus || enableAutoActions && swap.hasPendingRefundRetry

end BoltzSwap

inductive Callback
  | claim
  | refund
  | claimArk
  | claimBtc
  | refundArk
  | signServerClaim
  deriving DecidableEq

/-- Whether the manager acts by itself, and whether it was given `signServerClaim`. The other
callbacks are always there. -/
structure Config where
  enableAutoActions : Bool
  signServerClaim : Bool

/-- The callback of `signServerClaimIfSignable`, if it comes to one. -/
def signing (config : Config) (swap : BoltzSwap) : Option Callback :=
  match swap.kind with
  | .chain _ .ark =>
    if isChainSignableStatus swap.status && config.signServerClaim then some .signServerClaim
    else none
  | _ => none

/-- The callback that `executeAutonomousAction` calls first, if any. -/
def autonomousAction (config : Config) (swap : BoltzSwap) : Option Callback :=
  match swap.kind with
  | .reverse preimage =>
    if preimage ≠ "" ∧ isReverseClaimableStatus swap.status then some .claim else none
  | .submarine invoice =>
    if invoice ≠ "" ∧ isSubmarineRefundableStatus swap.status then some .refund else none
  | .chain source target =>
    if isChainClaimableStatus swap.status then
      match target with
      | .ark => some .claimArk
      | .btc => some .claimBtc
    else if isChainRefundableStatus swap.status then
      match source with
      | .ark => some .refundArk
      | .btc => none
    else signing config swap

/-- The swaps that a start takes up again. -/
def isResumable (swap : BoltzSwap) : Bool :=
  match swap.kind with
  | .reverse _ => isReverseClaimableStatus swap.status
  | .submarine _ => isSubmarineRefundableStatus swap.status
  | .chain _ target => isChainClaimableStatus swap.status || isChainRefundableStatus swap.status ||
      target = .ark && isChainSignableStatus swap.status

def REFUND_RETRY_DELAY_MS : ℤ := 60000
def MAX_REFUND_RETRY_DELAY_MS : ℤ := 3600000

/-- `retryAt` is in seconds. -/
def refundRetryDelayMs (retryAt : Option ℤ) (now : ℤ) : ℤ :=
  match retryAt with
  | none => REFUND_RETRY_DELAY_MS
  | some retryAt => min (max (retryAt * 1000 - now) REFUND_RETRY_DELAY_MS) MAX_REFUND_RETRY_DELAY_MS

def persistedRefundRetryDelayMs (nextRetryAt now : ℤ) : ℤ :=
  min (max (nextRetryAt * 1000 - now) 0) MAX_REFUND_RETRY_DELAY_MS

/-- In seconds, rounded up. -/
def nextRefundRetryAt (delayMs now : ℤ) : ℤ := (now + delayMs + 999) / 1000

theorem refundRetryDelayMs_bounds (retryAt : Option ℤ) (now : ℤ) :
    0 ≤ refundRetryDelayMs retryAt now ∧
      refundRetryDelayMs retryAt now ≤ MAX_REFUND_RETRY_DELAY_MS := by
  have hmin : REFUND_RETRY_DELAY_MS ≤ MAX_REFUND_RETRY_DELAY_MS := by decide
  have hpos : 0 ≤ REFUND_RETRY_DELAY_MS := by decide
  cases retryAt with
  | none => exact ⟨hpos, hmin⟩
  | some retryAt =>
    simp only [refundRetryDelayMs]
    omega

theorem persistedRefundRetryDelayMs_bounds (nextRetryAt now : ℤ) :
    0 ≤ persistedRefundRetryDelayMs nextRetryAt now ∧
      persistedRefundRetryDelayMs nextRetryAt now ≤ MAX_REFUND_RETRY_DELAY_MS := by
  have hpos : 0 ≤ MAX_REFUND_RETRY_DELAY_MS := by decide
  simp only [persistedRefundRetryDelayMs]
  omega

end ArkadeSdk.SwapManager
