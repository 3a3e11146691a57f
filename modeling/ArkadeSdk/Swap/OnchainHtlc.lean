import ArkadeSdk.Swap.RfqSwap

/-! The L1 half of an onchain send: where the HTLC stands, and the claim that reveals the
preimage. -/

namespace ArkadeSdk.Rfq

open WireFormat JsNumber

def ONCHAIN_CLAIM_MARGIN_SECONDS : ℤ := 90 * 60

def ONCHAIN_DUST_SATS : ℤ := 330

structure ChainUtxo where
  txid : String
  vout : ℕ
  amount : ℤ
  confirmations : ℤ
  deriving DecidableEq

/-- A spend of the fill, as read: its id, and the witness item that hashes to the payment hash. -/
structure SpendingTx where
  txid : String
  preimage : Option Bytes
  deriving DecidableEq

/-- What the chain source answers in one classification. -/
structure ChainView where
  utxos : List ChainUtxo
  spending : Option SpendingTx
  mtp : ℤ
  deriving DecidableEq

inductive OnchainHtlcPhase
  | unfunded
  | awaiting_confirmations (utxo : ChainUtxo)
  | claimable (utxo : ChainUtxo)
  | refundable (utxo : ChainUtxo)
  | claimed (txid : String) (preimage : Bytes)
  | swept (txid : String)
  deriving DecidableEq

/-- The head of the outputs sorted by amount, the largest first. The comparator answers `-1` for
equal amounts either way round, so that of these the last listed comes first. -/
def largest : List ChainUtxo → Option ChainUtxo
  | [] => none
  | u :: us => match largest us with
    | none => some u
    | some v => if u.amount > v.amount then some u else some v

def classifyOnchainHtlc (chain : ChainView) (htlc : OnchainHtlc) (minConfirmations : ℤ)
    (funding : Option Outpoint) : OnchainHtlcPhase :=
  match largest chain.utxos with
  | none =>
    if funding.isNone then .unfunded
    else match chain.spending with
      | none => .unfunded
      | some spend => match spend.preimage with
        | some preimage => .claimed spend.txid preimage
        | none => .swept spend.txid
  | some best =>
    if best.confirmations < minConfirmations then .awaiting_confirmations best
    else if chain.mtp ≥ htlc.refundLocktime then .refundable best
    else .claimable best

/-- `"utxo" in phase`. -/
def OnchainHtlcPhase.utxo : OnchainHtlcPhase → Option ChainUtxo
  | .awaiting_confirmations utxo | .claimable utxo | .refundable utxo => some utxo
  | .unfunded | .claimed _ _ | .swept _ => none

inductive OnchainSendAction
  | wait
  | claim
  | claim_window_closed
  | claimed
  | swept
  deriving DecidableEq

def nextOnchainAction (phase : OnchainHtlcPhase) (htlcLocktime now : ℤ) : OnchainSendAction :=
  match phase with
  | .unfunded | .awaiting_confirmations _ => .wait
  | .claimed _ _ => .claimed
  | .swept _ => .swept
  | .refundable _ => .claim_window_closed
  | .claimable _ =>
    if htlcLocktime - now ≥ ONCHAIN_CLAIM_MARGIN_SECONDS then .claim else .claim_window_closed

theorem largest_mem {utxos : List ChainUtxo} {best : ChainUtxo} (h : largest utxos = some best) :
    best ∈ utxos := by
  induction utxos generalizing best with
  | nil => cases h
  | cons u us ih =>
    unfold largest at h
    split at h
    · obtain rfl := Option.some.inj h
      exact List.mem_cons_self
    · rename_i v hv
      split at h
      · obtain rfl := Option.some.inj h
        exact List.mem_cons_self
      · obtain rfl := Option.some.inj h
        exact List.mem_cons_of_mem u (ih hv)

theorem largest_eq_none {utxos : List ChainUtxo} : largest utxos = none ↔ utxos = [] := by
  cases utxos with
  | nil => simp [largest]
  | cons u us =>
    unfold largest
    split
    · simp
    · split <;> simp

theorem amount_le_largest {utxos : List ChainUtxo} {best u : ChainUtxo}
    (h : largest utxos = some best) (hu : u ∈ utxos) : u.amount ≤ best.amount := by
  induction utxos generalizing best with
  | nil => cases hu
  | cons v us ih =>
    unfold largest at h
    split at h
    · next hnone =>
      obtain rfl := largest_eq_none.mp hnone
      obtain rfl := Option.some.inj h
      rw [List.mem_singleton.mp hu]
    · next w hw =>
      split at h
      · next hlt =>
        obtain rfl := Option.some.inj h
        rcases List.mem_cons.mp hu with rfl | hu
        · exact le_rfl
        · exact (ih hw hu).trans hlt.le
      · next hle =>
        obtain rfl := Option.some.inj h
        rcases List.mem_cons.mp hu with rfl | hu
        · exact not_lt.mp hle
        · exact ih hw hu

theorem largest_concat {utxos : List ChainUtxo} {u : ChainUtxo}
    (h : ∀ v ∈ utxos, v.amount ≤ u.amount) : largest (utxos ++ [u]) = some u := by
  induction utxos with
  | nil => rfl
  | cons v us ih =>
    obtain ⟨hv, hus⟩ := List.forall_mem_cons.mp h
    rw [List.cons_append, largest, ih hus]
    exact if_neg (not_lt.mpr hv)

end ArkadeSdk.Rfq
