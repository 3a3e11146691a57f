import ArkadeSdk.Lib.JsCoercion
import ArkadeSdk.Swap.OnchainHtlc

/-! What a solver quotes, and the gates that a quote has to pass. A quote is parsed text: any of
its fields may be missing, or hold anything. -/

namespace ArkadeSdk.Rfq

open WireFormat JsNumber JsCoercion
open Json (Value)

def MIN_HEADROOM_SECONDS : ℤ := 90 * 60

def ONCHAIN_ORDER_MARGIN_SECONDS : ℤ := 2 * 60 * 60

def MAX_MIN_CONFIRMATIONS : ℤ := 6

def LOCKTIME_THRESHOLD : ℤ := 500000000

def ONCHAIN_SECONDS_PER_BLOCK : ℤ := 600

def MIN_CLAIM_WINDOW_SECONDS : ℤ := 30 * 60

inductive Piece
  | text (s : String)
  | value (v : Option Value)

/-- A thrown error: its stable reason, where it has one, and its text. -/
structure Refusal where
  reason : Option String
  text : List Piece

def refusal (text : List Piece) : Refusal := ⟨none, text⟩

def gateError (reason : String) (text : List Piece) : Refusal := ⟨some reason, text⟩

def addressMismatch : Refusal :=
  refusal [.text "solver lockup address does not match local derivation — refusing to fund"]

def Refusal.ofMessage (e : Message) : Refusal :=
  refusal (e.map fun
    | .text s => .text s
    | .value a => .value (some (.number a)))

def orThrow {α : Type} (x : Except Message α) : Except Refusal α := x.mapError Refusal.ofMessage

theorem orThrow_ok {α : Type} {x : Except Message α} {a : α} : orThrow x = .ok a ↔ x = .ok a := by
  cases x <;> simp [orThrow, Except.mapError]

def refuseIf (p : Prop) [Decidable p] (e : Refusal) : Except Refusal Unit :=
  if p then .error e else .ok ()

@[simp] theorem refuseIf_ok {p : Prop} [Decidable p] {e : Refusal} {u : Unit} :
    refuseIf p e = .ok u ↔ ¬p := by
  unfold refuseIf
  split <;> simp [*]

/-- `v ?? throw`. -/
def defined (v : Option Value) (e : Refusal) : Except Refusal Value :=
  match v with
  | some v => .ok v
  | none => .error e

theorem defined_ok {v : Option Value} {e : Refusal} {w : Value} :
    defined v e = .ok w ↔ v = some w := by
  cases v <;> simp [defined]

/-- `v === a`. -/
def strictlyEquals (v : Option Value) (a : Number) : Bool :=
  match v with
  | some (.number b) => b = a && a ≠ .nan
  | _ => false

theorem strictlyEquals_iff {v : Option Value} {a : Number} :
    strictlyEquals v a = true ↔ v = some (.number a) ∧ a ≠ .nan := by
  unfold strictlyEquals
  split
  · rename_i b
    simp
  · rename_i hne
    simp only [Bool.false_eq_true, false_iff, not_and]
    rintro rfl
    exact absurd rfl (hne a)

/-- `v < w`, where one of the two is a number. -/
def lessThan (v w : Option Value) : Except Refusal Bool := do
  let a ← orThrow (toNumber v)
  let b ← orThrow (toNumber w)
  return a.lt b

theorem lessThan_ok {v w : Option Value} {r : Bool} :
    lessThan v w = .ok r ↔ ∃ a, toNumber v = .ok a ∧ ∃ b, toNumber w = .ok b ∧ a.lt b = r := by
  simp only [lessThan, bind_ok, orThrow_ok, pure_ok]

def seconds (z : ℤ) : Option Value := some (.number (.ofInt z))

/-- `v - z` on whole seconds. -/
def minus (v : Option Value) (z : ℤ) : Except Refusal Number := do
  let a ← orThrow (toNumber v)
  return a.add (.ofInt (-z))

def isFiniteNumber : Option Value → Bool
  | some (.number a) => a.isFinite
  | _ => false

/-- `Number.isInteger(v)`. -/
def asInteger : Option Value → Option ℤ
  | some (.number (.finite q)) => if q.den = 1 then some q.num else none
  | _ => none

theorem asInteger_eq_some {v : Option Value} {z : ℤ} (h : asInteger v = some z) :
    v = seconds z := by
  unfold asInteger at h
  split at h
  · rename_i q
    split at h
    · rename_i hq
      cases h
      simp [seconds, Number.ofInt, (Rat.den_eq_one_iff q).mp hq]
    · cases h
  · cases h

/-- Undefined passes: absence is checked apart. -/
def assertFinite (value : Option Value) (reason label : String) : Except Refusal Unit :=
  refuseIf (value.isSome ∧ isFiniteNumber value = false)
    (gateError reason [.text (label ++ " is not a finite number ("), .value value, .text ")"])

abbrev RfqQuote := List (String × Value)

namespace RfqQuote

variable (quote : RfqQuote)

def field (k : String) : Option Value := quote.lookup k

def from_amount : Option Value := quote.field "from_amount"

def to_amount : Option Value := quote.field "to_amount"

def solver_pubkey : Option Value := quote.field "solver_pubkey"

def valid_until : Option Value := quote.field "valid_until"

def refund_locktime : Option Value := quote.field "refund_locktime"

/-- `(quote.profile ?? {})[k]`. -/
def profile (k : String) : Option Value := (quote.field "profile").bind (·.field k)

end RfqQuote

inductive AmountSide
  | fromSide
  | toSide
  deriving DecidableEq

def RfqQuote.amount (quote : RfqQuote) : AmountSide → Option Value
  | .fromSide => quote.from_amount
  | .toSide => quote.to_amount

def AmountSide.field : AmountSide → String
  | .fromSide => "from_amount"
  | .toSide => "to_amount"

def verifyLockupAddress (quote : RfqQuote) (derivedAddress : String) : Except Refusal Unit :=
  match quote.profile "lockup_address" with
  | some (.string quoted) => refuseIf (derivedAddress ≠ quoted) addressMismatch
  | _ => .error addressMismatch

def assertQuotedAmount (quote : RfqQuote) (amountSide : AmountSide) (amount : Number) :
    Except Refusal Unit := do
  let quoted := quote.amount amountSide
  refuseIf (strictlyEquals quoted amount = false) (refusal
    [.text ("quote " ++ amountSide.field ++ " "), .value quoted, .text " does not match the requested ",
      .value (some (.number amount)), .text " — not this trade's quote"])
  let negativeSpread ← lessThan quote.from_amount quote.to_amount
  refuseIf (negativeSpread = true)
    (refusal [.text "quote pays out more than it takes in — not a quote to fund"])

inductive Direction
  | send
  | receive
  deriving DecidableEq

/-- The L1 half of a quote to fund. -/
structure OnchainGate where
  htlcLocktime : ℤ
  minConfirmations : Value
  direction : Direction

/-- The part of `assertFundable` about the L1 half. -/
def assertOnchainFundable (quote : RfqQuote) (now : ℤ) (onchain : OnchainGate) :
    Except Refusal Unit :=
  match asInteger (some onchain.minConfirmations) with
  | none => .error (gateError "confirmations_out_of_range" range)
  | some minConfirmations => do
    refuseIf (minConfirmations < 1 ∨ MAX_MIN_CONFIRMATIONS < minConfirmations)
      (gateError "confirmations_out_of_range" range)
    let needed := minConfirmations * ONCHAIN_SECONDS_PER_BLOCK + ONCHAIN_CLAIM_MARGIN_SECONDS
    refuseIf (onchain.htlcLocktime - now ≤ needed) (gateError "claim_window_too_short"
      [.text "L1 HTLC locktime leaves no safe claim window"])
    let order := gateError "timelock_order"
      [.text "L1 HTLC locktime + margin must fall before the Arkade refund locktime"]
    match onchain.direction with
    | .receive => return ()
    | .send =>
      let _ ← defined quote.refund_locktime order
      let late ← lessThan quote.refund_locktime
        (seconds (onchain.htlcLocktime + ONCHAIN_ORDER_MARGIN_SECONDS))
      refuseIf (late = true) order
where
  range : List Piece :=
    [.text "min_confirmations must be 1..6, got ", .value (some onchain.minConfirmations)]

def assertFundable (quote : RfqQuote) (invoiceExpiresAt : Option Number) (now : ℤ)
    (onchain : Option OnchainGate) : Except Refusal Unit := do
  refuseIf (∃ expiresAt ∈ invoiceExpiresAt, expiresAt.le (.ofInt now))
    (gateError "invoice_expired" [.text "invoice expired"])
  let expiry ← orThrow (toNumber quote.valid_until)
  refuseIf (expiry.le (.ofInt now) = true)
    (gateError "quote_expired" [.text "quote expired — request a fresh one"])
  match quote.refund_locktime with
  | none => pure ()
  | some refundLocktime => do
    let headroom ← minus (some refundLocktime) now
    refuseIf (headroom.lt (.ofInt MIN_HEADROOM_SECONDS) = true)
      (gateError "insufficient_headroom" [.text "refund deadline headroom below 90 minutes"])
  match onchain with
  | none => return ()
  | some onchain => assertOnchainFundable quote now onchain

/-- What a trader's own decoder reads from an invoice. -/
structure InvoiceFacts where
  raw : String
  paymentHash : String
  amountSats : Number
  expiresAt : Number

/-- `Math.min`. -/
def earlier (a b : Number) : Number :=
  if a = .nan ∨ b = .nan then .nan else if b.lt a then b else a

def verifyReceiveInvoice (decoded : Except String InvoiceFacts) (paymentHash : String)
    (quote : RfqQuote) : Except Refusal Number :=
  match decoded with
  | .error error => .error (gateError "invoice_undecodable"
      [.text ("solver sent an undecodable invoice: " ++ error)])
  | .ok decoded => do
    assertFinite (some (.number decoded.expiresAt)) "invoice_undecodable"
      "the decoded invoice expiry"
    assertFinite quote.valid_until "quote_malformed" "quote valid_until"
    refuseIf (decoded.paymentHash ≠ paymentHash) (gateError "invoice_hash_mismatch"
      [.text ("solver's invoice pays " ++ decoded.paymentHash ++ ", not this swap's " ++ paymentHash)])
    refuseIf (decoded.amountSats.le (.ofInt 0) = true)
      (gateError "invoice_amount_mismatch" [.text "solver's invoice names no amount"])
    refuseIf (strictlyEquals quote.from_amount decoded.amountSats = false)
      (gateError "invoice_amount_mismatch"
        [.text "solver's invoice asks for ", .value (some (.number decoded.amountSats)),
          .text ", not the quoted from_amount ", .value quote.from_amount])
    let validUntil ← orThrow (toNumber quote.valid_until)
    return earlier decoded.expiresAt validUntil

def assertReceivable (quote : RfqQuote) (payDeadline : Number) (now : ℤ)
    (maxPayAmount : Option Number) : Except Refusal Unit := do
  assertFinite (some (.number payDeadline)) "quote_malformed" "payDeadline"
  assertFinite (maxPayAmount.map .number) "invalid_gate_input" "maxPayAmount"
  refuseIf (payDeadline.le (.ofInt now) = true) (gateError "quote_expired"
    [.text "quote or invoice already expired — request a fresh one"])
  let refundLocktime ← defined quote.refund_locktime
    (gateError "missing_refund_locktime" [.text "receive quote carries no refund_locktime"])
  assertFinite (some refundLocktime) "quote_malformed" "quote refund_locktime"
  let opens ← orThrow (toNumber (some refundLocktime))
  refuseIf ((opens.add (negate payDeadline)).lt (.ofInt MIN_CLAIM_WINDOW_SECONDS) = true)
    (gateError "claim_window_too_short"
      [.text "a payment at the deadline would leave under 1800s to claim before the solver's refund opens"])
  match maxPayAmount with
  | none => return ()
  | some ceiling =>
    let tooHigh ← lessThan (some (.number ceiling)) quote.from_amount
    refuseIf (tooHigh = true) (gateError "price_too_high"
      [.text "quote asks ", .value quote.from_amount, .text " sats, above the ",
        .value (some (.number ceiling)), .text " ceiling"])

end ArkadeSdk.Rfq
