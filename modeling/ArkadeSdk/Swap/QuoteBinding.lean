import ArkadeSdk.Swap.Corridors

/-! Which quotes a corridor lets through: prices for the trade that was asked for, and what else. -/

namespace ArkadeSdk.Rfq

open WireFormat JsNumber JsCoercion BtcScript HexCodec
open Json (Value)

/-- `v >= w`, where one of the two is a number. -/
def AtLeast (v w : Option Value) : Prop :=
  ∃ a b, toNumber v = .ok a ∧ toNumber w = .ok b ∧ b.le a = true

/-- A value that a comparison does not answer false on by itself. -/
def Comparable (v : Option Value) : Prop := ∃ a, toNumber v = .ok a ∧ a ≠ .nan

theorem le_of_not_lt {a b : Number} (h : a.lt b = false) (ha : a ≠ .nan) (hb : b ≠ .nan) :
    b.le a = true := by
  cases a <;> cases b <;> simp_all [Number.lt, Number.le]

theorem not_lt_of_le {a b : Number} (h : b.le a = true) : a.lt b = false := by
  cases a <;> cases b <;> simp_all [Number.lt, Number.le]

theorem ne_nan_of_le {a b : Number} (h : b.le a = true) : a ≠ .nan ∧ b ≠ .nan := by
  cases a <;> cases b <;> simp_all [Number.le]

theorem atLeast_iff {v w : Option Value} (h : lessThan v w = .ok false) :
    AtLeast v w ↔ Comparable v ∧ Comparable w := by
  obtain ⟨a, ha, b, hb, hlt⟩ := lessThan_ok.mp h
  constructor
  · rintro ⟨a', b', ha', hb', hle⟩
    obtain ⟨hna, hnb⟩ := ne_nan_of_le hle
    exact ⟨⟨a', ha', hna⟩, ⟨b', hb', hnb⟩⟩
  · rintro ⟨⟨a', ha', hna⟩, ⟨b', hb', hnb⟩⟩
    rw [ha] at ha'
    rw [hb] at hb'
    cases ha'
    cases hb'
    exact ⟨a, b, ha, hb, le_of_not_lt hlt hna hnb⟩

def AmountSide.other : AmountSide → AmountSide
  | .fromSide => .toSide
  | .toSide => .fromSide

/-- A quote for the trade that was asked for: the fixed side is what was fixed, and it does not
pay out more than it takes in. -/
structure BindsTrade (quote : RfqQuote) (amountSide : AmountSide) (amount : Number) : Prop where
  fixed : strictlyEquals (quote.amount amountSide) amount = true
  spread : AtLeast quote.from_amount quote.to_amount

theorem comparable_sides {quote : RfqQuote} {amountSide : AmountSide} {amount : Number}
    (hfixed : strictlyEquals (quote.amount amountSide) amount = true) :
    Comparable quote.from_amount ∧ Comparable quote.to_amount ↔
      Comparable (quote.amount amountSide.other) := by
  have hc : Comparable (quote.amount amountSide) := by
    obtain ⟨hamount, hne⟩ := strictlyEquals_iff.mp hfixed
    exact ⟨amount, by rw [hamount, toNumber_number], hne⟩
  cases amountSide with
  | fromSide => exact and_iff_right hc
  | toSide => exact and_iff_left hc

theorem assertQuotedAmount_ok {quote : RfqQuote} {amountSide : AmountSide} {amount : Number} :
    assertQuotedAmount quote amountSide amount = .ok () ↔
      strictlyEquals (quote.amount amountSide) amount = true ∧
        lessThan quote.from_amount quote.to_amount = .ok false := by
  simp only [assertQuotedAmount, bind_ok, refuseIf_ok, exists_const, Bool.not_eq_false,
    Bool.not_eq_true]
  exact and_congr_right fun _ ↦ ⟨fun ⟨_, h, he⟩ ↦ he ▸ h, fun h ↦ ⟨false, h, rfl⟩⟩

theorem bindsTrade_iff {quote : RfqQuote} {amountSide : AmountSide} {amount : Number}
    (hfixed : strictlyEquals (quote.amount amountSide) amount = true)
    (hspread : lessThan quote.from_amount quote.to_amount = .ok false) :
    BindsTrade quote amountSide amount ↔ Comparable (quote.amount amountSide.other) := by
  rw [← comparable_sides hfixed, ← atLeast_iff hspread]
  exact ⟨BindsTrade.spread, fun h ↦ ⟨hfixed, h⟩⟩

/-- A quote binds the trade exactly when the check of the receive corridors passes on it, and
the side that the request left open is an amount at all. -/
theorem bindsTrade_iff_checked {quote : RfqQuote} {amountSide : AmountSide} {amount : Number} :
    BindsTrade quote amountSide amount ↔
      assertQuotedAmount quote amountSide amount = .ok () ∧
        Comparable (quote.amount amountSide.other) := by
  rw [assertQuotedAmount_ok]
  constructor
  · rintro ⟨hfixed, a, b, ha, hb, hle⟩
    have hspread : lessThan quote.from_amount quote.to_amount = .ok false :=
      lessThan_ok.mpr ⟨a, ha, b, hb, not_lt_of_le hle⟩
    exact ⟨⟨hfixed, hspread⟩, (bindsTrade_iff hfixed hspread).mp ⟨hfixed, a, b, ha, hb, hle⟩⟩
  · rintro ⟨⟨hfixed, hspread⟩, hc⟩
    exact (bindsTrade_iff hfixed hspread).mpr hc

variable {L : ContractLibraries} {trader : Trader} {transport : RfqTransport}

/-- What a corridor that returned has bound. The three that check the fixed side bind the trade
as soon as the other side is an amount. An onchain send binds it when its siblings' check would
have passed. -/
theorem corridors_bind_trade :
    (∀ invoice r, requestLightningSend L trader transport invoice = .ok r →
      (r.fundAmount = r.quote.from_amount ∧ BindsTrade r.quote .toSide invoice.amountSats ↔
        Comparable r.quote.from_amount)) ∧
    (∀ amount amountSide payoutPubkey r,
      requestOnchainSend L trader transport amount amountSide payoutPubkey = .ok r →
      (r.fundAmount = r.quote.from_amount ∧ BindsTrade r.quote amountSide amount ↔
        assertQuotedAmount r.quote amountSide amount = .ok () ∧
          Comparable (r.quote.amount amountSide.other))) ∧
    (∀ amount amountSide decodeInvoice maxPayAmount r,
      requestLightningReceive L trader transport amount amountSide decodeInvoice maxPayAmount =
        .ok r →
      (r.payAmount = r.quote.from_amount ∧ r.expectedAmount = r.quote.to_amount ∧
          BindsTrade r.quote amountSide amount ↔
        Comparable (r.quote.amount amountSide.other))) ∧
    (∀ amount amountSide refundPubkey r,
      requestOnchainReceive L trader transport amount amountSide refundPubkey = .ok r →
      (r.fundAmount = r.quote.from_amount ∧ r.expectedAmount = r.quote.to_amount ∧
          BindsTrade r.quote amountSide amount ↔
        Comparable (r.quote.amount amountSide.other))) := by
  refine ⟨fun invoice r h ↦ ?_, fun amount amountSide payoutPubkey r h ↦ ?_,
    fun amount amountSide decodeInvoice maxPayAmount r h ↦ ?_,
    fun amount amountSide refundPubkey r h ↦ ?_⟩
  · obtain ⟨-, hfund, hto, hspread, -, -⟩ := requestLightningSend_ok h
    rw [and_iff_right hfund]
    exact @bindsTrade_iff _ .toSide _ hto hspread
  · obtain ⟨-, hfund, -⟩ := requestOnchainSend_ok h
    rw [and_iff_right hfund]
    exact bindsTrade_iff_checked
  · obtain ⟨-, hpay, hexpected, hamount, -, -⟩ := requestLightningReceive_ok h
    obtain ⟨hfixed, hspread⟩ := assertQuotedAmount_ok.mp hamount
    rw [and_iff_right hpay, and_iff_right hexpected]
    exact bindsTrade_iff hfixed hspread
  · obtain ⟨-, hfund, hexpected, hamount⟩ := requestOnchainReceive_ok h
    obtain ⟨hfixed, hspread⟩ := assertQuotedAmount_ok.mp hamount
    rw [and_iff_right hfund, and_iff_right hexpected]
    exact bindsTrade_iff hfixed hspread

/-- Thirty-two equal bytes in hexadecimal. -/
def sampleHex (b : UInt8) : String := base16.encode (List.replicate 32 b)

def sampleScript : Bytes := 0x51 :: 0x20 :: List.replicate 32 7

def sampleLibraries : ContractLibraries where
  ripemd160 b := b.take 20
  vhtlcPkScript _ := .ok sampleScript
  arkAddress _ _ _ := "tark1lockup"
  p2tr _ _ _ := .ok ("bcrt1htlc", sampleScript)

def sampleTrader : Trader where
  rfqId := "a1"
  pubkey := List.replicate 32 2
  paymentHash := sampleHex 9
  address := "tark1trader"
  addressPkScript := .ok sampleScript
  signerPubkey := .ok (List.replicate 32 3)
  emulatorPubkey := .ok (List.replicate 32 4)
  unilateralExitDelay := .finite 512
  hrp := "tark"
  network := "regtest"
  claimPacket := .ok "sealed"
  now := 1700000000
  registerLockup _ _ := .ok ()

/-- A quote that passes every gate of an onchain send, with whatever expiry and amounts. -/
def sampleQuote (validUntil : List (String × Value)) (fromAmount toAmount : ℤ) : RfqQuote :=
  validUntil ++ [("from_amount", Value.number (.ofInt fromAmount)),
    ("to_amount", .number (.ofInt toAmount)), ("solver_pubkey", .string (sampleHex 5)),
    ("refund_locktime", .number (.ofInt 1700100000)),
    ("profile", .object [("lockup_address", .string "tark1lockup"),
      ("receiver_pk_script", .string (base16.encode sampleScript)),
      ("htlc_pubkey", .string (sampleHex 6)), ("htlc_locktime", .number (.ofInt 1700020000)),
      ("htlc_address", .string "bcrt1htlc"), ("min_confirmations", .number (.ofInt 1))])]

def cheapQuote : RfqQuote :=
  sampleQuote [("valid_until", .number (.ofInt 1700000600))] 1000 900

theorem cheapQuote_returned : ∃ r, requestOnchainSend sampleLibraries sampleTrader
    (fun _ ↦ .ok cheapQuote) (.ofInt 50000) .fromSide (List.replicate 32 8) = .ok r := by
  have h : (requestOnchainSend sampleLibraries sampleTrader (fun _ ↦ .ok cheapQuote) (.ofInt 50000)
      .fromSide (List.replicate 32 8)).isOk = true := by decide +kernel
  cases hr : requestOnchainSend sampleLibraries sampleTrader (fun _ ↦ .ok cheapQuote)
      (.ofInt 50000) .fromSide (List.replicate 32 8) with
  | error e =>
    rw [hr] at h
    cases h
  | ok r => exact ⟨r, rfl⟩

theorem corridors_bind_trade_sample : ∃ r, requestOnchainSend sampleLibraries sampleTrader
    (fun _ ↦ .ok cheapQuote) (.ofInt 50000) .fromSide (List.replicate 32 8) = .ok r ∧
      (r.fundAmount = r.quote.from_amount ∧ BindsTrade r.quote .fromSide (.ofInt 50000) ↔
        assertQuotedAmount r.quote .fromSide (.ofInt 50000) = .ok () ∧
          Comparable r.quote.to_amount) := by
  obtain ⟨r, hr⟩ := cheapQuote_returned
  exact ⟨r, hr, corridors_bind_trade.2.1 (.ofInt 50000) .fromSide (List.replicate 32 8) r hr⟩

/-- The trader asks to send 50000 sats and is handed a lockup to fund with 1000. -/
theorem onchainSend_other_trade : ∃ r, requestOnchainSend sampleLibraries sampleTrader
    (fun _ ↦ .ok cheapQuote) (.ofInt 50000) .fromSide (List.replicate 32 8) = .ok r ∧
      r.quote = cheapQuote ∧ ¬BindsTrade r.quote .fromSide (.ofInt 50000) := by
  obtain ⟨r, hr⟩ := cheapQuote_returned
  have hquote : r.quote = cheapQuote := (Except.ok.inj (requestOnchainSend_ok hr).1).symm
  refine ⟨r, hr, hquote, fun h ↦ ?_⟩
  have hfixed := h.fixed
  rw [hquote] at hfixed
  exact absurd hfixed (by decide)

end ArkadeSdk.Rfq
