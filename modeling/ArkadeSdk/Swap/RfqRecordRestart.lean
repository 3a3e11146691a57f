import ArkadeSdk.Swap.OfferBatch
import ArkadeSdk.Swap.QuoteBinding
import ArkadeSdk.Swap.RfqRecordStore

/-! What is read back after a restart. -/

namespace ArkadeSdk.RfqRecord

open WireFormat JsNumber JsRecord BtcScript HexCodec Rfq
open Json (Value)

variable {Tree : Type} {L : RecordLibraries Tree}

theorem isHexDigit_digit : ∀ n < 16, isHexDigit (digit n) = true := by decide

theorem toLower_digit : ∀ n < 16, (digit n).toLower = digit n := by decide

theorem mem_encodeChars {b : Bytes} {c : Char} (h : c ∈ encodeChars b) : ∃ n < 16, c = digit n := by
  obtain ⟨x, -, hc⟩ := List.mem_flatMap.mp h
  have hx := x.toNat_lt
  simp only [List.mem_cons, List.not_mem_nil, or_false] at hc
  rcases hc with rfl | rfl
  · exact ⟨x.toNat / 16, by omega, rfl⟩
  · exact ⟨x.toNat % 16, by omega, rfl⟩

theorem lowerCase_encode (b : Bytes) : lowerCase (base16.encode b) = base16.encode b := by
  have hchars : (encodeChars b).map Char.toLower = encodeChars b := by
    refine (List.map_congr_left fun c hc ↦ ?_).trans (List.map_id _)
    obtain ⟨n, hn, rfl⟩ := mem_encodeChars hc
    exact toLower_digit n hn
  unfold lowerCase base16
  simp only [String.toList_ofList, hchars]

theorem parseHex32_encode {b : Bytes} (h : b.length = 32) (field : String) :
    parseHex32 (some (.string (base16.encode b))) field = .ok (base16.encode b) := by
  have hdigits : (base16.encode b).toList.all isHexDigit = true := by
    rw [List.all_eq_true]
    intro c hc
    obtain ⟨n, hn, rfl⟩ := mem_encodeChars (b := b) (by simpa [base16] using hc)
    exact isHexDigit_digit n hn
  have hlength : (base16.encode b).toList.length = 64 := by rw [base16.length_encode, h]
  simp only [parseHex32, hlength, hdigits, lowerCase_encode, and_self, if_true]

structure Provisioned (secrets : ProvisionedSecret) : Prop where
  preimage : ∀ b ∈ secrets.preimage, b.length = 32
  preimageSalt : ∀ b ∈ secrets.preimageSalt, b.length = 32

def hexValue (b : Bytes) : Value := .string (base16.encode b)

theorem optionalHex32_map {bytes : Option Bytes} (h : ∀ b ∈ bytes, b.length = 32)
    (field : String) :
    optionalHex32 (bytes.map hexValue) field = .ok (bytes.map base16.encode) := by
  cases bytes with
  | none => rfl
  | some b => exact congrArg (some <$> ·) (parseHex32_encode (h b rfl) field)

theorem lookup_hashlockFields (secrets : ProvisionedSecret) (paymentHash : String) :
    (hashlockFields secrets paymentHash).lookup "paymentHash" = some (.string paymentHash) ∧
      (hashlockFields secrets paymentHash).lookup "preimageHex" = secrets.preimage.map hexValue ∧
      (hashlockFields secrets paymentHash).lookup "preimageSaltHex" =
        secrets.preimageSalt.map hexValue := by
  unfold hashlockFields
  cases secrets.preimage <;> cases secrets.preimageSalt <;> exact ⟨rfl, rfl, rfl⟩

theorem parseHashlock_hashlockFields {secrets : ProvisionedSecret} (h : Provisioned secrets)
    {hash : Bytes} (hhash : hash.length = 32) :
    parseHashlock (some (.object (hashlockFields secrets (base16.encode hash)))) =
      .ok ⟨base16.encode hash, secrets.preimage.map base16.encode,
        secrets.preimageSalt.map base16.encode⟩ := by
  obtain ⟨hpayment, hpreimage, hsalt⟩ := lookup_hashlockFields secrets (base16.encode hash)
  simp only [parseHashlock, property, Option.bind_some, Json.Value.field_object, hpayment,
    hpreimage, hsalt]
  exact bind_ok.mpr ⟨_, parseHex32_encode hhash _, bind_ok.mpr ⟨_,
    optionalHex32_map h.preimage _, bind_ok.mpr ⟨_, optionalHex32_map h.preimageSalt _, rfl⟩⟩⟩

def Requested (L : RecordLibraries Tree) (swap : RfqSwap) : RequestResult → Prop
  | .lightning_send => swap.kind = .lightning_send
  | .lightning_receive expectedAmount _ =>
    swap.kind = .lightning_receive ∧ swap.expectedAmount = expectedAmount
  | .onchain_send result =>
    swap.kind = .onchain_send ∧ swap.minConfirmations = result.minConfirmations ∧
      onchainHtlcScript L.contract swap.paymentHash result.claimKey result.refundKey
        (.number result.htlcLocktime) result.network = .ok ⟨swap.htlc, result.htlcAddress⟩

def requestProfile (secrets : ProvisionedSecret) (paymentHash : String) (result : RequestResult) :
    List (String × Value) :=
  rfqSecretsProfile secrets (some paymentHash) ++ corridorProfile result

theorem encode_ne_blank {hash : Bytes} (h : hash.length = 32) : base16.encode hash ≠ "" := by
  intro he
  rw [base16.encode_eq_empty] at he
  simp [he] at h

theorem get_requestProfile (secrets : ProvisionedSecret) {hash : Bytes} (hhash : hash.length = 32)
    (result : RequestResult) (name : String) :
    (Record.empty.spread (requestProfile secrets (base16.encode hash) result)).get name =
      (requestProfile secrets (base16.encode hash) result).lookup name := by
  have hne := encode_ne_blank hhash
  rw [Record.get_spread]
  · exact Option.or_none
  · cases result <;>
      simp [requestProfile, rfqSecretsProfile, spelled, Option.filter, hne, corridorProfile,
        onchainSendProfile]
  · cases result <;>
      simp [requestProfile, rfqSecretsProfile, spelled, Option.filter, hne, corridorProfile,
        onchainSendProfile]

theorem Records.textField {profile : Profile} {name : String} {text : Option String}
    (h : Records profile name (textValue text) text.isSome) (hblank : text ≠ some "") :
    textField profile name = text := by
  unfold RfqRecord.textField stringField
  cases text with
  | none =>
    have hnone : profile.get name = none := by
      cases hget : profile.get name with
      | none => rfl
      | some value => cases h.present (by rw [hget]; rfl)
    rw [hnone]
    rfl
  | some s =>
    have hne : s ≠ "" := fun he ↦ hblank (congrArg some he)
    have hspelled : spelled (some s) = some s := by simp [spelled, Option.filter, hne]
    rw [h.stored (.string s) (by rw [textValue, hspelled]; rfl)]
    exact hspelled

theorem Records.fundingField {profile : Profile} {funding : Option Outpoint}
    (h : Records profile "funding" (funding.map fundingValue) funding.isSome) :
    fundingField profile = funding := by
  unfold RfqRecord.fundingField
  cases funding with
  | none =>
    have hnone : profile.get "funding" = none := by
      cases hget : profile.get "funding" with
      | none => rfl
      | some value => cases h.present (by rw [hget]; rfl)
    rw [hnone]
    rfl
  | some outpoint =>
    have hvout : (Number.trunc ((outpoint.vout : ℕ) : ℚ)).toNat = outpoint.vout := by
      rw [Number.trunc_natCast, Int.toNat_natCast]
    rw [h.stored (fundingValue outpoint) rfl]
    have htxid : property (some (fundingValue outpoint)) "txid" = some (.string outpoint.txid) := rfl
    have hnumber : property (some (fundingValue outpoint)) "vout" =
        some (.number (.finite (outpoint.vout : ℕ))) := rfl
    simp only [htxid, hnumber, hvout]

/-- The fields of the swap's own kind. -/
def hydratedOf (swap : RfqSwap) : Hydrated :=
  match swap.kind with
  | .lightning_send => { paymentHash := swap.paymentHash }
  | .lightning_receive =>
    { paymentHash := swap.paymentHash, expectedAmount := swap.expectedAmount,
      claimArkTxid := swap.claimArkTxid }
  | .onchain_send =>
    { paymentHash := swap.paymentHash, htlc := swap.htlc,
      minConfirmations := swap.minConfirmations, funding := swap.funding,
      claimTxid := swap.claimTxid }

/-- The numbers pass the guards of a restart, and a recorded claim has an id. -/
structure Storable (swap : RfqSwap) : Prop where
  expectedAmount : swap.kind = .lightning_receive → swap.expectedAmount.isFinite = true
  minConfirmations : swap.kind = .onchain_send → 1 ≤ swap.minConfirmations
  claimTxid : swap.claimTxid ≠ some ""
  claimArkTxid : swap.claimArkTxid ≠ some ""

section Hydrate

variable {origin : RfqSwapOrigin} {profile : Profile} {swap : RfqSwap}
  {secrets : ProvisionedSecret} {result : RequestResult} {hash : Bytes}

theorem hydrateHashlock_mirrors (hmirrors : Mirrors origin profile swap)
    (horigin : origin.profile =
      Record.empty.spread (requestProfile secrets (base16.encode hash) result))
    (hsecrets : Provisioned secrets) (hhash : hash.length = 32) :
    hydrateHashlock profile = .ok (base16.encode hash) := by
  have hname : "hashlock" ∉ projectedNames swap.kind := by cases swap.kind <;> simp [projectedNames]
  have hne := encode_ne_blank hhash
  have hget : profile.get "hashlock" =
      some (.object (hashlockFields secrets (base16.encode hash))) := by
    rw [hmirrors.frame _ hname, horigin, get_requestProfile secrets hhash]
    simp [requestProfile, rfqSecretsProfile, spelled, Option.filter, hne, List.lookup_cons]
  rw [hydrateHashlock, hget, parseHashlock_hashlockFields hsecrets hhash]

theorem get_onchain {result : OnchainRequest} (hkind : swap.kind = .onchain_send)
    (hmirrors : Mirrors origin profile swap)
    (horigin : origin.profile =
      Record.empty.spread (requestProfile secrets (base16.encode hash) (.onchain_send result)))
    (hhash : hash.length = 32) {name : String} {value : Value}
    (hname : name ∉ ["signer", "hashlock", "funding", "claimTxid"])
    (hvalue : (onchainSendProfile result).lookup name = some value) :
    profile.get name = some value := by
  simp only [List.mem_cons, List.not_mem_nil, or_false, not_or] at hname
  have hne := encode_ne_blank hhash
  rw [hmirrors.frame name (by simp [hkind, projectedNames, hname]), horigin,
    get_requestProfile secrets hhash, requestProfile, List.lookup_append]
  simp only [rfqSecretsProfile, spelled, Option.filter, hne, lookup_cons_eq_ite, hname, if_false,
    ne_eq, not_false_eq_true, decide_true, if_true]
  exact hvalue

theorem hydrateOnchain_mirrors {result : OnchainRequest} (hkind : swap.kind = .onchain_send)
    (hmirrors : Mirrors origin profile swap)
    (horigin : origin.profile =
      Record.empty.spread (requestProfile secrets (base16.encode hash) (.onchain_send result)))
    (hsecrets : Provisioned secrets) (hhash : hash.length = 32)
    (hpayment : swap.paymentHash = base16.encode hash)
    (hrequested : Requested L swap (.onchain_send result)) (hstorable : Storable swap) :
    hydrateOnchain L profile = .ok (hydratedOf swap) := by
  obtain ⟨-, hmin, hhtlc⟩ := hrequested
  have hget : ∀ (name : String) (value : Value),
      name ∉ ["signer", "hashlock", "funding", "claimTxid"] →
      (onchainSendProfile result).lookup name = some value → profile.get name = some value :=
    fun _ _ hname hvalue ↦ get_onchain hkind hmirrors horigin hhash hname hvalue
  have hkeys : result.claimKey.length = 32 ∧ result.refundKey.length = 32 := by
    obtain ⟨⟨⟩, hlengths, -⟩ := bind_ok.mp hhtlc
    simpa using hlengths
  have hkey : ∀ {name : String} {key : Bytes}, key.length = 32 →
      profile.get name = some (hexValue key) →
      textField profile name = some (base16.encode key) := by
    intro name key hlength hname
    simp [textField, stringField, hname, hexValue, spelled, Option.filter, encode_ne_blank hlength]
  have hhex : ∀ key : Bytes, hexField (some (.string (base16.encode key))) = .ok key := by
    intro key
    simp [hexField]
  have hconfirmations : parseMinConfirmations (profile.get "minConfirmations") =
      .ok swap.minConfirmations := by
    have hpos := hstorable.minConfirmations hkind
    rw [hget _ (.number (.ofInt result.minConfirmations)) (by decide) rfl, ← hmin]
    simp [parseMinConfirmations, asInteger, Number.ofInt, refuseIf, not_lt.mpr hpos]
  have hnetwork : parseNetwork (profile.get "network") = .ok result.network := by
    rw [hget _ (.string (networkName result.network)) (by decide) rfl]
    cases result.network <;> rfl
  have haddress : stringField profile "htlcAddress" = some result.htlcAddress := by
    rw [stringField, hget _ (.string result.htlcAddress) (by decide) rfl]
  unfold hydrateOnchain
  rw [hydrateHashlock_mirrors hmirrors horigin hsecrets hhash,
    hkey hkeys.1 (hget _ _ (by decide) rfl), hkey hkeys.2 (hget _ _ (by decide) rfl),
    hconfirmations, hnetwork, haddress, hget _ (.number result.htlcLocktime) (by decide) rfl, ← hpayment,
    (hmirrors.funding hkind).fundingField,
    (hmirrors.claimTxid hkind).textField hstorable.claimTxid]
  refine bind_ok.mpr ⟨_, rfl, bind_ok.mpr ⟨_, rfl, bind_ok.mpr ⟨_, orThrow_ok.mpr (hhex _),
    bind_ok.mpr ⟨_, orThrow_ok.mpr (hhex _), bind_ok.mpr ⟨_, rfl, bind_ok.mpr ⟨_, hhtlc, bind_ok.mpr ⟨(), ?_, ?_⟩⟩⟩⟩⟩⟩⟩
  · exact refuseIf_ok.mpr (by simp)
  · rw [hydratedOf, hkind]
    rfl

theorem hydrate_mirrors (hmirrors : Mirrors origin profile swap)
    (horigin : origin.profile =
      Record.empty.spread (requestProfile secrets (base16.encode hash) result))
    (hsecrets : Provisioned secrets) (hhash : hash.length = 32)
    (hpayment : swap.paymentHash = base16.encode hash) (hrequested : Requested L swap result)
    (hstorable : Storable swap) : hydrate L swap.kind profile = .ok (hydratedOf swap) := by
  cases result with
  | lightning_send =>
    have hkind : swap.kind = .lightning_send := hrequested
    simp only [hydrate, hydratedOf, hkind]
    rw [hydrateHashlock_mirrors hmirrors horigin hsecrets hhash, hpayment]
    rfl
  | lightning_receive expectedAmount payoutAddress =>
    have hkind := hrequested.1
    obtain ⟨q, hq⟩ := (Number.isFinite_iff).mp (hstorable.expectedAmount hkind)
    simp only [hydrate, hydratedOf, hkind, hydrateReceive, hmirrors.expectedAmount hkind, hq]
    rw [hydrateHashlock_mirrors hmirrors horigin hsecrets hhash, hpayment,
      (hmirrors.claimArkTxid hkind).textField hstorable.claimArkTxid]
    rfl
  | onchain_send result =>
    have hkind := hrequested.1
    have honchain := hydrateOnchain_mirrors hkind hmirrors horigin hsecrets hhash hpayment
      hrequested hstorable
    simp only [hydrate, hkind]
    exact honchain

end Hydrate

/-- A swap as a request opened it, with the origin that the caller wrote, the options of its
covenant, and the parameters that the contract row keeps of them. -/
structure Opened (L : RecordLibraries Tree) (origin : RfqSwapOrigin) (swap : RfqSwap)
    (secrets : ProvisionedSecret) (result : RequestResult) (options : VHTLC.Options)
    (params : VHTLC.Params) : Prop where
  kind : origin.kind = swap.kind
  address : L.decodeAddress origin.lockupAddress = .ok swap.lockupPkScript
  profile : origin.profile =
    Record.empty.spread (requestProfile secrets swap.paymentHash result)
  provisioned : Provisioned secrets
  requested : Requested L swap result
  paymentHash : ∃ hash : Bytes, hash.length = 32 ∧ swap.paymentHash = base16.encode hash
  lockup : ∃ script, VHTLC.ScriptV2.new L.program options = .ok script ∧
    L.pkScript script.vtxoScript = swap.lockupPkScript
  refundLocktime : options.refundLocktime = swap.refundLocktime
  params : VHTLC.serializeParams L.program L.print options = .ok params

def ofKind (swap : RfqSwap) (lockupAddress : String) : RfqSwap :=
  let hydrated := hydratedOf swap
  { swap with
    lockup := some ⟨swap.lockupPkScript, lockupAddress⟩
    htlc := hydrated.htlc
    minConfirmations := hydrated.minConfirmations
    expectedAmount := hydrated.expectedAmount
    funding := hydrated.funding
    claimTxid := hydrated.claimTxid
    claimArkTxid := hydrated.claimArkTxid }

/-- What a restart makes of a swap: the same, where a blank text stands for none. -/
def restored (swap : RfqSwap) (lockupAddress : String) : RfqSwap :=
  { ofKind swap lockupAddress with
    refundArkTxid := spelled swap.refundArkTxid
    lockupSpendArkTxids := listed swap.lockupSpendArkTxids
    failure := spelledMessage swap.failure
    blockedReason := spelledMessage swap.blockedReason }

theorem filter_filter_self {α : Type} (p : α → Bool) (text : Option α) :
    (text.filter p).filter p = text.filter p := by
  simp only [Option.filter_filter, Bool.and_self]

section Restart

variable {origin : RfqSwapOrigin} {first last : RfqSwap} {later : List RfqSwap}
  {secrets : ProvisionedSecret} {result : RequestResult} {options : VHTLC.Options}
  {params : VHTLC.Params} {profile : Profile}

theorem Opened.paired (h : Opened L origin first secrets result options params) :
    Paired L origin first where
  kind := h.kind
  address := h.address
  fresh name hname := by
    obtain ⟨hash, hhash, hpayment⟩ := h.paymentHash
    rw [h.profile, hpayment, get_requestProfile secrets hhash]
    simp only [List.mem_cons, List.not_mem_nil, or_false] at hname
    have hne := encode_ne_blank hhash
    rcases hname with rfl | rfl | rfl <;> cases result <;>
      simp [requestProfile, rfqSecretsProfile, spelled, Option.filter, hne, corridorProfile,
        onchainSendProfile, List.lookup_cons]

theorem Requested.of_terms (hterms : last.toRfqSwapTerms = first.toRfqSwapTerms)
    (h : Requested L first result) : Requested L last result := by
  obtain ⟨terms, _⟩ := first
  obtain ⟨terms', _⟩ := last
  obtain rfl : terms' = terms := hterms
  cases result <;> exact h

theorem rebuild_managerState (h : Opened L origin first secrets result options params)
    (hterms : last.toRfqSwapTerms = first.toRfqSwapTerms) (hmirrors : Mirrors origin profile last)
    (hstorable : Storable last) :
    rebuildRfqSwap L (managerState origin profile last) params =
      .ok (restored last origin.lockupAddress) := by
  obtain ⟨hash, hhash, hpayment⟩ := h.paymentHash
  obtain ⟨script, hnew, hscript⟩ := h.lockup
  obtain ⟨hoptions, -⟩ := VHTLC.ScriptV2.new_ok L.print hnew
  have hkind : last.kind = first.kind := congrArg RfqSwapTerms.kind hterms
  have hpayment' : last.paymentHash = base16.encode hash :=
    (congrArg RfqSwapTerms.paymentHash hterms).trans hpayment
  have hpkScript : last.lockupPkScript = first.lockupPkScript :=
    congrArg RfqSwapTerms.lockupPkScript hterms
  have hlocktime : last.refundLocktime = first.refundLocktime :=
    congrArg RfqSwapTerms.refundLocktime hterms
  have hlockup : lockupScript L params origin.lockupAddress = .ok script := by
    have hcreate := VHTLC.createScript_serializeParams hnew h.params
    unfold lockupScript
    rw [hcreate, h.address]
    exact bind_ok.mpr ⟨_, rfl, bind_ok.mpr ⟨(), refuseIf_ok.mpr (by simp [hscript]), rfl⟩⟩
  have hhydrate : hydrate L last.kind profile = .ok (hydratedOf last) :=
    hydrate_mirrors hmirrors (hpayment ▸ h.profile) h.provisioned hhash hpayment'
      (h.requested.of_terms hterms) hstorable
  have hpaymentHash : (hydratedOf last).paymentHash = last.paymentHash := by
    unfold hydratedOf
    cases last.kind <;> rfl
  refine bind_ok.mpr ⟨script, hlockup, bind_ok.mpr ⟨hydratedOf last, ?_, ?_⟩⟩
  · rw [← hhydrate, hkind, ← h.kind]
    rfl
  · simp only [managerState, restored, ofKind, spelled, spelledMessage, listed, filter_filter_self,
      hpaymentHash, hscript, hoptions, h.refundLocktime, h.kind, ← hpkScript, ← hlocktime, ← hkind]
    rfl

/-- However often a live swap is written, its record gives back the last one, keeps what the
caller wrote of it, and goes with no other covenant. -/
theorem rebuild_store (h : Opened L origin first secrets result options params)
    (hlater : List.IsChain Updates (first :: later)) (hstorable : Storable (later.getLastD first)) :
    ∃ record, store L origin first later = .ok record ∧
      rebuildRfqSwap L record params =
        .ok (restored (later.getLastD first) origin.lockupAddress) ∧
      record.kind = origin.kind ∧ record.lockupAddress = origin.lockupAddress ∧
      record.amount = origin.amount ∧ record.fundingArkTxid = origin.fundingArkTxid ∧
      (∀ name ∉ projectedNames origin.kind, record.profile.get name = origin.profile.get name) ∧
      ∀ params' swap', rebuildRfqSwap L record params' = .ok swap' →
        ∃ script, VHTLC.createScript L.program params' = .ok script ∧
          L.pkScript script.vtxoScript = first.lockupPkScript := by
  obtain ⟨profile, hmirrors, hstore⟩ := store_mirrors h.paired hlater
  have hterms := last_terms hlater
  have hkind : origin.kind = (later.getLastD first).kind :=
    h.kind.trans (congrArg RfqSwapTerms.kind hterms).symm
  refine ⟨_, hstore, rebuild_managerState h hterms hmirrors hstorable, rfl, rfl, rfl, rfl, ?_, ?_⟩
  · intro name hname
    exact hmirrors.frame name (hkind ▸ hname)
  · intro params' swap' hrebuild
    obtain ⟨script, hscript, -⟩ := bind_ok.mp hrebuild
    obtain ⟨script', hcreate, hfunded⟩ := bind_ok.mp hscript
    have haddress : L.decodeAddress (managerState origin profile (later.getLastD first)).lockupAddress =
        .ok first.lockupPkScript := h.address
    rw [haddress] at hfunded
    obtain ⟨⟨⟩, hsame, -⟩ := bind_ok.mp hfunded
    exact ⟨script', orThrow_ok.mp hcreate, (not_not.mp (refuseIf_ok.mp hsame)).symm⟩

end Restart

def samplePrinter : VHTLC.Printer where
  text
    | .finite q => Decimal.toText q.num
    | _ => "NaN"
  text_ofNat n _ := by simp [Number.ofNat]

/-- Every covenant is funded at one address. -/
def sampleLibraries : RecordLibraries (List Bytes) where
  program := Offer.fillLibraries
  contract := Rfq.sampleLibraries
  print := samplePrinter
  pkScript _ := sampleScript
  decodeAddress _ := .ok sampleScript

def sampleOptions : VHTLC.Options where
  sender := List.replicate 32 2
  receiver := List.replicate 32 5
  server := List.replicate 32 3
  preimageHash := List.replicate 20 1
  refundLocktime := 1700100000
  unilateralClaimDelay := ⟨512, .seconds⟩
  unilateralRefundDelay := ⟨512, .seconds⟩
  unilateralRefundWithoutReceiverDelay := ⟨4608, .seconds⟩
  nonInteractiveClaim := none
  nonInteractiveRefund := none
  asset := none

def sampleSecrets : ProvisionedSecret := ⟨"tr(key)", none, some (List.replicate 32 4)⟩

def sampleSwap (kind : RfqSwapKind) (minConfirmations : ℤ) (expectedAmount : Number) : RfqSwap where
  rfqId := "a1"
  kind := kind
  lockupPkScript := sampleScript
  lockup := none
  paymentHash := sampleHex 9
  refundLocktime := 1700100000
  createdAt := 1700000000
  htlc := ⟨sampleScript, sampleHex 9, 1700020000⟩
  minConfirmations := minConfirmations
  expectedAmount := expectedAmount
  state := .pending
  updatedAt := 1700000000
  refundArkTxid := none
  lockupSpendArkTxids := none
  failure := none
  blockedReason := none
  funding := none
  claimTxid := none
  claimArkTxid := none

def sampleOrigin (kind : RfqSwapKind) (result : RequestResult) : RfqSwapOrigin where
  kind := kind
  lockupAddress := "tark1lockup"
  profile := Record.empty.spread (requestProfile sampleSecrets (sampleHex 9) result)
  amount := some (.ofInt 1000)
  fundingArkTxid := none

def sampleParams : VHTLC.Params :=
  (VHTLC.serializeParams sampleLibraries.program samplePrinter sampleOptions).toOption.getD []

theorem sample_opened (kind : RfqSwapKind) (minConfirmations : ℤ) (expectedAmount : Number)
    (result : RequestResult)
    (h : Requested sampleLibraries (sampleSwap kind minConfirmations expectedAmount) result) :
    Opened sampleLibraries (sampleOrigin kind result)
      (sampleSwap kind minConfirmations expectedAmount) sampleSecrets result sampleOptions
      sampleParams := by
  obtain ⟨script, hscript⟩ : ∃ script,
    VHTLC.ScriptV2.new sampleLibraries.program sampleOptions = .ok script := ⟨_, rfl⟩
  obtain ⟨-, -, -, params, hparams⟩ := VHTLC.ScriptV2.new_ok samplePrinter hscript
  have hsample : sampleParams = params := by
    rw [sampleParams, show VHTLC.serializeParams sampleLibraries.program samplePrinter
      sampleOptions = .ok params from hparams]
    rfl
  exact ⟨rfl, rfl, rfl, ⟨by simp [sampleSecrets], by simp [sampleSecrets]⟩, h,
    ⟨List.replicate 32 9, rfl, rfl⟩, ⟨script, hscript, rfl⟩, rfl, hsample ▸ hparams⟩

/-- A block of a pass, with the clock far past the deadline. -/
def afterBlock (swap : RfqSwap) (await : Await) (answer : Answer) : RfqSwap :=
  match resume ⟨⟨true, true, true, true⟩, none, none, 1700200000, 0, 0⟩ ⟨swap, .empty, []⟩ await
      answer with
  | some (w, _) => w.swap
  | none => swap

theorem afterBlock_updates (swap : RfqSwap) (await : Await) (answer : Answer) :
    Updates swap (afterBlock swap await answer) := by
  unfold afterBlock
  split
  · rename_i w next h
    exact .single ⟨_, ⟨swap, .empty, []⟩, await, answer, w, next, rfl, h, rfl⟩
  · exact .refl

def claimedReceive : RfqSwap :=
  afterBlock (sampleSwap .lightning_receive 0 (.ofInt 1000))
    (.claimLockup [⟨"f1", 0, .ofInt 1000, false⟩]) (.txid (.ok "c1"))

/-- A receive that was claimed is claimed after the restart. -/
theorem claimedReceive_restored : ∃ record,
    store sampleLibraries
        (sampleOrigin .lightning_receive (.lightning_receive (.ofInt 1000) "tark1payout"))
        (sampleSwap .lightning_receive 0 (.ofInt 1000)) [claimedReceive] = .ok record ∧
      rebuildRfqSwap sampleLibraries record sampleParams =
        .ok (restored claimedReceive "tark1lockup") := by
  have hopened := sample_opened .lightning_receive 0 (.ofInt 1000)
    (.lightning_receive (.ofInt 1000) "tark1payout") ⟨rfl, rfl⟩
  have hchain : List.IsChain Updates
      [sampleSwap .lightning_receive 0 (.ofInt 1000), claimedReceive] := by
    exact List.isChain_pair.mpr (afterBlock_updates _ _ _)
  have hstorable : Storable claimedReceive :=
    ⟨fun _ ↦ rfl, by decide, by decide, by decide⟩
  obtain ⟨record, hstore, hrebuild, -⟩ := rebuild_store hopened hchain hstorable
  exact ⟨record, hstore, hrebuild⟩

/-- A swap that was opened and driven, and is not given back as it was. -/
def Lost (first : RfqSwap) (later : List RfqSwap) (result : RequestResult) : Prop :=
  Opened sampleLibraries (sampleOrigin first.kind result) first sampleSecrets result sampleOptions
    sampleParams ∧ List.IsChain Updates (first :: later) ∧
  ((store sampleLibraries (sampleOrigin first.kind result) first later).toOption.bind fun record ↦
    (rebuildRfqSwap sampleLibraries record sampleParams).toOption) ≠
      some (ofKind (later.getLastD first) "tark1lockup")

/-- A failure without a text, a claim without an id, an amount that is no number, and a fill that
nobody has to confirm. -/
theorem restart_loses :
    Lost (sampleSwap .lightning_send 0 .nan)
      [afterBlock (sampleSwap .lightning_send 0 .nan) (.refundArkade 1700200000)
        (.refundFailed "")] .lightning_send ∧
    Lost (sampleSwap .lightning_receive 0 (.ofInt 1000))
      [afterBlock (sampleSwap .lightning_receive 0 (.ofInt 1000)) (.claimLockup [])
        (.txid (.ok ""))] (.lightning_receive (.ofInt 1000) "tark1payout") ∧
    Lost (sampleSwap .lightning_receive 0 .nan) [] (.lightning_receive .nan "tark1payout") ∧
    Lost (sampleSwap .onchain_send 0 .nan) []
      (.onchain_send ⟨"bcrt1htlc", List.replicate 32 6, List.replicate 32 7, .ofInt 1700020000,
        .regtest, 0⟩) := by
  refine ⟨⟨sample_opened _ _ _ _ rfl, ?_, by decide +kernel⟩,
    ⟨sample_opened _ _ _ _ ⟨rfl, rfl⟩, ?_, by decide +kernel⟩,
    ⟨sample_opened _ _ _ _ ⟨rfl, rfl⟩, by simp, by decide +kernel⟩,
    ⟨sample_opened _ _ _ _ ⟨rfl, rfl, rfl⟩, by simp, by decide +kernel⟩⟩
  · exact List.isChain_pair.mpr (afterBlock_updates _ _ _)
  · exact List.isChain_pair.mpr (afterBlock_updates _ _ _)

end ArkadeSdk.RfqRecord
