import ArkadeSdk.Boltz.SwapCreation
import ArkadeSdk.Script.TapscriptUnique

/-! What a created swap owes to its request, and which responses break it. -/

namespace ArkadeSdk.SwapCreation

open WireFormat JsNumber HexCodec BtcScript
open Json (Value)

/-- What a request fixes against a schedule of fees: the most that may be asked of the payer, the
sum where the request fixes the paying side, and the least that the claim may enforce. -/
structure Terms where
  mostToPay : Option Number
  toPay : Option Number
  leastToClaim : Option Number

structure Agreed (terms : Terms) (amountToPay : Number) (claimAmount : Option Number) : Prop where
  positive : amountToPay.isPositive = true
  bounded : ∀ most, terms.mostToPay = some most → amountToPay.le most = true
  exact : ∀ due, terms.toPay = some due → amountToPay = due
  claims : ∀ least, terms.leastToClaim = some least → ∀ amount, claimAmount = some amount →
    least.le amount = true

def ReverseFees.total (fees : ReverseFees) (amount : Number) : Number :=
  ((percentageFee amount fees.percentage).add fees.minerFees.claim).add fees.minerFees.lockup

def ChainFeesResponse.total (fees : ChainFeesResponse) (amount : Number) : Number :=
  (((percentageFee amount fees.percentage).add fees.minerFees.server).add
    fees.minerFees.user.claim).add fees.minerFees.user.lockup

def reverseTerms (fees : ReverseFees) (args : CreateLightningInvoiceRequest) : Terms :=
  ⟨none, some args.amount, some (args.amount.sub (fees.total args.amount))⟩

/-- The amount of an invoice in satoshis, to the thousandth. -/
def Sections.satoshis (sections : Sections) : Number :=
  .finite ((sections.amount.getD 0 : ℚ) / 1000)

/-- An invoice that names no amount bounds nothing. -/
def submarineTerms (fees : SubmarineFees) (sections : Sections) : Terms :=
  ⟨if sections.amount.getD 0 = 0 then none
    else some (maxAcceptable (.ofNat (sections.amount.getD 0 / 1000)) fees), none, none⟩

def chainTerms (fees : ChainFeesResponse) (args : ChainArgs) : Terms :=
  match truthy args.receiverLockAmount, truthy args.senderLockAmount with
  | some receiver, _ =>
    ⟨some (receiver.add (fees.total receiver)), none, some (receiver.sub (fees.total receiver))⟩
  | none, some sender => ⟨none, some sender, some (sender.sub (fees.total sender))⟩
  | none, none => ⟨none, none, none⟩

/-- What a call returns is `Good`, and a call that throws on what it was sent leaves nothing. -/
structure Binds {α : Type} (out : Outcome α) (Good : α → Prop) (Reachable : Prop) : Prop where
  returned : ∀ a, out.result = .ok a → Good a
  thrown : ∀ error, out.result = .error error → Reachable →
    out.stored = false ∧ out.monitored = false

variable {Tree : Type} (L : SwapLibraries Tree)

/-- The invoice is for the agreed hash, whose preimage is on record. -/
structure ReverseBound (w : World ReverseFees) (signer : Signer) (preimage : Bytes)
    (args : CreateLightningInvoiceRequest) (swap : BoltzReverseSwap) : Prop where
  preimage_eq : swap.preimage = base16.encode preimage
  claimPublicKey_eq : swap.request.claimPublicKey = base16.encode signer.compressedPublicKey
  agreed : ∃ sections, L.bolt11 swap.response.invoice = .ok sections ∧
    sections.payment_hash = some (base16.encode (L.sha256 preimage)) ∧
    Agreed (reverseTerms w.fees args) sections.satoshis swap.response.onchainAmount

/-- The address is the lockup of the own key, the hash of the invoice and the stored timeouts, and
what a refund rebuilds from the record. -/
structure SubmarineLockup (w : World SubmarineFees) (signer : Signer) (swap : BoltzSubmarineSwap)
    (paymentHash : String) : Prop where
  rebuilt : ∃ arkInfo args context, w.arkInfo = some arkInfo ∧
    buildSubmarineVHTLCContext L signer swap arkInfo = .ok context ∧
    swap.response.address = some context.vhtlcAddress ∧
    hexDecode paymentHash = .ok args.preimageHash ∧
    swap.response.timeoutBlockHeights = some args.timeoutBlockHeights ∧
    Lockup L args signer.xOnlyPublicKey context.toResolvedLockup context.vhtlcAddress

structure SubmarineBound (w : World SubmarineFees) (signer : Signer) (invoice : String)
    (swap : BoltzSubmarineSwap) : Prop where
  request_eq : swap.request = ⟨invoice, base16.encode signer.compressedPublicKey⟩
  agreed : ∃ sections, L.bolt11 invoice = .ok sections ∧
    Agreed (submarineTerms w.fees sections) swap.response.expectedAmount none ∧
    SubmarineLockup L w signer swap (sections.payment_hash.getD "")

/-- The lockup on the Arkade side, which a refund in the same server state rebuilds from the
record. -/
def ArkLockup (signer : Signer) (secrets : ChainSecrets) (arkInfo : ArkInfo)
    (swap : BoltzChainSwap) (address : String) : Prop :=
  ∀ candidates, candidateServerPubkeys arkInfo = .ok candidates →
    ∃ args resolved, refundArkLockup L signer swap arkInfo = .ok resolved ∧
      args.preimageHash = L.sha256 secrets.preimage ∧
      swap.response.lockupDetails.timeouts = some args.timeoutBlockHeights ∧
      Lockup L args signer.xOnlyPublicKey resolved address

/-- The taproot contract on the Bitcoin side: the address pays to the key that aggregates with the
own ephemeral one under the stored tree, whose leaves take the agreed preimage, or the own key
after the stored timeout. -/
def BtcLockup (secrets : ChainSecrets) (arkInfo : ArkInfo) (swap : BoltzChainSwap)
    (address : String) : Prop :=
  ∃ parsed swapTree boltzPub aggPubkey script timeout userXOnly,
    swap.response.lockupDetails.swapTree = some parsed ∧
    deserializeSwapTree parsed = .ok swapTree ∧
    L.aggPubkey secrets.ephemeralKey [boltzPub, L.getPublicKey secrets.ephemeralKey] swapTree.tree =
      .ok aggPubkey ∧
    p2trScript aggPubkey = .ok script ∧ L.outScript arkInfo.network address = .ok script ∧
    toXOnly (L.getPublicKey secrets.ephemeralKey) = .ok userXOnly ∧
    (∃ boltzXOnly, ScriptCoder.decode L.OP swapTree.claimLeaf.output =
      .ok (ExpectedLeaves.claim ⟨L.ripemd160 (L.sha256 secrets.preimage), boltzXOnly, userXOnly,
        swap.response.lockupDetails.timeoutBlockHeight⟩)) ∧
    ScriptCoder.decode L.OP swapTree.refundLeaf.output =
      .ok [.data userXOnly, .op "CHECKSIGVERIFY", timeout, .op "CHECKLOCKTIMEVERIFY"] ∧
    decodeScriptNum timeout = .ok (some swap.response.lockupDetails.timeoutBlockHeight)

structure ChainBound (w : World ChainFeesResponse) (toChain : Chain) (signer : Signer)
    (secrets : ChainSecrets) (args : ChainArgs) (r : ChainResponse) : Prop where
  agreed : Agreed (chainTerms w.fees args) r.amountToPay
    (some r.pendingSwap.response.claimDetails.amount)
  lockup : ∃ arkInfo, w.arkInfo = some arkInfo ∧ match toChain with
    | .BTC => ArkLockup L signer secrets arkInfo r.pendingSwap r.address
    | .ARK => BtcLockup L secrets arkInfo r.pendingSwap r.address

/-- The server's answer is one that lockups can be rebuilt from. -/
def Usable (arkInfo : ArkInfo) : Prop :=
  (∃ key, serverKey arkInfo.signerPubkey = .ok key) ∧ ∃ hrp, L.hrp arkInfo.network = some hrp

/-- What `createReverseSwap` checks. -/
structure ReverseAccepted (w : World ReverseFees) (preimage : Bytes)
    (args : CreateLightningInvoiceRequest) (response : CreateReverseSwapResponse)
    (sections : Sections) : Prop where
  amount : args.amount.le (.ofNat 0) = false
  hash_ne : base16.encode (L.sha256 preimage) ≠ ""
  descriptionHash : args.descriptionHash.any (!isDescriptionHash ·) = false
  sent : w.Sends isCreateReverseSwapResponse response
  invoice : L.bolt11 response.invoice = .ok sections
  hash : sections.payment_hash = some (base16.encode (L.sha256 preimage))
  onchainAmount : response.onchainAmount ≠ none

/-- The response is for the amount that was asked for and leaves what the fees leave. -/
def ReverseReconciles (w : World ReverseFees) (preimage : Bytes)
    (args : CreateLightningInvoiceRequest) : Prop :=
  w.saves = true → ∀ response sections, ReverseAccepted L w preimage args response sections →
    sections.satoshis = args.amount ∧ ∀ onchainAmount, response.onchainAmount = some onchainAmount →
      (args.amount.sub (w.fees.total args.amount)).le onchainAmount = true

theorem decodeInvoice_ok {invoice : String} {decoded : DecodedInvoice} :
    decodeInvoice L invoice = .ok decoded ↔ ∃ sections, L.bolt11 invoice = .ok sections ∧
      decoded = ⟨.ofNat (sections.amount.getD 0 / 1000), sections.payment_hash.getD ""⟩ := by
  simp only [decodeInvoice, bind_ok, pure_ok]
  exact exists_congr fun _ ↦ and_congr_right fun _ ↦ eq_comm

theorem checkReverseSwap_ok {w : World ReverseFees} {signer : Signer} {preimage : Bytes}
    {args : CreateLightningInvoiceRequest} {swap : BoltzReverseSwap} :
    checkReverseSwap L w signer preimage args = .ok swap ↔ ∃ response sections,
      ReverseAccepted L w preimage args response sections ∧ swap = {
        preimage := base16.encode preimage
        request := {
          invoiceAmount := args.amount
          claimPublicKey := base16.encode signer.compressedPublicKey
          preimageHash := base16.encode (L.sha256 preimage)
          descriptionHash := args.descriptionHash }
        response
        status := "swap.created" } := by
  simp only [checkReverseSwap, bind_ok, pure_ok, World.ask_ok, decodeInvoice_ok]
  constructor
  · rintro ⟨_, hamount, _, hne, _, hdescription, response, hsent, _, ⟨sections, hinvoice, rfl⟩,
      _, hhash, _, honchain, rfl⟩
    have hne := rejectIf_ok.mp hne
    have hhash := not_not.mp (rejectIf_ok.mp hhash)
    refine ⟨response, sections, ⟨by simpa using hamount, hne, by simpa using hdescription, hsent,
      hinvoice, ?_, rejectIf_ok.mp honchain⟩, rfl⟩
    cases hsection : sections.payment_hash with
    | none =>
      rw [hsection] at hhash
      exact absurd hhash.symm hne
    | some text =>
      rw [hsection] at hhash
      exact congrArg some hhash
  · rintro ⟨response, sections, h, rfl⟩
    exact ⟨(), by simpa using h.amount, (), rejectIf_ok.mpr h.hash_ne, (),
      by simpa using h.descriptionHash, response, h.sent, _, ⟨sections, h.invoice, rfl⟩, (),
      rejectIf_ok.mpr (by simp [h.hash]), (), rejectIf_ok.mpr h.onchainAmount, rfl⟩

theorem createReverseSwap_binds (w : World ReverseFees) (signer : Signer) (preimage : Bytes)
    (args : CreateLightningInvoiceRequest) :
    Binds (createReverseSwap L w signer preimage args) (ReverseBound L w signer preimage args)
      True ↔ ReverseReconciles L w preimage args := by
  constructor
  · intro h hsaves response sections haccepted
    have hresult : (createReverseSwap L w signer preimage args).result = .ok _ := World.save_ok.mpr
      ⟨(checkReverseSwap_ok L).mpr ⟨response, sections, haccepted, rfl⟩, hsaves⟩
    obtain ⟨-, -, sections', hinvoice, -, hagreed⟩ := h.returned _ hresult
    obtain rfl : sections = sections' := by
      rw [haccepted.invoice] at hinvoice
      cases hinvoice
      rfl
    exact ⟨hagreed.exact _ rfl, hagreed.claims _ rfl⟩
  · intro h
    refine ⟨?_, fun error herror _ ↦ World.save_error herror⟩
    intro swap hswap
    obtain ⟨hchecked, hsaves⟩ := World.save_ok.mp hswap
    obtain ⟨response, sections, haccepted, rfl⟩ := (checkReverseSwap_ok L).mp hchecked
    obtain ⟨hexact, hclaims⟩ := h hsaves response sections haccepted
    have hpositive : sections.satoshis.isPositive = true :=
      Number.isPositive_of_not_le rfl (by rw [hexact]; exact haccepted.amount)
    refine ⟨rfl, rfl, sections, haccepted.invoice, haccepted.hash, hpositive, ?_, ?_, ?_⟩
    · rintro most ⟨⟩
    · rintro due ⟨⟩
      exact hexact
    · rintro least ⟨⟩
      exact hclaims

/-- What `createSubmarineSwap` checks. -/
structure SubmarineAccepted (w : World SubmarineFees) (signer : Signer) (invoice : String)
    (swap : BoltzSubmarineSwap) (sections : Sections) : Prop where
  invoice_ne : invoice ≠ ""
  sent : w.Sends isCreateSubmarineSwapResponse swap.response
  swap_eq : swap = ⟨swap.response.id, ⟨invoice, base16.encode signer.compressedPublicKey⟩,
    swap.response, "invoice.set", none⟩
  lockup : ∃ arkInfo context, w.arkInfo = some arkInfo ∧
    buildSubmarineVHTLCContext L signer swap arkInfo = .ok context
  decoded : L.bolt11 invoice = .ok sections
  bounded : sections.amount.getD 0 / 1000 ≠ 0 → w.feesReachable = true ∧
    (maxAcceptable (.ofNat (sections.amount.getD 0 / 1000)) w.fees).lt
      swap.response.expectedAmount = false

/-- The response asks for a positive amount, and stays below the fees where the check has no say:
for an invoice of less than a satoshi, and where the fees do not add up to a number. -/
def SubmarineReconciles (w : World SubmarineFees) (signer : Signer) (invoice : String) : Prop :=
  w.saves = true → ∀ swap sections, SubmarineAccepted L w signer invoice swap sections →
    swap.response.expectedAmount.isPositive = true ∧
      (sections.amount.getD 0 ≠ 0 →
        sections.amount.getD 0 / 1000 = 0 ∨
          maxAcceptable (.ofNat (sections.amount.getD 0 / 1000)) w.fees = .nan →
        swap.response.expectedAmount.le
          (maxAcceptable (.ofNat (sections.amount.getD 0 / 1000)) w.fees) = true)

theorem getInfo_ok {Fees : Type} {w : World Fees} {arkInfo : ArkInfo} :
    w.getInfo = .ok arkInfo ↔ w.arkInfo = some arkInfo := by
  unfold World.getInfo
  cases w.arkInfo <;> simp

theorem assertSubmarineExpectedAmount_ok {w : World SubmarineFees}
    {response : CreateSubmarineSwapResponse} {invoice : String} :
    assertSubmarineExpectedAmount L w response invoice = .ok () ↔ ∃ sections,
      L.bolt11 invoice = .ok sections ∧ (sections.amount.getD 0 / 1000 ≠ 0 →
        w.feesReachable = true ∧
          (maxAcceptable (.ofNat (sections.amount.getD 0 / 1000)) w.fees).lt
            response.expectedAmount = false) := by
  simp only [assertSubmarineExpectedAmount, bind_ok, decodeInvoice_ok]
  constructor
  · rintro ⟨_, ⟨sections, hinvoice, rfl⟩, h⟩
    refine ⟨sections, hinvoice, fun hne ↦ ?_⟩
    have hsats : (Number.ofNat (sections.amount.getD 0 / 1000)) ≠ .ofNat 0 :=
      fun heq ↦ hne (Number.ofNat_injective heq)
    simp only [hsats, if_false, bind_ok] at h
    obtain ⟨_, hreach, h⟩ := h
    exact ⟨by simpa using hreach, by simpa using h⟩
  · rintro ⟨sections, hinvoice, h⟩
    refine ⟨_, ⟨sections, hinvoice, rfl⟩, ?_⟩
    dsimp only
    split
    · rfl
    · next hne =>
      obtain ⟨hreach, hbound⟩ := h fun hzero ↦ hne (by rw [hzero])
      simp only [bind_ok]
      exact ⟨(), by simpa using hreach, by simpa using hbound⟩

theorem checkSubmarineSwap_ok {w : World SubmarineFees} {signer : Signer} {invoice : String}
    {swap : BoltzSubmarineSwap} :
    checkSubmarineSwap L w signer invoice = .ok swap ↔
      ∃ sections, SubmarineAccepted L w signer invoice swap sections := by
  simp only [checkSubmarineSwap, bind_ok, pure_ok, World.ask_ok, getInfo_ok]
  constructor
  · rintro ⟨_, hne, response, hsent, arkInfo, hinfo, context, hcontext, _, hamount, rfl⟩
    obtain ⟨sections, hdecoded, hbounded⟩ := (assertSubmarineExpectedAmount_ok L).mp hamount
    exact ⟨sections, rejectIf_ok.mp hne, hsent, rfl, ⟨arkInfo, context, hinfo, hcontext⟩, hdecoded,
      hbounded⟩
  · rintro ⟨sections, h⟩
    obtain ⟨arkInfo, context, hinfo, hcontext⟩ := h.lockup
    rw [h.swap_eq] at hcontext
    exact ⟨(), rejectIf_ok.mpr h.invoice_ne, swap.response, h.sent, arkInfo, hinfo, context,
      hcontext, (), (assertSubmarineExpectedAmount_ok L).mpr ⟨sections, h.decoded, h.bounded⟩,
      h.swap_eq.symm⟩

theorem filter_ne_empty {text : Option String} {s : String}
    (h : text.filter (· ≠ "") = some s) : text = some s := by
  cases text with
  | none => cases h
  | some t =>
    obtain ⟨ht, -⟩ := Option.filter_eq_some_iff.mp h
    exact ht

/-- The own key in the form that the paths of a refund put it in. -/
theorem keyText_own {signer : Signer} {key : Bytes} {keyName swapId : String}
    (h : normalizeToXOnlyKey signer.xOnlyPublicKey keyName swapId = .ok key) :
    KeyText (base16.encode key) signer.xOnlyPublicKey := by
  obtain ⟨hlen, -⟩ | ⟨-, rfl⟩ := normalizeToXOnlyKey_ok.mp h
  · rw [signer.length_xOnly] at hlen
    cases hlen
  · exact keyText_encode signer.length_xOnly

theorem buildSubmarineVHTLCContext_ok {signer : Signer} {swap : BoltzSubmarineSwap}
    {arkInfo : ArkInfo} {context : SubmarineVHTLCContext Tree}
    (h : buildSubmarineVHTLCContext L signer swap arkInfo = .ok context) :
    ∃ (paymentHash : String) (args : LockupArgs), swapPreimageHash L swap = .ok paymentHash ∧
      hexDecode paymentHash = .ok args.preimageHash ∧
      swap.response.timeoutBlockHeights = some args.timeoutBlockHeights ∧
      swap.response.address = some context.vhtlcAddress ∧
      Lockup L args signer.xOnlyPublicKey context.toResolvedLockup context.vhtlcAddress := by
  simp only [buildSubmarineVHTLCContext, bind_ok] at h
  obtain ⟨paymentHash, hhash, _, -, ours, hours, h⟩ := h
  split at h
  · next claimPublicKey timeouts hclaim htimeouts =>
    simp only [bind_ok] at h
    obtain ⟨_, -, boltz, -, h⟩ := h
    split at h
    · cases h
    · next lockupAddress haddress =>
      simp only [bind_ok, pure_ok] at h
      obtain ⟨hashBytes, hhashBytes, resolved, hresolved, rfl⟩ := h
      refine ⟨paymentHash, ⟨_, hashBytes, _, _, timeouts⟩, hhash, hhashBytes, htimeouts,
        filter_ne_empty haddress, resolveVHTLCForLockup_ok L ?_ hresolved⟩
      exact keyText_own hours
  · cases h

theorem SubmarineAccepted.lockupOf {w : World SubmarineFees} {signer : Signer} {invoice : String}
    {swap : BoltzSubmarineSwap} {sections : Sections}
    (h : SubmarineAccepted L w signer invoice swap sections) :
    SubmarineLockup L w signer swap (sections.payment_hash.getD "") := by
  obtain ⟨arkInfo, context, hinfo, hcontext⟩ := h.lockup
  obtain ⟨paymentHash, args, hhash, hbytes, htimeouts, haddress, hlockup⟩ :=
    buildSubmarineVHTLCContext_ok L hcontext
  have hinvoice : swap.request.invoice = invoice := by rw [h.swap_eq]
  have hpayment : paymentHash = sections.payment_hash.getD "" := by
    simp only [swapPreimageHash, hinvoice, ne_eq, h.invoice_ne, not_false_eq_true, if_true, bind_ok,
      pure_ok, decodeInvoice_ok] at hhash
    obtain ⟨_, ⟨sections', hsections', rfl⟩, rfl⟩ := hhash
    rw [h.decoded] at hsections'
    cases hsections'
    rfl
  rw [hpayment] at hbytes
  exact ⟨arkInfo, args, context, hinfo, hcontext, haddress, hbytes, htimeouts, hlockup⟩

theorem Number.isPositive_ne_nan {a : Number} (h : a.isPositive = true) : a ≠ .nan := by
  rintro rfl
  cases h

theorem createSubmarineSwap_binds (w : World SubmarineFees) (signer : Signer) (invoice : String) :
    Binds (createSubmarineSwap L w signer invoice) (SubmarineBound L w signer invoice) True ↔
      SubmarineReconciles L w signer invoice := by
  constructor
  · intro h hsaves swap sections haccepted
    have hresult : (createSubmarineSwap L w signer invoice).result = .ok swap := World.save_ok.mpr
      ⟨(checkSubmarineSwap_ok L).mpr ⟨sections, haccepted⟩, hsaves⟩
    obtain ⟨-, sections', hdecoded, hagreed, -⟩ := h.returned _ hresult
    obtain rfl : sections = sections' := by
      rw [haccepted.decoded] at hdecoded
      cases hdecoded
      rfl
    refine ⟨hagreed.positive, fun hnamed _ ↦ hagreed.bounded _ ?_⟩
    rw [submarineTerms, if_neg hnamed]
  · intro h
    refine ⟨?_, fun error herror _ ↦ World.save_error herror⟩
    intro swap hswap
    obtain ⟨hchecked, hsaves⟩ := World.save_ok.mp hswap
    obtain ⟨sections, haccepted⟩ := (checkSubmarineSwap_ok L).mp hchecked
    obtain ⟨hpositive, hbound⟩ := h hsaves swap sections haccepted
    refine ⟨by rw [haccepted.swap_eq], sections, haccepted.decoded,
      ⟨hpositive, ?_, ?_, ?_⟩, haccepted.lockupOf⟩
    · intro most hmost
      unfold submarineTerms at hmost
      split at hmost
      · cases hmost
      · next hnamed =>
        obtain rfl := Option.some.inj hmost
        by_cases hsilent : sections.amount.getD 0 / 1000 = 0 ∨
            maxAcceptable (.ofNat (sections.amount.getD 0 / 1000)) w.fees = .nan
        · exact hbound hnamed hsilent
        · obtain ⟨hsats, hnan⟩ := not_or.mp hsilent
          exact Number.le_of_not_lt (Number.isPositive_ne_nan hpositive) hnan
            (haccepted.bounded hsats).2
    · rintro due ⟨⟩
    · rintro least ⟨⟩

def AmountsReconcile (fees : ChainFeesResponse) (args : ChainArgs)
    (response : CreateChainSwapResponse) : Prop :=
  match truthy args.receiverLockAmount, truthy args.senderLockAmount with
  | some receiver, _ => response.lockupDetails.amount.isPositive = true ∧
      response.lockupDetails.amount.le (receiver.add (fees.total receiver)) = true ∧
      (receiver.sub (fees.total receiver)).le (receiver.add fees.minerFees.user.claim) = true
  | none, some sender => sender.isFinite = true ∧ response.lockupDetails.amount = sender ∧
      (sender.sub (fees.total sender)).le response.claimDetails.amount = true
  | none, none => True

/-- A response that is kept also passes the verification, and its amounts reconcile. -/
def ChainReconciles (w : World ChainFeesResponse) (toChain : Chain) (signer : Signer)
    (secrets : ChainSecrets) (args : ChainArgs) : Prop :=
  w.saves = true → ∀ amounts request response arkInfo,
    chainRequest L w toChain signer secrets args = .ok (amounts, request) →
    w.Sends isCreateChainSwapResponse response → Echoes request response →
    w.arkInfo = some arkInfo → Usable L arkInfo →
    verifyChainSwap L toChain (chainRecord secrets args amounts request response) arkInfo =
      .ok () ∧ AmountsReconcile w.fees args response

theorem checkChainSwap_ok {w : World ChainFeesResponse} {toChain : Chain} {signer : Signer}
    {secrets : ChainSecrets} {args : ChainArgs} {swap : BoltzChainSwap} :
    checkChainSwap L w toChain signer secrets args = .ok swap ↔ ∃ amounts request response,
      chainRequest L w toChain signer secrets args = .ok (amounts, request) ∧
      w.Sends isCreateChainSwapResponse response ∧ Echoes request response ∧
      swap = chainRecord secrets args amounts request response := by
  simp only [checkChainSwap, bind_ok, pure_ok, World.ask_ok]
  constructor
  · rintro ⟨⟨amounts, request⟩, hrequest, response, hsent, _, hechoes, rfl⟩
    exact ⟨amounts, request, response, hrequest, hsent, not_not.mp (rejectIf_ok.mp hechoes), rfl⟩
  · rintro ⟨amounts, request, response, hrequest, hsent, hechoes, rfl⟩
    exact ⟨(amounts, request), hrequest, response, hsent, (),
      rejectIf_ok.mpr (not_not.mpr hechoes), rfl⟩

/-- What a request says of its amounts and keys. -/
structure RequestMade (w : World ChainFeesResponse) (toChain : Chain) (signer : Signer)
    (secrets : ChainSecrets) (args : ChainArgs) (amounts : LockAmounts)
    (request : CreateChainSwapRequest) : Prop where
  amounts_eq : lockAmounts w args = .ok amounts
  positive : amounts.amount.le (.ofNat 0) = false
  preimageHash_eq : request.preimageHash = base16.encode (L.sha256 secrets.preimage)
  refundPublicKey_eq : toChain = .BTC →
    request.refundPublicKey = base16.encode signer.compressedPublicKey
  serverLockAmount_eq : request.serverLockAmount = amounts.serverLockAmount

theorem chainRequest_ok {w : World ChainFeesResponse} {toChain : Chain} {signer : Signer}
    {secrets : ChainSecrets} {args : ChainArgs} {amounts : LockAmounts}
    {request : CreateChainSwapRequest}
    (h : chainRequest L w toChain signer secrets args = .ok (amounts, request)) :
    RequestMade L w toChain signer secrets args amounts request := by
  simp only [chainRequest, bind_ok, pure_ok, Prod.mk.injEq] at h
  obtain ⟨_, -, _, -, amounts', hamounts, _, hpositive, _, -, _, -, _, -, _, -, rfl, rfl⟩ := h
  exact ⟨hamounts, by simpa using hpositive, rfl, by rintro rfl; rfl, rfl⟩

/-- The amounts that a kept response agrees to are those that the condition speaks of. -/
theorem agreed_iff {w : World ChainFeesResponse} {toChain : Chain} {signer : Signer}
    {secrets : ChainSecrets} {args : ChainArgs} {amounts : LockAmounts}
    {request : CreateChainSwapRequest} {response : CreateChainSwapResponse}
    (hmade : RequestMade L w toChain signer secrets args amounts request)
    (hechoes : Echoes request response) :
    Agreed (chainTerms w.fees args) response.lockupDetails.amount
      (some response.claimDetails.amount) ↔ AmountsReconcile w.fees args response := by
  have hamounts := hmade.amounts_eq
  unfold lockAmounts at hamounts
  unfold chainTerms AmountsReconcile
  cases hreceiver : truthy args.receiverLockAmount with
  | some receiver =>
    simp only [hreceiver, bind_ok, pure_ok] at hamounts ⊢
    obtain ⟨_, -, rfl⟩ := hamounts
    have hecho : response.claimDetails.amount = receiver.add w.fees.minerFees.user.claim :=
      (hechoes _ hmade.serverLockAmount_eq).1
    constructor
    · intro h
      refine ⟨h.positive, h.bounded _ rfl, ?_⟩
      rw [← hecho]
      exact h.claims _ rfl _ rfl
    · rintro ⟨hpositive, hbound, hclaims⟩
      refine ⟨hpositive, ?_, ?_, ?_⟩
      · rintro most ⟨⟩
        exact hbound
      · rintro due ⟨⟩
      · rintro least ⟨⟩ amount ⟨⟩
        rw [hecho]
        exact hclaims
  | none =>
    cases hsender : truthy args.senderLockAmount with
    | none =>
      simp only [hreceiver, hsender] at hamounts
      cases hamounts
    | some sender =>
      simp only [hreceiver, hsender, pure_ok] at hamounts ⊢
      obtain rfl := hamounts
      constructor
      · intro h
        have hexact := h.exact _ rfl
        have hpositive := h.positive
        rw [hexact, Number.isPositive, Bool.and_eq_true] at hpositive
        exact ⟨hpositive.1, hexact, h.claims _ rfl _ rfl⟩
      · rintro ⟨hfinite, hexact, hclaims⟩
        refine ⟨?_, ?_, ?_, ?_⟩
        · rw [hexact]
          exact Number.isPositive_of_not_le hfinite hmade.positive
        · rintro most ⟨⟩
        · rintro due ⟨⟩
          exact hexact
        · rintro least ⟨⟩ amount ⟨⟩
          exact hclaims

theorem verifyChainSwap_ok {toChain : Chain} {swap : BoltzChainSwap} {arkInfo : ArkInfo}
    (h : verifyChainSwap L toChain swap arkInfo = .ok ()) :
    ∃ timeouts current hashBytes script, (swap.arkDetails toChain).serverPublicKey ≠ "" ∧
      (swap.arkDetails toChain).timeouts = some timeouts ∧
      serverKey arkInfo.signerPubkey = .ok current ∧
      hexDecode swap.request.preimageHash = .ok hashBytes ∧
      createVHTLCScript L (chainLockupArgs toChain swap arkInfo.network hashBytes timeouts)
        current = .ok (script, (swap.arkDetails toChain).lockupAddress) ∧
      verifyBtcChainHtlc L toChain swap arkInfo.network = .ok () := by
  simp only [verifyChainSwap, bind_ok] at h
  obtain ⟨_, hserver, h⟩ := h
  split at h
  · cases h
  · next timeouts htimeouts =>
    simp only [bind_ok] at h
    obtain ⟨current, hcurrent, hashBytes, hhash, ⟨script, address⟩, hcreate, _, haddress,
      hverify⟩ := h
    obtain rfl := not_not.mp (rejectIf_ok.mp haddress)
    exact ⟨timeouts, current, hashBytes, script, rejectIf_ok.mp hserver, htimeouts, hcurrent, hhash,
      hcreate, hverify⟩

theorem usable_of_verify {toChain : Chain} {swap : BoltzChainSwap} {arkInfo : ArkInfo}
    (h : verifyChainSwap L toChain swap arkInfo = .ok ()) : Usable L arkInfo := by
  obtain ⟨_, current, _, _, -, -, hcurrent, -, hcreate, -⟩ := verifyChainSwap_ok L h
  obtain ⟨_, _, _, -, -, -, hlockup⟩ := (createVHTLCScript_ok L).mp hcreate
  obtain ⟨hrp, hhrp, -⟩ := (lockupScript_ok L hlockup).2.address_eq
  exact ⟨⟨current, hcurrent⟩, hrp, hhrp⟩

/-- What was verified on the way to Bitcoin is what a refund rebuilds from the record. -/
theorem arkLockup_of_verify {signer : Signer} {secrets : ChainSecrets} {arkInfo : ArkInfo}
    {swap : BoltzChainSwap} (hverify : verifyChainSwap L .BTC swap arkInfo = .ok ())
    (hhash : swap.request.preimageHash = base16.encode (L.sha256 secrets.preimage))
    (hkey : swap.request.refundPublicKey = base16.encode signer.compressedPublicKey) :
    ArkLockup L signer secrets arkInfo swap swap.response.lockupDetails.lockupAddress := by
  intro candidates hcandidates
  obtain ⟨timeouts, current, hashBytes, script, hserver, htimeouts, hcurrent, hbytes, hcreate, -⟩ :=
    verifyChainSwap_ok L hverify
  obtain rfl : hashBytes = L.sha256 secrets.preimage := by
    rw [hhash, hexDecode_encode] at hbytes
    cases hbytes
    rfl
  obtain ⟨boltz, _, _, hboltz, -, -, -⟩ := (createVHTLCScript_ok L).mp hcreate
  have hown : KeyText swap.request.refundPublicKey signer.xOnlyPublicKey := by
    rw [hkey]
    exact keyText_signer signer
  have hours : normalizeToXOnlyKey signer.xOnlyPublicKey "user" swap.id =
      .ok signer.xOnlyPublicKey := normalizeToXOnlyKey_ok.mpr (.inr ⟨signer.length_xOnly, rfl⟩)
  have hsame := createVHTLCScript_rekey L hcreate hboltz hown
  obtain ⟨resolved, hresolved⟩ : ∃ resolved, resolveVHTLCForLockup L arkInfo _
      swap.response.lockupDetails.lockupAddress swap.id = .ok resolved :=
    resolveVHTLCForLockup_current L hcandidates hcurrent hsame
  obtain ⟨boltzBytes, hdecode, hnormal⟩ := hboltz
  have hserver : ¬swap.response.lockupDetails.serverPublicKey = "" := hserver
  have htimeouts : swap.response.lockupDetails.timeouts = some timeouts := htimeouts
  refine ⟨_, resolved, ?_, ?_, ?_, resolveVHTLCForLockup_ok L ?_ hresolved⟩
  · simp only [refundArkLockup, htimeouts, bind_ok]
    exact ⟨(), rejectIf_ok.mpr hserver, _, hours, _, hdecode, _, hnormal _ _, _, hbytes, hresolved⟩
  · rfl
  · exact htimeouts
  · exact keyText_encode signer.length_xOnly

/-- What was verified on the way to Arkade is a contract of the own ephemeral key. -/
theorem btcLockup_of_verify {secrets : ChainSecrets} {arkInfo : ArkInfo} {swap : BoltzChainSwap}
    (hverify : verifyChainSwap L .ARK swap arkInfo = .ok ())
    (hhash : swap.request.preimageHash = base16.encode (L.sha256 secrets.preimage))
    (hkey : swap.ephemeralKey = base16.encode secrets.ephemeralKey) :
    BtcLockup L secrets arkInfo swap swap.response.lockupDetails.lockupAddress := by
  obtain ⟨_, _, _, _, -, -, -, -, -, hbtc⟩ := verifyChainSwap_ok L hverify
  simp only [verifyBtcChainHtlc, BoltzChainSwap.btcDetails] at hbtc
  split at hbtc
  · cases hbtc
  · next parsed hparsed =>
    simp only [bind_ok, hkey, hhash, hexDecode_encode] at hbtc
    obtain ⟨_, -, hrp, -, swapTree, htree, _, ⟨⟩, boltzPub, hboltz, aggPubkey, hagg, expected,
      hexpected, script, hscript, _, hsame, boltzXOnly, -, userXOnly, huser, _, ⟨⟩, hleaves⟩ := hbtc
    obtain rfl := not_not.mp (rejectIf_ok.mp hsame)
    split at hleaves
    · cases hleaves
    · next hassert =>
      obtain ⟨hclaim, timeout, hrefund, htimeout⟩ := assertChainHtlcLeaves_ok L hassert
      exact ⟨parsed, swapTree, boltzPub, aggPubkey, script, timeout, userXOnly, hparsed, htree,
        hagg, hscript, hexpected, huser, ⟨boltzXOnly, hclaim⟩, hrefund, htimeout⟩

theorem chainCorridor_ok {w : World ChainFeesResponse} {toChain : Chain} {signer : Signer}
    {secrets : ChainSecrets} {args : ChainArgs} {r : ChainResponse} :
    (chainCorridor L w toChain signer secrets args).result = .ok r ↔ ∃ swap arkInfo,
      (createChainSwap L w toChain signer secrets args).result = .ok swap ∧
      w.arkInfo = some arkInfo ∧ verifyChainSwap L toChain swap arkInfo = .ok () ∧
      r = ⟨swap.response.lockupDetails.amount, swap.response.lockupDetails.lockupAddress,
        swap⟩ := by
  unfold chainCorridor
  cases hcreated : (createChainSwap L w toChain signer secrets args).result with
  | error error => simp [hcreated]
  | ok swap =>
    cases hinfo : w.arkInfo with
    | none => simp [hcreated, World.getInfo, hinfo]
    | some arkInfo =>
      cases hverify : verifyChainSwap L toChain swap arkInfo with
      | error error => simp [hcreated, World.getInfo, hinfo, hverify]
      | ok u =>
        simp only [hcreated, World.getInfo, hinfo, hverify, Except.ok.injEq, Option.some.injEq]
        constructor
        · rintro rfl
          exact ⟨swap, arkInfo, rfl, rfl, hverify, rfl⟩
        · rintro ⟨_, _, rfl, rfl, -, rfl⟩
          rfl

theorem chainCorridor_error {w : World ChainFeesResponse} {toChain : Chain} {signer : Signer}
    {secrets : ChainSecrets} {args : ChainArgs} {error : Message}
    (h : (chainCorridor L w toChain signer secrets args).result = .error error) :
    (chainCorridor L w toChain signer secrets args).stored =
        (createChainSwap L w toChain signer secrets args).stored ∧
      (chainCorridor L w toChain signer secrets args).monitored =
        (createChainSwap L w toChain signer secrets args).monitored := by
  unfold chainCorridor at h ⊢
  cases hcreated : (createChainSwap L w toChain signer secrets args).result with
  | error error => simp [hcreated]
  | ok swap =>
    cases hinfo : w.getInfo with
    | error error => simp [hcreated]
    | ok arkInfo =>
      cases hverify : verifyChainSwap L toChain swap arkInfo with
      | error error => simp [hcreated, hverify]
      | ok u => simp [hcreated, hinfo, hverify] at h

theorem chainCorridor_binds (w : World ChainFeesResponse) (toChain : Chain) (signer : Signer)
    (secrets : ChainSecrets) (args : ChainArgs) :
    Binds (chainCorridor L w toChain signer secrets args)
        (ChainBound L w toChain signer secrets args)
        (∃ arkInfo, w.arkInfo = some arkInfo ∧ Usable L arkInfo) ↔
      ChainReconciles L w toChain signer secrets args := by
  constructor
  · intro h hsaves amounts request response arkInfo hrequest hsent hechoes hinfo husable
    have hcreated : (createChainSwap L w toChain signer secrets args).result = .ok _ :=
      World.save_ok.mpr ⟨(checkChainSwap_ok L).mpr
        ⟨amounts, request, response, hrequest, hsent, hechoes, rfl⟩, hsaves⟩
    cases hresult : (chainCorridor L w toChain signer secrets args).result with
    | error error =>
      obtain ⟨hstored, -⟩ := h.thrown error hresult ⟨arkInfo, hinfo, husable⟩
      rw [(chainCorridor_error L hresult).1, createChainSwap, World.save_stored hcreated] at hstored
      cases hstored
    | ok r =>
      obtain ⟨swap, arkInfo', hcreated', hinfo', hverify, rfl⟩ := (chainCorridor_ok L).mp hresult
      rw [hcreated] at hcreated'
      cases hcreated'
      rw [hinfo] at hinfo'
      cases hinfo'
      exact ⟨hverify, (agreed_iff L (chainRequest_ok L hrequest) hechoes).mp
        (h.returned _ hresult).agreed⟩
  · intro h
    constructor
    · intro r hresult
      obtain ⟨swap, arkInfo, hcreated, hinfo, hverify, rfl⟩ := (chainCorridor_ok L).mp hresult
      obtain ⟨hchecked, hsaves⟩ := World.save_ok.mp hcreated
      obtain ⟨amounts, request, response, hrequest, hsent, hechoes, rfl⟩ :=
        (checkChainSwap_ok L).mp hchecked
      obtain ⟨-, hreconcile⟩ := h hsaves amounts request response arkInfo hrequest hsent hechoes
        hinfo (usable_of_verify L hverify)
      have hmade := chainRequest_ok L hrequest
      refine ⟨(agreed_iff L hmade hechoes).mpr hreconcile, arkInfo, hinfo, ?_⟩
      have hhash := hmade.preimageHash_eq
      cases toChain with
      | BTC =>
        have hkey := hmade.refundPublicKey_eq rfl
        exact arkLockup_of_verify L hverify hhash hkey
      | ARK => exact btcLockup_of_verify L hverify hhash rfl
    · rintro error hresult ⟨arkInfo, hinfo, husable⟩
      obtain ⟨hstored, hmonitored⟩ := chainCorridor_error L hresult
      rw [hstored, hmonitored]
      cases hcreated : (createChainSwap L w toChain signer secrets args).result with
      | error error => exact World.save_error hcreated
      | ok swap =>
        obtain ⟨hchecked, hsaves⟩ := World.save_ok.mp hcreated
        obtain ⟨amounts, request, response, hrequest, hsent, hechoes, rfl⟩ :=
          (checkChainSwap_ok L).mp hchecked
        obtain ⟨hverify, -⟩ := h hsaves amounts request response arkInfo hrequest hsent hechoes
          hinfo husable
        have hok := (chainCorridor_ok L).mpr ⟨_, arkInfo, hcreated, hinfo, hverify, rfl⟩
        rw [hok] at hresult
        cases hresult

/-- Which responses keep each of the four creations to its request. -/
theorem creation_binds :
    (∀ w signer preimage args, Binds (createReverseSwap L w signer preimage args)
      (ReverseBound L w signer preimage args) True ↔ ReverseReconciles L w preimage args) ∧
    (∀ w signer invoice, Binds (createSubmarineSwap L w signer invoice)
      (SubmarineBound L w signer invoice) True ↔ SubmarineReconciles L w signer invoice) ∧
    (∀ w signer secrets args, Binds (arkToBtc L w signer secrets args)
      (ChainBound L w .BTC signer secrets args)
      (∃ arkInfo, w.arkInfo = some arkInfo ∧ Usable L arkInfo) ↔
        ChainReconciles L w .BTC signer secrets args) ∧
    (∀ w signer secrets args, Binds (btcToArk L w signer secrets args)
      (ChainBound L w .ARK signer secrets args)
      (∃ arkInfo, w.arkInfo = some arkInfo ∧ Usable L arkInfo) ↔
        ChainReconciles L w .ARK signer secrets args) :=
  ⟨createReverseSwap_binds L, createSubmarineSwap_binds L,
    fun w ↦ chainCorridor_binds L w .BTC, fun w ↦ chainCorridor_binds L w .ARK⟩

/-- Every invoice is for a million satoshis. -/
def dearLibraries : SwapLibraries (List Bytes) where
  toLibraries := standardLibraries
  tweak _ _ := .error (message "no covenant")
  vtxoScript leaves := .ok leaves
  sha256 _ := List.replicate 32 5
  ripemd160 b := b.take 20
  bolt11 _ := .ok ⟨some 1000000000, some (base16.encode (List.replicate 32 5))⟩
  hrp _ := some "ark"
  arkAddress _ hrp _ := hrp
  getPublicKey key := 2 :: key
  aggPubkey _ _ _ := .error (message "invalid public key")
  outScript _ _ := .error (message "Unknown address format")

def ownSigner : Signer := ⟨2 :: List.replicate 32 7, rfl⟩

def dearResponse : Value :=
  .object [("id", .string "swap"), ("invoice", .string "lnbc10m1"),
    ("onchainAmount", .number (.ofNat 1))]

def dearWorld : World ReverseFees where
  response := some dearResponse
  arkInfo := none
  fees := ⟨.ofNat 0, .ofNat 0, .ofNat 0⟩
  feesReachable := true
  saves := true
  swapManager := true

/-- The details of a side, without a key to rebuild it from. -/
def keylessDetails : Value :=
  .object [("amount", .number (.ofNat 1000)), ("lockupAddress", .string "ark1"),
    ("serverPublicKey", .string ""), ("timeoutBlockHeight", .number (.ofNat 144))]

def keylessWorld : World ChainFeesResponse where
  response := some (.object [("id", .string "swap"), ("claimDetails", keylessDetails),
    ("lockupDetails", keylessDetails)])
  arkInfo := some ⟨"bitcoin", base16.encode (List.replicate 32 9), []⟩
  fees := ⟨.ofNat 0, .ofNat 0, .ofNat 0, .ofNat 0⟩
  feesReachable := true
  saves := true
  swapManager := true

def thousandOut : ChainArgs where
  toAddress := "bc1q"
  feeSatsPerByte := none
  senderLockAmount := some (.ofNat 1000)
  receiverLockAmount := none

/-- A request for a thousand satoshis returns an invoice for a million, and a swap that fails its
verification stays in storage and with the manager. -/
theorem unasked_invoice_returned :
    ¬Binds (createReverseSwap dearLibraries dearWorld ownSigner [] ⟨.ofNat 1000, none⟩)
      (ReverseBound dearLibraries dearWorld ownSigner [] ⟨.ofNat 1000, none⟩) True ∧
    ¬Binds (arkToBtc dearLibraries keylessWorld ownSigner ⟨[], List.replicate 32 3⟩ thousandOut)
      (ChainBound dearLibraries keylessWorld .BTC ownSigner ⟨[], List.replicate 32 3⟩ thousandOut)
      (∃ arkInfo, keylessWorld.arkInfo = some arkInfo ∧ Usable dearLibraries arkInfo) := by
  constructor
  · intro h
    have hexact := (((createReverseSwap_binds _ _ _ _ _).mp h) rfl _ _
      { amount := by decide
        hash_ne := by decide
        descriptionHash := rfl
        sent := ⟨_, rfl, rfl⟩
        invoice := rfl
        hash := rfl
        onchainAmount := by simp }).1
    have hne : Sections.satoshis ⟨some 1000000000, some (base16.encode (List.replicate 32 5))⟩ ≠
        .ofNat 1000 := by
      simp only [Sections.satoshis, Number.ofNat, ne_eq, Number.finite.injEq]
      norm_num
    exact hne hexact
  · intro h
    have hverify := (((chainCorridor_binds _ _ _ _ _ _).mp h) rfl _ _ _ _ rfl ⟨_, rfl, rfl⟩
      (by rintro _ ⟨⟩) rfl ⟨⟨_, rfl⟩, _, rfl⟩).1
    cases hverify

end ArkadeSdk.SwapCreation
