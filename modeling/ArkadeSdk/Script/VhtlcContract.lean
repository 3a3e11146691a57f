import ArkadeSdk.Arkade.Program
import ArkadeSdk.Lib.JsCoercion
import ArkadeSdk.Script.Covenant

/-! The covenant of a lockup, and the text parameters that its contract row keeps. -/

namespace ArkadeSdk.VHTLC

open WireFormat JsNumber BtcScript ScriptCoder HexCodec

variable {Tree : Type} (L : ProgramLibraries Tree)

def preimageConditionScriptV2 (preimageHash : Bytes) : Except Message Bytes :=
  ScriptCoder.encode L.OP
    [.op "SIZE", .num 32, .op "EQUALVERIFY", .op "HASH160", .data preimageHash, .op "EQUAL"]

structure ScriptV2 (Tree : Type) where
  options : Options
  vtxoScript : Tree

/-- A leaf under a covenant: the co-signer's key is tweaked by the script. -/
def covenantKey (emulatorPubkey destination : Bytes) (asset : Option Asset)
    (strict : Option Strict) : Except Message Bytes := do
  let arkadeScript ← enforcePayToMaybeAsset L.OP destination asset strict
  computeArkadeScriptPublicKey L emulatorPubkey arkadeScript

def claimLeaf (options : Options) (conditionScript : Bytes) : Except Message (List Bytes) :=
  match options.nonInteractiveClaim with
  | none => .ok []
  | some claim => do
    let key ← covenantKey L claim.emulatorPubkey claim.receiverPkScript options.asset claim.strict
    let leaf ← ConditionMultisigTapscript.encode L.toLibraries
      ⟨⟨[options.server, key], none⟩, conditionScript⟩
    return [leaf.script]

def refundLeaf (options : Options) : Except Message (List Bytes) :=
  match options.nonInteractiveRefund with
  | none => .ok []
  | some refund => do
    let key ← covenantKey L refund.emulatorPubkey refund.senderPkScript options.asset none
    let leaf ← MultisigTapscript.encode L.toLibraries
      ⟨[options.server, options.receiver, key], none⟩
    return [leaf.script]

/-- The constructor. -/
def ScriptV2.new (options : Options) : Except Message (ScriptV2 Tree) := do
  validateOptions options
  let conditionScript ← preimageConditionScriptV2 L options.preimageHash
  let claim ← ConditionMultisigTapscript.encode L.toLibraries
    ⟨⟨[options.receiver, options.server], none⟩, conditionScript⟩
  let refund ← MultisigTapscript.encode L.toLibraries
    ⟨[options.sender, options.receiver, options.server], none⟩
  let refundWithoutReceiver ← CLTVMultisigTapscript.encode L.toLibraries
    ⟨⟨[options.sender, options.server], none⟩, options.refundLocktime⟩
  let unilateralClaim ← ConditionCSVMultisigTapscript.encode L.toLibraries
    ⟨⟨⟨[options.receiver], none⟩, options.unilateralClaimDelay⟩, conditionScript⟩
  let unilateralRefund ← CSVMultisigTapscript.encode L.toLibraries
    ⟨⟨[options.sender, options.receiver], none⟩, options.unilateralRefundDelay⟩
  let unilateralRefundWithoutReceiver ← CSVMultisigTapscript.encode L.toLibraries
    ⟨⟨[options.sender], none⟩, options.unilateralRefundWithoutReceiverDelay⟩
  let nonInteractiveClaim ← claimLeaf L options conditionScript
  let nonInteractiveRefund ← refundLeaf L options
  let vtxoScript ← L.vtxoScript ([claim.script, refund.script, refundWithoutReceiver.script,
    unilateralClaim.script, unilateralRefund.script, unilateralRefundWithoutReceiver.script] ++
    nonInteractiveClaim ++ nonInteractiveRefund)
  return ⟨options, vtxoScript⟩

/-- A row's `params`. -/
abbrev Params := List (String × String)

/-- How the language prints a number. -/
structure Printer where
  text : Number → String
  text_ofNat : ∀ n : ℕ, n < 10 ^ 21 → text (.ofNat n) = Decimal.toText n

variable (print : Printer)

def claimParams (claim : NonInteractiveClaim) : Params :=
  [("nonInteractiveClaimReceiverPkScript", base16.encode claim.receiverPkScript),
    ("nonInteractiveClaimEmulatorPubkey", base16.encode claim.emulatorPubkey)] ++
  match claim.strict with
  | none => []
  | some strict => ("strictClaimAmount", Decimal.toText strict.amount) ::
      match strict.assetAmount with
      | none => []
      | some assetAmount => [("strictClaimAssetAmount", Decimal.toText assetAmount)]

def refundParams (refund : NonInteractiveRefund) : Params :=
  [("nonInteractiveRefundSenderPkScript", base16.encode refund.senderPkScript),
    ("nonInteractiveRefundEmulatorPubkey", base16.encode refund.emulatorPubkey)]

def assetParams (asset : Asset) : Params :=
  [("assetTxid", base16.encode asset.txid), ("assetGroupIndex", print.text asset.groupIndex)]

/-- The fields that every row has; the delays are sequence numbers by then. -/
def baseParams (params : Options) (claimDelay refundDelay refundNoReceiverDelay : ℕ) : Params :=
  [("sender", base16.encode params.sender), ("receiver", base16.encode params.receiver),
    ("server", base16.encode params.server), ("hash", base16.encode params.preimageHash),
    ("refundLocktime", Decimal.toText params.refundLocktime),
    ("claimDelay", Decimal.toText claimDelay), ("refundDelay", Decimal.toText refundDelay),
    ("refundNoReceiverDelay", Decimal.toText refundNoReceiverDelay)]

def serializeParams (params : Options) : Except Message Params := do
  let claimDelay ← timelockToSequence L.toLibraries params.unilateralClaimDelay
  let refundDelay ← timelockToSequence L.toLibraries params.unilateralRefundDelay
  let refundNoReceiverDelay ← timelockToSequence L.toLibraries
    params.unilateralRefundWithoutReceiverDelay
  return baseParams params claimDelay refundDelay refundNoReceiverDelay ++
    (params.nonInteractiveClaim.map claimParams).getD [] ++
    (params.nonInteractiveRefund.map refundParams).getD [] ++
    (params.asset.map (assetParams print)).getD []

def decodeHex (text : Option String) : Except Message Bytes :=
  match text.bind base16.decode with
  | some bytes => .ok bytes
  | none => .error (message "hex.decode: invalid input")

/-- `Number(text)`, as bit operations read it. -/
def toSequence (text : Option String) : ℤ :=
  match text.map JsCoercion.stringToNumber with
  | some (.finite q) => Number.trunc q
  | _ => 0

def bigIntParam (text : Option String) : Except Message ℤ :=
  match text with
  | some text => JsCoercion.textToBigInt text
  | none => .error JsCoercion.notBigInt

/-- `/^(0|[1-9][0-9]*)$/`. -/
def isCanonical (raw : String) : Bool :=
  match raw.toList with
  | [] => false
  | ['0'] => true
  | c :: cs => ('1' ≤ c && c ≤ '9') && cs.all fun d ↦ '0' ≤ d && d ≤ '9'

def parseGroupIndex (raw : String) : Except Message Number :=
  if isCanonical raw then .ok (JsCoercion.stringToNumber raw)
  else .error (message ("assetGroupIndex must be a canonical decimal integer, got " ++ raw))

/-- Both halves of a leaf, or neither. A blank text counts as missing. -/
def decodeCovenantLeaf (params : Params) (destinationKey emulatorKey label : String) :
    Except Message (Option (Bytes × Bytes)) :=
  match (params.lookup destinationKey).filter (· ≠ ""),
      (params.lookup emulatorKey).filter (· ≠ "") with
  | none, none => .ok none
  | some destination, some emulator => do
    let destination ← decodeHex (some destination)
    let emulator ← decodeHex (some emulator)
    return some (destination, emulator)
  | _, _ => .error (message (label ++ " needs both '" ++ destinationKey ++ "' and '" ++
      emulatorKey ++ "', or neither"))

def decodeAsset (params : Params) : Except Message (Option Asset) :=
  match params.lookup "assetTxid", params.lookup "assetGroupIndex" with
  | some txid, some groupIndex => do
    let txid ← decodeHex (some txid)
    let groupIndex ← parseGroupIndex groupIndex
    return some ⟨txid, groupIndex⟩
  | _, _ => .ok none

def decodeStrict (params : Params) : Except Message (Option Strict) :=
  match params.lookup "strictClaimAmount" with
  | none => .ok none
  | some amount => do
    let amount ← bigIntParam (some amount)
    match params.lookup "strictClaimAssetAmount" with
    | none => return some ⟨amount, none⟩
    | some assetAmount => do
      let assetAmount ← bigIntParam (some assetAmount)
      return some ⟨amount, some assetAmount⟩

def decodeClaim (params : Params) (claim : Option (Bytes × Bytes)) :
    Except Message (Option NonInteractiveClaim) :=
  match claim with
  | none => .ok none
  | some (destination, emulatorPubkey) => do
    let strict ← decodeStrict params
    return some ⟨destination, emulatorPubkey, strict⟩

def deserializeParams (params : Params) : Except Message Options := do
  let claim ← decodeCovenantLeaf params "nonInteractiveClaimReceiverPkScript"
    "nonInteractiveClaimEmulatorPubkey" "nonInteractiveClaim"
  let refund ← decodeCovenantLeaf params "nonInteractiveRefundSenderPkScript"
    "nonInteractiveRefundEmulatorPubkey" "nonInteractiveRefund"
  rejectIf ((params.lookup "assetTxid").isSome ≠ (params.lookup "assetGroupIndex").isSome)
    (message ("asset params are incomplete: assetTxid and assetGroupIndex must both be present " ++
      "or both absent"))
  rejectIf ((params.lookup "strictClaimAssetAmount").isSome ∧
      (params.lookup "strictClaimAmount").isNone)
    (message ("strictClaimAssetAmount without strictClaimAmount: reading this as 'not strict' " ++
      "would re-derive the default claim covenant, which is weaker than the row asked for"))
  let asset ← decodeAsset params
  let sender ← decodeHex (params.lookup "sender")
  let receiver ← decodeHex (params.lookup "receiver")
  let server ← decodeHex (params.lookup "server")
  let preimageHash ← decodeHex (params.lookup "hash")
  let refundLocktime ← bigIntParam (params.lookup "refundLocktime")
  let unilateralClaimDelay ← sequenceToTimelock L.toLibraries
    (toSequence (params.lookup "claimDelay"))
  let unilateralRefundDelay ← sequenceToTimelock L.toLibraries
    (toSequence (params.lookup "refundDelay"))
  let unilateralRefundWithoutReceiverDelay ← sequenceToTimelock L.toLibraries
    (toSequence (params.lookup "refundNoReceiverDelay"))
  let nonInteractiveClaim ← decodeClaim params claim
  let nonInteractiveRefund := refund.map fun r ↦ NonInteractiveRefund.mk r.1 r.2
  return ⟨sender, receiver, server, preimageHash, refundLocktime, unilateralClaimDelay,
    unilateralRefundDelay, unilateralRefundWithoutReceiverDelay, nonInteractiveClaim,
    nonInteractiveRefund, asset⟩

def createScript (params : Params) : Except Message (ScriptV2 Tree) := do
  let typed ← deserializeParams L params
  ScriptV2.new L typed

theorem toSequence_toText {n : ℕ} (h : n < 2 ^ 53) : toSequence (some (Decimal.toText n)) = n := by
  simp only [toSequence, Option.map_some, JsCoercion.stringToNumber_toText h, Number.ofNat]
  exact Number.trunc_natCast n

theorem decodeHex_encode (b : Bytes) : decodeHex (some (base16.encode b)) = .ok b := by
  simp [decodeHex]

theorem bigIntParam_toText (z : ℤ) : bigIntParam (some (Decimal.toText z)) = .ok z := by
  simp [bigIntParam, JsCoercion.textToBigInt]

theorem filter_encode {b : Bytes} (h : b ≠ []) :
    (some (base16.encode b)).filter (· ≠ "") = some (base16.encode b) := by
  have hne : base16.encode b ≠ "" := fun he ↦ h ((base16.encode_eq_empty).mp he)
  simp [Option.filter, hne]

theorem digits_of_pos {n : ℕ} (hn : n ≠ 0) : ∃ c cs, Decimal.digits n = c :: cs ∧
    ('1' ≤ c ∧ c ≤ '9') ∧ ∀ d ∈ cs, '0' ≤ d ∧ d ≤ '9' := by
  have hne : Nat.digits 10 n ≠ [] := Nat.digits_ne_nil_iff_ne_zero.mpr hn
  have hlast := Nat.getLast_digit_ne_zero 10 hn
  have hlt : ∀ d ∈ Nat.digits 10 n, d < 10 := fun d hd ↦ Nat.digits_lt_base (by decide) hd
  have hrange : ∀ d < 10, '0' ≤ digit d ∧ digit d ≤ '9' ∧ (d ≠ 0 → '1' ≤ digit d) := by decide
  have hsplit := List.dropLast_append_getLast hne
  obtain ⟨-, hle, hpos⟩ := hrange _ (hlt _ (List.getLast_mem hne))
  refine ⟨digit ((Nat.digits 10 n).getLast hne),
    ((Nat.digits 10 n).dropLast.map digit).reverse, ?_, ⟨hpos hlast, hle⟩, fun d hd ↦ ?_⟩
  · have hrev := congrArg (fun ds ↦ (ds.map digit).reverse) hsplit
    simp only [List.map_append, List.map_cons, List.map_nil, List.reverse_append,
      List.reverse_singleton, List.singleton_append] at hrev
    rw [Decimal.digits, if_neg hn, ← hrev]
  · obtain ⟨e, he, rfl⟩ := List.mem_map.mp (List.mem_reverse.mp hd)
    obtain ⟨hlow, hhigh, -⟩ := hrange e (hlt e (List.mem_of_mem_dropLast he))
    exact ⟨hlow, hhigh⟩

theorem isCanonical_cons {s : String} {c : Char} {cs : List Char} (hs : s.toList = c :: cs)
    (hc : '1' ≤ c ∧ c ≤ '9') (hcs : ∀ d ∈ cs, '0' ≤ d ∧ d ≤ '9') : isCanonical s = true := by
  rw [isCanonical, hs]
  split
  · rename_i heq
    cases heq
  · rfl
  · rename_i heq
    cases heq
    simpa [hc.1, hc.2] using hcs

theorem isCanonical_toText (n : ℕ) : isCanonical (Decimal.toText n) = true := by
  have htext : (Decimal.toText n).toList = Decimal.digits n := by
    have hnonneg : ¬(n : ℤ) < 0 := by omega
    rw [Decimal.toText, if_neg hnonneg, String.toList_ofList, Int.natAbs_natCast]
  by_cases hn : n = 0
  · subst hn
    rfl
  · obtain ⟨c, cs, hdigits, hc, hcs⟩ := digits_of_pos hn
    exact isCanonical_cons (htext.trans hdigits) hc hcs

theorem parseGroupIndex_text {n : ℕ} (h : n ≤ 0xffff) :
    parseGroupIndex (print.text (.ofNat n)) = .ok (.ofNat n) := by
  rw [print.text_ofNat n (by omega), parseGroupIndex, if_pos (isCanonical_toText n),
    JsCoercion.stringToNumber_toText (by omega)]

def rowOf (options : Options) (claimDelay refundDelay refundNoReceiverDelay : ℕ) : Params :=
  baseParams options claimDelay refundDelay refundNoReceiverDelay ++
    (options.nonInteractiveClaim.map claimParams).getD [] ++
    (options.nonInteractiveRefund.map refundParams).getD [] ++
    (options.asset.map (assetParams print)).getD []

section Lookup

variable (options : Options) (c r n : ℕ)

theorem lookup_row (key : String) : (rowOf print options c r n).lookup key =
    ((((baseParams options c r n).lookup key).or
      (options.nonInteractiveClaim.bind fun claim ↦ (claimParams claim).lookup key)).or
      (options.nonInteractiveRefund.bind fun refund ↦ (refundParams refund).lookup key)).or
      (options.asset.bind fun asset ↦ (assetParams print asset).lookup key) := by
  simp only [rowOf, List.lookup_append]
  cases options.nonInteractiveClaim <;> cases options.nonInteractiveRefund <;>
    cases options.asset <;> rfl

theorem lookup_claimParams {key : String} (claim : NonInteractiveClaim)
    (h : key ∉ ["nonInteractiveClaimReceiverPkScript", "nonInteractiveClaimEmulatorPubkey",
      "strictClaimAmount", "strictClaimAssetAmount"]) : (claimParams claim).lookup key = none := by
  obtain ⟨receiverPkScript, emulatorPubkey, strict⟩ := claim
  simp only [List.mem_cons, List.not_mem_nil, or_false, not_or] at h
  match strict with
  | none => simp [claimParams, List.lookup_cons, beq_false_of_ne, h]
  | some ⟨amount, none⟩ => simp [claimParams, List.lookup_cons, beq_false_of_ne, h]
  | some ⟨amount, some assetAmount⟩ => simp [claimParams, List.lookup_cons, beq_false_of_ne, h]

end Lookup

variable {L print}

theorem validateEmulator_ok {emulatorPubkey pkScript : Bytes}
    (h : validateEmulator emulatorPubkey pkScript = .ok ()) :
    emulatorPubkey ≠ [] ∧ pkScript ≠ [] := by
  obtain ⟨hkey, hscript⟩ := then_ok.mp h
  have hkey := rejectIf_ok.mp hkey
  have hscript := rejectIf_ok.mp hscript
  constructor
  · rintro rfl
    simp at hkey
  · rintro rfl
    simp [isP2trPkScript] at hscript

theorem validateOptions_leaves {options : Options} (h : validateOptions options = .ok ()) :
    (∀ claim ∈ options.nonInteractiveClaim,
      claim.emulatorPubkey ≠ [] ∧ claim.receiverPkScript ≠ []) ∧
    ∀ refund ∈ options.nonInteractiveRefund,
      refund.emulatorPubkey ≠ [] ∧ refund.senderPkScript ≠ [] := by
  obtain ⟨-, h⟩ := then_ok.mp h
  obtain ⟨-, h⟩ := then_ok.mp h
  cases hclaim : options.nonInteractiveClaim with
  | none =>
    cases hrefund : options.nonInteractiveRefund with
    | none => simp
    | some refund =>
      simp only [hclaim, hrefund, Option.bind_none] at h
      obtain ⟨hemulator, -⟩ := then_ok.mp h
      simpa using validateEmulator_ok hemulator
  | some claim =>
    cases hstrict : claim.strict with
    | none =>
      simp only [hclaim, Option.bind_some, hstrict] at h
      obtain ⟨hemulator, h⟩ := then_ok.mp h
      cases hrefund : options.nonInteractiveRefund with
      | none => simpa using validateEmulator_ok hemulator
      | some refund =>
        simp only [hrefund] at h
        obtain ⟨hrefund, -⟩ := then_ok.mp h
        simpa using ⟨validateEmulator_ok hemulator, validateEmulator_ok hrefund⟩
    | some strict =>
      simp only [hclaim, Option.bind_some, hstrict] at h
      obtain ⟨-, h⟩ := then_ok.mp h
      obtain ⟨hemulator, h⟩ := then_ok.mp h
      cases hrefund : options.nonInteractiveRefund with
      | none => simpa using validateEmulator_ok hemulator
      | some refund =>
        simp only [hrefund] at h
        obtain ⟨hrefund, -⟩ := then_ok.mp h
        simpa using ⟨validateEmulator_ok hemulator, validateEmulator_ok hrefund⟩

theorem decodeCovenantLeaf_some {params : Params} {destinationKey emulatorKey label : String}
    {destination emulator : Bytes} (hd : destination ≠ []) (he : emulator ≠ [])
    (hdest : params.lookup destinationKey = some (base16.encode destination))
    (hemu : params.lookup emulatorKey = some (base16.encode emulator)) :
    decodeCovenantLeaf params destinationKey emulatorKey label =
      .ok (some (destination, emulator)) := by
  unfold decodeCovenantLeaf
  simp only [hdest, hemu, filter_encode hd, filter_encode he, decodeHex_encode]
  rfl

theorem decodeCovenantLeaf_none {params : Params} {destinationKey emulatorKey : String}
    (label : String) (hdest : params.lookup destinationKey = none)
    (hemu : params.lookup emulatorKey = none) :
    decodeCovenantLeaf params destinationKey emulatorKey label = .ok none := by
  simp [decodeCovenantLeaf, hdest, hemu]

section Row

variable {options : Options} {c r n : ℕ}

theorem decodeClaimLeaf_row (hvalid : validateOptions options = .ok ()) :
    decodeCovenantLeaf (rowOf print options c r n) "nonInteractiveClaimReceiverPkScript"
      "nonInteractiveClaimEmulatorPubkey" "nonInteractiveClaim" =
      .ok (options.nonInteractiveClaim.map fun claim ↦
        (claim.receiverPkScript, claim.emulatorPubkey)) := by
  cases hclaim : options.nonInteractiveClaim with
  | none =>
    apply decodeCovenantLeaf_none
    · rw [lookup_row, hclaim]
      cases options.nonInteractiveRefund <;> cases options.asset <;> rfl
    · rw [lookup_row, hclaim]
      cases options.nonInteractiveRefund <;> cases options.asset <;> rfl
  | some claim =>
    obtain ⟨hemulator, hdestination⟩ := (validateOptions_leaves hvalid).1 claim hclaim
    apply decodeCovenantLeaf_some hdestination hemulator
    · rw [lookup_row, hclaim]
      rfl
    · rw [lookup_row, hclaim]
      rfl

theorem decodeRefundLeaf_row (hvalid : validateOptions options = .ok ()) :
    decodeCovenantLeaf (rowOf print options c r n) "nonInteractiveRefundSenderPkScript"
      "nonInteractiveRefundEmulatorPubkey" "nonInteractiveRefund" =
      .ok (options.nonInteractiveRefund.map fun refund ↦
        (refund.senderPkScript, refund.emulatorPubkey)) := by
  have hclaim : ∀ key ∈ ["nonInteractiveRefundSenderPkScript",
      "nonInteractiveRefundEmulatorPubkey"],
      (options.nonInteractiveClaim.bind fun claim ↦ (claimParams claim).lookup key) = none := by
    intro key hkey
    cases options.nonInteractiveClaim with
    | none => rfl
    | some claim =>
      exact lookup_claimParams claim (by
        simp only [List.mem_cons, List.not_mem_nil, or_false] at hkey
        rcases hkey with rfl | rfl <;> decide)
  cases hrefund : options.nonInteractiveRefund with
  | none =>
    apply decodeCovenantLeaf_none
    · rw [lookup_row, hclaim _ (by simp), hrefund]
      cases options.asset <;> rfl
    · rw [lookup_row, hclaim _ (by simp), hrefund]
      cases options.asset <;> rfl
  | some refund =>
    obtain ⟨hemulator, hdestination⟩ := (validateOptions_leaves hvalid).2 refund hrefund
    apply decodeCovenantLeaf_some hdestination hemulator
    · rw [lookup_row, hclaim _ (by simp), hrefund]
      rfl
    · rw [lookup_row, hclaim _ (by simp), hrefund]
      rfl

theorem lookup_asset {key : String} (hkey : key ∈ ["assetTxid", "assetGroupIndex"]) :
    (rowOf print options c r n).lookup key =
      options.asset.bind fun asset ↦ (assetParams print asset).lookup key := by
  have hclaim : (options.nonInteractiveClaim.bind fun claim ↦ (claimParams claim).lookup key) =
      none := by
    cases options.nonInteractiveClaim with
    | none => rfl
    | some claim =>
      exact lookup_claimParams claim (by
        simp only [List.mem_cons, List.not_mem_nil, or_false] at hkey
        rcases hkey with rfl | rfl <;> decide)
  rw [lookup_row, hclaim]
  simp only [List.mem_cons, List.not_mem_nil, or_false] at hkey
  rcases hkey with rfl | rfl
  · cases options.nonInteractiveRefund <;> cases options.asset <;> rfl
  · cases options.nonInteractiveRefund <;> cases options.asset <;> rfl

theorem decodeAsset_row (hasset : ∀ a ∈ options.asset, a.Valid) :
    decodeAsset (rowOf print options c r n) = .ok options.asset := by
  unfold decodeAsset
  rw [lookup_asset (by simp), lookup_asset (by simp)]
  cases ha : options.asset with
  | none => rfl
  | some asset =>
    obtain ⟨txid, groupIndex⟩ := asset
    obtain ⟨-, hrange⟩ := hasset _ ha
    obtain ⟨g, hg, rfl⟩ := Number.inRange_iff.mp hrange
    have htxid : (assetParams print ⟨txid, .ofNat g⟩).lookup "assetTxid" =
        some (base16.encode txid) := rfl
    have hgroup : (assetParams print ⟨txid, .ofNat g⟩).lookup "assetGroupIndex" =
        some (print.text (.ofNat g)) := rfl
    simp only [Option.bind_some, htxid, hgroup, decodeHex_encode, parseGroupIndex_text print hg]
    rfl

theorem lookup_strict {key : String} (hkey : key ∈ ["strictClaimAmount", "strictClaimAssetAmount"]) :
    (rowOf print options c r n).lookup key =
      options.nonInteractiveClaim.bind fun claim ↦ (claimParams claim).lookup key := by
  rw [lookup_row]
  simp only [List.mem_cons, List.not_mem_nil, or_false] at hkey
  rcases hkey with rfl | rfl
  · cases options.nonInteractiveClaim <;> cases options.nonInteractiveRefund <;>
      cases options.asset <;> simp [baseParams, refundParams, assetParams, List.lookup_cons]
  · cases options.nonInteractiveClaim <;> cases options.nonInteractiveRefund <;>
      cases options.asset <;> simp [baseParams, refundParams, assetParams, List.lookup_cons]

theorem decodeClaim_row : decodeClaim (rowOf print options c r n)
    (options.nonInteractiveClaim.map fun claim ↦ (claim.receiverPkScript, claim.emulatorPubkey)) =
      .ok options.nonInteractiveClaim := by
  cases hclaim : options.nonInteractiveClaim with
  | none => rfl
  | some claim =>
    obtain ⟨receiverPkScript, emulatorPubkey, strict⟩ := claim
    simp only [Option.map_some, decodeClaim, decodeStrict]
    rw [lookup_strict (by simp), lookup_strict (by simp), hclaim]
    match strict with
    | none => rfl
    | some ⟨amount, none⟩ =>
      have hamount : (claimParams ⟨receiverPkScript, emulatorPubkey, some ⟨amount, none⟩⟩).lookup
          "strictClaimAmount" = some (Decimal.toText amount) := rfl
      simp only [Option.bind_some, hamount, bigIntParam_toText]
      rfl
    | some ⟨amount, some assetAmount⟩ =>
      have hamount : (claimParams ⟨receiverPkScript, emulatorPubkey,
          some ⟨amount, some assetAmount⟩⟩).lookup "strictClaimAmount" =
            some (Decimal.toText amount) := rfl
      have hassetAmount : (claimParams ⟨receiverPkScript, emulatorPubkey,
          some ⟨amount, some assetAmount⟩⟩).lookup "strictClaimAssetAmount" =
            some (Decimal.toText assetAmount) := rfl
      simp only [Option.bind_some, hamount, hassetAmount, bigIntParam_toText]
      rfl

end Row

/-- The parameters of a contract that can be built are read back as they were. -/
theorem deserializeParams_serializeParams {options : Options} {params : Params}
    (hvalid : validateOptions options = .ok ()) (hasset : ∀ a ∈ options.asset, a.Valid)
    (h : serializeParams L print options = .ok params) :
    deserializeParams L params = .ok options := by
  obtain ⟨c, hc, h⟩ := bind_ok.mp h
  obtain ⟨r, hr, h⟩ := bind_ok.mp h
  obtain ⟨n, hn, h⟩ := bind_ok.mp h
  obtain rfl : rowOf print options c r n = params := pure_ok.mp h
  have hsequence : ∀ {timelock : RelativeTimelock} {k : ℕ},
      timelockToSequence L.toLibraries timelock = .ok k →
      sequenceToTimelock L.toLibraries (toSequence (some (Decimal.toText k))) = .ok timelock := by
    intro timelock k hk
    have hlt := L.bip68_lt hk
    rw [toSequence_toText (by omega), sequenceToTimelock, L.bip68_decode_encode hk]
  have hpresent : ((rowOf print options c r n).lookup "assetTxid").isSome =
      ((rowOf print options c r n).lookup "assetGroupIndex").isSome := by
    rw [lookup_asset (by simp), lookup_asset (by simp)]
    cases options.asset <;> simp [assetParams, List.lookup_cons]
  have hstrict : ¬(((rowOf print options c r n).lookup "strictClaimAssetAmount").isSome = true ∧
      ((rowOf print options c r n).lookup "strictClaimAmount").isNone = true) := by
    rw [lookup_strict (by simp), lookup_strict (by simp)]
    cases hclaim : options.nonInteractiveClaim with
    | none => simp
    | some claim =>
      obtain ⟨receiverPkScript, emulatorPubkey, strict⟩ := claim
      match strict with
      | none => simp [claimParams, List.lookup_cons]
      | some ⟨amount, assetAmount⟩ => simp [claimParams, List.lookup_cons]
  unfold deserializeParams
  simp only [bind_ok, pure_ok]
  refine ⟨_, decodeClaimLeaf_row hvalid, _, decodeRefundLeaf_row hvalid, (), ?_, (), ?_, _,
    decodeAsset_row hasset, _, decodeHex_encode _, _, decodeHex_encode _, _, decodeHex_encode _, _,
    decodeHex_encode _, _, bigIntParam_toText _, _, hsequence hc, _, hsequence hr, _,
    hsequence hn, _, decodeClaim_row, ?_⟩
  · exact rejectIf_ok.mpr (not_not.mpr hpresent)
  · exact rejectIf_ok.mpr hstrict
  · have hrefund : (options.nonInteractiveRefund.map fun refund ↦
        (refund.senderPkScript, refund.emulatorPubkey)).map
          (fun refund ↦ NonInteractiveRefund.mk refund.1 refund.2) =
            options.nonInteractiveRefund := by
      cases options.nonInteractiveRefund <;> rfl
    rw [hrefund]

theorem enforcePayToMaybeAsset_valid {OP : OpTable} {destination bytes : Bytes}
    {asset : Option Asset} {strict : Option Strict}
    (h : enforcePayToMaybeAsset OP destination asset strict = .ok bytes) :
    ∀ a ∈ asset, a.Valid := by
  rintro a ⟨⟩
  obtain ⟨-, h⟩ := then_ok.mp h
  obtain ⟨htxid, h⟩ := then_ok.mp h
  obtain ⟨hgroup, -⟩ := then_ok.mp h
  exact ⟨not_not.mp (rejectIf_ok.mp htxid), by simpa using rejectIf_ok.mp hgroup⟩

theorem csv_sequence {L : Libraries} {params : CSVMultisigTapscript.Params}
    {script : ArkTapscript CSVMultisigTapscript.Params}
    (h : CSVMultisigTapscript.encode L params = .ok script) :
    ∃ n, timelockToSequence L params.timelock = .ok n := by
  obtain ⟨-, h⟩ := then_ok.mp h
  obtain ⟨n, hn, -⟩ := bind_ok.mp h
  exact ⟨n, hn⟩

theorem ScriptV2.new_ok (print : Printer) {options : Options} {script : ScriptV2 Tree}
    (h : ScriptV2.new L options = .ok script) :
    script.options = options ∧ validateOptions options = .ok () ∧
      (∀ a ∈ options.asset, a.Valid) ∧
      ∃ params, serializeParams L print options = .ok params := by
  unfold ScriptV2.new at h
  simp only [bind_ok, pure_ok] at h
  obtain ⟨⟨⟩, hvalid, condition, -, claim, -, refund, -, refundWithoutReceiver, -, unilateralClaim,
    hclaim, unilateralRefund, hrefund, solo, hsolo, claimLeaf, hclaimLeaf, refundLeaf, hrefundLeaf,
    tree, -, rfl⟩ := h
  obtain ⟨verify, -, hclaim⟩ := bind_ok.mp hclaim
  obtain ⟨csv, hcsv, -⟩ := bind_ok.mp hclaim
  obtain ⟨c, hc⟩ := csv_sequence hcsv
  obtain ⟨r, hr⟩ := csv_sequence hrefund
  obtain ⟨n, hn⟩ := csv_sequence hsolo
  refine ⟨rfl, hvalid, ?_, _, bind_ok.mpr ⟨c, hc, bind_ok.mpr ⟨r, hr, bind_ok.mpr ⟨n, hn, rfl⟩⟩⟩⟩
  cases hasset : options.asset with
  | none => simp
  | some asset =>
    obtain ⟨-, hchecks⟩ := then_ok.mp hvalid
    have hleaf := rejectIf_ok.mp (then_ok.mp hchecks).1
    rw [← hasset]
    cases hnic : options.nonInteractiveClaim with
    | some claim =>
      simp only [VHTLC.claimLeaf, hnic] at hclaimLeaf
      obtain ⟨key, hkey, -⟩ := bind_ok.mp hclaimLeaf
      obtain ⟨arkadeScript, harkade, -⟩ := bind_ok.mp hkey
      exact enforcePayToMaybeAsset_valid harkade
    | none =>
      cases hnir : options.nonInteractiveRefund with
      | none => exact absurd ⟨by simp [hasset], hnic, hnir⟩ hleaf
      | some refund =>
        simp only [VHTLC.refundLeaf, hnir] at hrefundLeaf
        obtain ⟨key, hkey, -⟩ := bind_ok.mp hrefundLeaf
        obtain ⟨arkadeScript, harkade, -⟩ := bind_ok.mp hkey
        exact enforcePayToMaybeAsset_valid harkade

theorem createScript_serializeParams {options : Options} {script : ScriptV2 Tree} {params : Params}
    (hnew : ScriptV2.new L options = .ok script)
    (h : serializeParams L print options = .ok params) : createScript L params = .ok script := by
  obtain ⟨-, hvalid, hasset, -⟩ := ScriptV2.new_ok print hnew
  exact bind_ok.mpr ⟨options, deserializeParams_serializeParams hvalid hasset h, hnew⟩

end ArkadeSdk.VHTLC
