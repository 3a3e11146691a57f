import ArkadeSdk.Boltz.SwapCreationBound
import ArkadeSdk.Boltz.SwapRestore

/-! The timeouts of a lockup, read back from the leaves of its own script. -/

namespace ArkadeSdk.SwapRestore

open WireFormat JsNumber BtcScript HexCodec ScriptCoder SwapCreation

theorem littleEndian_signed {ds : List ℕ} (h : ScriptNumber.Digits ds) :
    littleEndian (ScriptNumber.signed false ds) = Nat.ofDigits 256 ds := by
  induction ds with
  | nil => rfl
  | cons d ds ih =>
    have hd : d < 256 := h.lt d List.mem_cons_self
    cases ds with
    | nil =>
      unfold ScriptNumber.signed
      split <;> simp [littleEndian, toNat_byte hd]
    | cons d' ds =>
      have hcons : littleEndian (ScriptNumber.signed false (d :: d' :: ds)) =
          (UInt8.ofNat d).toNat + 256 * littleEndian (ScriptNumber.signed false (d' :: ds)) := rfl
      rw [hcons, ih h.tail, toNat_byte hd]
      exact Nat.ofDigits_cons.symm

theorem littleEndian_encode (n : ℕ) : littleEndian (ScriptNumber.encode n) = n := by
  have hsign : decide ((n : ℤ) < 0) = false := by simp
  rw [ScriptNumber.encode, hsign, littleEndian_signed (ScriptNumber.digits_digits _),
    Nat.ofDigits_digits, Int.natAbs_natCast]

theorem settle_numberItem {n : ℕ} (hn : 0 < n) :
    settle (numberItem n) = if n ≤ 16 then .num n else .data (ScriptNumber.encode n) := by
  have hne : ScriptNumber.encode (n : ℤ) ≠ [] := ScriptNumber.encode_ne_nil (by omega)
  cases henc : ScriptNumber.encode (n : ℤ) with
  | nil => exact absurd henc hne
  | cons b bs =>
    cases bs with
    | nil =>
      have hb := encode_single henc
      rw [numberItem, henc]
      simp only [hb, settle, henc]
      by_cases h : n ≤ 16
      · rw [if_pos (by omega), if_pos h]
      · rw [if_neg (by omega), if_neg h]
    | cons b' bs =>
      have h : ¬n ≤ 16 := by
        intro h
        rw [ScriptNumber.encode_of_lt hn (by omega)] at henc
        cases henc
      rw [numberItem, henc, if_neg h]
      exact settle_data (by simp)

theorem dataBefore_eq_none {name : String} {opcodes : List Item} (h : .op name ∉ opcodes) :
    dataBefore name opcodes = none := by
  have hnone : opcodes.findIdx? (· = .op name) = none := by
    rw [List.findIdx?_eq_none_iff]
    intro x hx
    exact decide_eq_false fun he ↦ h (he ▸ hx)
  rw [dataBefore, hnone]

def pushed? : Item → Option Bytes
  | .data data => some data
  | _ => none

theorem dataBefore_append {name : String} {before : List Item} {x : Item}
    (hbefore : .op name ∉ before) (hx : x ≠ .op name) (rest : List Item) :
    dataBefore name (before ++ x :: .op name :: rest) = pushed? x := by
  have hfind : (before ++ x :: .op name :: rest).findIdx? (· = .op name) =
      some (before.length + 1) := by
    have hnone : before.findIdx? (· = Item.op name) = none := by
      rw [List.findIdx?_eq_none_iff]
      intro y hy
      exact decide_eq_false fun he ↦ hbefore (he ▸ hy)
    rw [List.findIdx?_append, hnone, List.findIdx?_cons, List.findIdx?_cons]
    simp [hx]
    omega
  rw [dataBefore, hfind]
  simp only [List.getElem?_append_right (Nat.le_refl _), Nat.sub_self, List.getElem?_cons_zero]
  cases x <;> rfl

section Locks

variable {L : Libraries}

theorem dataBefore_lockAsm {n : ℕ} (hn : 0 < n) (lock : String) {before : List Item}
    (hbefore : .op lock ∉ before) (rest : List Item) :
    dataBefore lock (before ++ (lockAsm n lock ++ rest)) =
      if n ≤ 16 then none else some (ScriptNumber.encode n) := by
  have h := dataBefore_append hbefore (settle_numberItem_ne_op n lock) (.op "DROP" :: rest)
  refine h.trans ?_
  rw [settle_numberItem hn]
  split <;> rfl

theorem op_not_mem_lockAsm {name lock : String} (value : ℤ) (hlock : name ≠ lock)
    (hdrop : name ≠ "DROP") : Item.op name ∉ lockAsm value lock := by
  simp [lockAsm, Ne.symm (settle_numberItem_ne_op value name), hlock, hdrop]

/-- What is read off the items of a leaf. -/
def itemsLock (L : Libraries) (asm : List Item) : Number :=
  match dataBefore "CHECKLOCKTIMEVERIFY" asm with
  | some data => .ofNat (littleEndian data)
  | none => match dataBefore "CHECKSEQUENCEVERIFY" asm with
    | some data => sequenceValue L (littleEndian data)
    | none => .ofNat 0

theorem extract_encode {script : Bytes} {asm : List Item} (h : Canonical L.OP script asm)
    (hasm : asm ≠ []) :
    extractTimeLockFromLeafOutput L (base16.encode script) = itemsLock L asm := by
  have hne : base16.encode script ≠ "" := by
    rw [Ne, base16.encode_eq_empty]
    exact h.ne_nil hasm
  have hdecode : (SwapCreation.hexDecode (base16.encode script) >>= ScriptCoder.decode L.OP) =
      .ok asm := by
    rw [hexDecode_encode]
    exact h.decode
  rw [extractTimeLockFromLeafOutput, if_neg hne, hdecode]
  rfl

theorem extract_cltv {params : CLTVMultisigTapscript.Params}
    {t : ArkTapscript CLTVMultisigTapscript.Params}
    (h : CLTVMultisigTapscript.encode L params = .ok t) {n : ℕ} (hn : 0 < n)
    (hlock : params.absoluteTimelock = n) :
    extractTimeLockFromLeafOutput L (base16.encode t.script) =
      if n ≤ 16 then .ofNat 0 else .ofNat n := by
  obtain ⟨m, hok⟩ := CLTVMultisigTapscript.encode_ok h
  have hcanonical := hok.canonical
  rw [hlock] at hcanonical
  have hcsv : Item.op "CHECKSEQUENCEVERIFY" ∉ lockAsm n "CHECKLOCKTIMEVERIFY" ++
      MultisigTapscript.asm (MultisigTapscript.resolved params.toMultisig) params.pubkeys := by
    rw [List.mem_append]
    exact not_or.mpr ⟨op_not_mem_lockAsm n (by decide) (by decide), op_not_mem_asm (by decide) _⟩
  have hcltv := dataBefore_lockAsm hn "CHECKLOCKTIMEVERIFY" List.not_mem_nil
    (MultisigTapscript.asm (MultisigTapscript.resolved params.toMultisig) params.pubkeys)
  rw [List.nil_append] at hcltv
  rw [extract_encode hcanonical (by simp [lockAsm]), itemsLock, hcltv, dataBefore_eq_none hcsv]
  by_cases h16 : n ≤ 16
  · rw [if_pos h16, if_pos h16]
  · rw [if_neg h16, if_neg h16]
    exact congrArg Number.ofNat (littleEndian_encode n)

theorem extract_sequence {script : Bytes} {timelock : RelativeTimelock} {n : ℕ}
    (hsequence : L.bip68Encode timelock = .ok n) (hn : 0 < n) {before : List Item}
    (rest : List Item) (hbefore : .op "CHECKSEQUENCEVERIFY" ∉ before)
    (hcltv : .op "CHECKLOCKTIMEVERIFY" ∉ before ++ rest)
    (h : Canonical L.OP script (before ++ (lockAsm n "CHECKSEQUENCEVERIFY" ++ rest))) :
    extractTimeLockFromLeafOutput L (base16.encode script) =
      if n ≤ 16 then .ofNat 0 else .ofInt timelock.value := by
  have hnone : Item.op "CHECKLOCKTIMEVERIFY" ∉
      before ++ (lockAsm n "CHECKSEQUENCEVERIFY" ++ rest) := by
    have hlock : Item.op "CHECKLOCKTIMEVERIFY" ∉ lockAsm n "CHECKSEQUENCEVERIFY" :=
      op_not_mem_lockAsm n (by decide) (by decide)
    simp_all
  rw [extract_encode h (by simp [lockAsm]), itemsLock, dataBefore_eq_none hnone,
    dataBefore_lockAsm hn _ hbefore]
  by_cases h16 : n ≤ 16
  · rw [if_pos h16, if_pos h16]
  · rw [if_neg h16, if_neg h16]
    simp only [sequenceValue, littleEndian_encode, L.bip68_decode_encode hsequence]

end Locks

section Lockups

variable {Tap : Type} (L : SwapLibraries Tap)

structure TimeoutLeaves where
  refundWithoutReceiver : Bytes
  unilateralClaim : Bytes
  unilateralRefund : Bytes
  unilateralRefundWithoutReceiver : Bytes

def timeoutLeaves (options : VHTLC.Options) : Except Message TimeoutLeaves := do
  let conditionScript ← VHTLC.preimageConditionScript L.toProgramLibraries options.preimageHash
  let refundWithoutReceiver ← CLTVMultisigTapscript.encode L.toLibraries
    ⟨⟨[options.sender, options.server], none⟩, options.refundLocktime⟩
  let unilateralClaim ← ConditionCSVMultisigTapscript.encode L.toLibraries
    ⟨⟨⟨[options.receiver], none⟩, options.unilateralClaimDelay⟩, conditionScript⟩
  let unilateralRefund ← CSVMultisigTapscript.encode L.toLibraries
    ⟨⟨[options.sender, options.receiver], none⟩, options.unilateralRefundDelay⟩
  let unilateralRefundWithoutReceiver ← CSVMultisigTapscript.encode L.toLibraries
    ⟨⟨[options.sender], none⟩, options.unilateralRefundWithoutReceiverDelay⟩
  return ⟨refundWithoutReceiver.script, unilateralClaim.script, unilateralRefund.script,
    unilateralRefundWithoutReceiver.script⟩

def OwnLeaves (script : VHTLC.BaseScript Tap) (leaves : TimeoutLeaves) : Prop :=
  timeoutLeaves L script.options = .ok leaves ∧ ∃ claim refund,
    L.vtxoScript [claim, refund, leaves.refundWithoutReceiver, leaves.unilateralClaim,
      leaves.unilateralRefund, leaves.unilateralRefundWithoutReceiver] = .ok script.vtxoScript

theorem ownLeaves_of_new {script : VHTLC.BaseScript Tap}
    (hclaim : script.options.nonInteractiveClaim = none)
    (hrefund : script.options.nonInteractiveRefund = none)
    (h : VHTLC.Script.new L.toProgramLibraries script.options = .ok script) :
    ∃ leaves, OwnLeaves L script leaves := by
  simp only [VHTLC.Script.new, VHTLC.BaseScript.new, bind_ok, pure_ok] at h
  obtain ⟨_, -, condition, hcondition, claim, -, refund, -, solo, hsolo, uclaim, huclaim, urefund,
    hurefund, usolo, husolo, iclaim, hiclaim, irefund, hirefund, tree, htree, heq⟩ := h
  rw [VHTLC.claimLeaf, hclaim] at hiclaim
  rw [VHTLC.refundLeaf, hrefund] at hirefund
  cases hiclaim
  cases hirefund
  refine ⟨⟨solo.script, uclaim.script, urefund.script, usolo.script⟩, ?_, claim.script,
    refund.script, ?_⟩
  · simp only [timeoutLeaves, bind_ok, pure_ok]
    exact ⟨condition, hcondition, solo, hsolo, uclaim, huclaim, urefund, hurefund, usolo, husolo,
      rfl⟩
  · rw [← heq]
    simpa using htree

def ListedAs (leaf : Option SerializedLeaf) (script : Bytes) : Prop :=
  leaf.map SerializedLeaf.output = some (base16.encode script)

structure Lists (tree : Tree) (leaves : TimeoutLeaves) : Prop where
  refund : ListedAs tree.refundWithoutBoltzLeaf leaves.refundWithoutReceiver
  unilateralClaim : ListedAs tree.unilateralClaimLeaf leaves.unilateralClaim
  unilateralRefund : ListedAs tree.unilateralRefundLeaf leaves.unilateralRefund
  unilateralRefundWithoutReceiver : ListedAs tree.unilateralRefundWithoutBoltzLeaf
    leaves.unilateralRefundWithoutReceiver

def Restores (args : LockupArgs) (serverPubkey address : String) (tree : Tree) : Prop :=
  ∃ timeouts, resolveVhtlcTimeouts L.toLibraries tree none = some timeouts ∧
    timeouts = args.timeoutBlockHeights ∧
    ∃ script, createVHTLCScript L { args with timeoutBlockHeights := timeouts } serverPubkey =
      .ok (script, address)

/-- Neither timelock opcode occurs in the script, if it is one. -/
def Timeless (scriptHex : String) : Prop :=
  ∀ opcodes, SwapCreation.hexDecode scriptHex >>= ScriptCoder.decode L.OP = .ok opcodes →
    .op "CHECKLOCKTIMEVERIFY" ∉ opcodes ∧ .op "CHECKSEQUENCEVERIFY" ∉ opcodes

theorem extract_timeless {scriptHex : String} (h : Timeless L scriptHex) :
    extractTimeLockFromLeafOutput L.toLibraries scriptHex = .ofNat 0 := by
  unfold extractTimeLockFromLeafOutput
  split
  · rfl
  · split
    · rfl
    · next opcodes hdecode =>
      obtain ⟨hcltv, hcsv⟩ := h opcodes hdecode
      rw [dataBefore_eq_none hcltv, dataBefore_eq_none hcsv]

def readTimeout (timeout : Number) : Number :=
  if timeout.le (.ofNat 16) then .ofNat 0 else timeout

theorem leafTimeLock_listed {leaf : Option SerializedLeaf} {script : Bytes}
    (h : ListedAs leaf script) : leafTimeLock L.toLibraries leaf =
      extractTimeLockFromLeafOutput L.toLibraries (base16.encode script) := by
  rw [leafTimeLock, h, Option.getD_some]

/-- The timeouts of a script that was built from these values. -/
structure Timed (heights : TimeoutBlockHeights) (options : VHTLC.Options) : Prop where
  refund : heights.refund.toBigInt = .ok options.refundLocktime
  unilateralClaim : toBip68RelativeTimelock heights.unilateralClaim =
    .ok options.unilateralClaimDelay
  unilateralRefund : toBip68RelativeTimelock heights.unilateralRefund =
    .ok options.unilateralRefundDelay
  unilateralRefundWithoutReceiver :
    toBip68RelativeTimelock heights.unilateralRefundWithoutReceiver =
      .ok options.unilateralRefundWithoutReceiverDelay
  noClaim : options.nonInteractiveClaim = none
  noRefund : options.nonInteractiveRefund = none

theorem createVHTLCScript_timed {args : LockupArgs} {serverPubkey address : String}
    {script : VHTLC.BaseScript Tap}
    (h : createVHTLCScript L args serverPubkey = .ok (script, address)) :
    Timed args.timeoutBlockHeights script.options ∧
      VHTLC.Script.new L.toProgramLibraries script.options = .ok script := by
  obtain ⟨receiver, sender, server, -, -, -, hlockup⟩ := (createVHTLCScript_ok L).mp h
  simp only [lockupScript, bind_ok, pure_ok] at hlockup
  obtain ⟨locktime, hlocktime, claimDelay, hclaim, refundDelay, hrefund, soloDelay, hsolo, script',
    hscript, _, -, hrp, -, heq⟩ := hlockup
  cases heq
  have hoptions := VHTLC.Script.new_options _ hscript
  refine ⟨?_, by rw [hoptions]; exact hscript⟩
  rw [hoptions]
  exact ⟨hlocktime, hclaim, hrefund, hsolo, rfl, rfl⟩

theorem validateDelay_ok {text : String} {delay : RelativeTimelock}
    (h : VHTLC.validateDelay text delay = .ok ()) : 0 < delay.value := by
  obtain ⟨h, -⟩ := then_ok.mp h
  exact not_le.mp (rejectIf_ok.mp h)

theorem Timed.positive {heights : TimeoutBlockHeights} {script : VHTLC.BaseScript Tap}
    (h : Timed heights script.options)
    (hnew : VHTLC.Script.new L.toProgramLibraries script.options = .ok script) :
    0 < script.options.refundLocktime ∧ 0 < script.options.unilateralClaimDelay.value ∧
      0 < script.options.unilateralRefundDelay.value ∧
      0 < script.options.unilateralRefundWithoutReceiverDelay.value := by
  obtain ⟨hvalid, -⟩ := then_ok.mp hnew
  simp only [VHTLC.validateOptions, h.noClaim, h.noRefund, Option.bind_none, then_ok,
    rejectIf_ok, not_le] at hvalid
  obtain ⟨-, -, -, -, -, hlocktime, hclaim, hrefund, hsolo⟩ := hvalid
  exact ⟨hlocktime, validateDelay_ok hclaim, validateDelay_ok hrefund, validateDelay_ok hsolo⟩

theorem timeout_of_timelock {timeout : Number} {timelock : RelativeTimelock}
    (h : toBip68RelativeTimelock timeout = .ok timelock) : timeout = .ofInt timelock.value := by
  obtain ⟨value, hvalue, h⟩ := bind_ok.mp h
  cases h
  exact Number.toBigInt_eq_ok hvalue

/-- A relative timeout as a sequence number is a small number exactly if the timeout is one. -/
theorem sequence_of_timeout {timeout : Number} {timelock : RelativeTimelock} {n : ℕ}
    (h : toBip68RelativeTimelock timeout = .ok timelock) (hpos : 0 < timelock.value)
    (hn : bip68Encode timelock = .ok n) :
    timeout = .ofInt timelock.value ∧ 0 < n ∧ (n ≤ 16 ↔ timelock.value ≤ 16) := by
  refine ⟨timeout_of_timelock h, ?_⟩
  obtain ⟨value, hvalue, h⟩ := bind_ok.mp h
  cases h
  obtain rfl := Number.toBigInt_eq_ok hvalue
  by_cases hsmall : value < 512
  · have hlt : (Number.ofInt value).lt (.ofNat 512) = true := by
      simp only [Number.ofInt, Number.ofNat, Number.lt_finite, decide_eq_true_eq]
      exact_mod_cast hsmall
    simp only [bip68Encode, hlt, if_true] at hn
    split at hn
    · cases hn
      simp only at hpos ⊢
      omega
    · cases hn
  · have hlt : (Number.ofInt value).lt (.ofNat 512) = false := by
      simp only [Number.ofInt, Number.ofNat, Number.lt_finite, decide_eq_false_iff_not, not_lt]
      exact_mod_cast not_lt.mp hsmall
    simp only [bip68Encode, hlt, Bool.false_eq_true, if_false] at hn
    split at hn
    · cases hn
      simp only at hpos ⊢
      omega
    · cases hn

theorem readTimeout_ofInt (z : ℤ) :
    readTimeout (.ofInt z) = if z ≤ 16 then .ofNat 0 else .ofInt z := by
  have hle : (Number.ofInt z).le (.ofNat 16) = decide (z ≤ 16) := by
    simp only [Number.ofInt, Number.ofNat, Number.le_finite]
    exact decide_eq_decide.mpr (by norm_cast)
  rw [readTimeout, hle]
  simp

theorem isTruthy_readTimeout {z : ℤ} (hz : 0 < z) :
    isTruthy (readTimeout (.ofInt z)) = true ↔ ¬(Number.ofInt z).le (.ofNat 16) = true := by
  rw [readTimeout]
  split
  · next h => simp [isTruthy, h]
  · next h =>
    have hne : Number.ofInt z ≠ .ofNat 0 := by
      simp only [Number.ofInt, Number.ofNat, ne_eq, Number.finite.injEq]
      exact_mod_cast hz.ne'
    have htrue : isTruthy (.ofInt z) = true := decide_eq_true ⟨Number.noConfusion, hne⟩
    exact iff_of_true htrue h

variable {L}

theorem preimageCondition_items {hash condition : Bytes}
    (h : VHTLC.preimageConditionScript L.toProgramLibraries hash = .ok condition) :
    ∃ items, Canonical L.OP condition items ∧
      ∀ name, name ≠ "HASH160" → name ≠ "EQUAL" → Item.op name ∉ items := by
  refine ⟨_, canonical_of_encode ?_ h, ?_⟩
  · simp only [List.forall_mem_cons]
    exact ⟨named_standard (p := ("HASH160", 0xa9)) (by decide), named_data hash,
      named_standard (p := ("EQUAL", 0x87)) (by decide), by simp⟩
  · intro name hhash hequal
    have hdata : settle (.data hash) ≠ .op name := by
      rw [settle]
      split <;> exact Item.noConfusion
    simp [hhash, hequal, hdata.symm]

section Leaves

variable (hbip68 : ∀ timelock, L.bip68Encode timelock = bip68Encode timelock)
include hbip68

theorem extract_csv {keys : List Bytes} {timelock : RelativeTimelock}
    {t : ArkTapscript CSVMultisigTapscript.Params}
    (h : CSVMultisigTapscript.encode L.toLibraries ⟨⟨keys, none⟩, timelock⟩ = .ok t)
    {timeout : Number} (htimeout : toBip68RelativeTimelock timeout = .ok timelock)
    (hpos : 0 < timelock.value) :
    extractTimeLockFromLeafOutput L.toLibraries (base16.encode t.script) = readTimeout timeout := by
  obtain ⟨n, m, hok⟩ := CSVMultisigTapscript.encode_ok h
  have hsequence : bip68Encode timelock = .ok n := hbip68 timelock ▸ hok.sequence
  obtain ⟨rfl, hn, h16⟩ := sequence_of_timeout htimeout hpos hsequence
  have hcsv : Item.op "CHECKSEQUENCEVERIFY" ∉ [] := List.not_mem_nil
  have hcltv : Item.op "CHECKLOCKTIMEVERIFY" ∉ MultisigTapscript.asm .CHECKSIG keys :=
    op_not_mem_asm (by decide) _
  have hread := extract_sequence hok.sequence hn (MultisigTapscript.asm .CHECKSIG keys) hcsv hcltv
    hok.canonical
  rw [hread, readTimeout_ofInt]
  simp only [h16]

theorem extract_conditionCsv {keys : List Bytes} {timelock : RelativeTimelock}
    {hash condition : Bytes} {t : ArkTapscript ConditionCSVMultisigTapscript.Params}
    (hcondition : VHTLC.preimageConditionScript L.toProgramLibraries hash = .ok condition)
    (h : ConditionCSVMultisigTapscript.encode L.toLibraries
      ⟨⟨⟨keys, none⟩, timelock⟩, condition⟩ = .ok t)
    {timeout : Number} (htimeout : toBip68RelativeTimelock timeout = .ok timelock)
    (hpos : 0 < timelock.value) :
    extractTimeLockFromLeafOutput L.toLibraries (base16.encode t.script) = readTimeout timeout := by
  obtain ⟨items, hitems, hnot⟩ := preimageCondition_items hcondition
  obtain ⟨verify, csv, hverify, hcsv, rfl⟩ := ConditionCSVMultisigTapscript.encode_ok h
  obtain ⟨n, m, hok⟩ := CSVMultisigTapscript.encode_ok hcsv
  have hsequence : bip68Encode timelock = .ok n := hbip68 timelock ▸ hok.sequence
  obtain ⟨rfl, hn, h16⟩ := sequence_of_timeout htimeout hpos hsequence
  have hverify' : Canonical L.OP verify [.op "VERIFY"] := by
    refine canonical_of_encode ?_ hverify
    simp only [List.forall_mem_cons]
    exact ⟨named_op (p := ("VERIFY", 0x69)) (by decide) rfl, by simp⟩
  have hcanonical := (hitems.append hverify').append hok.canonical
  have hbefore : ∀ name, name ≠ "HASH160" → name ≠ "EQUAL" → name ≠ "VERIFY" →
      Item.op name ∉ items ++ [.op "VERIFY"] := by
    intro name hhash hequal hname
    simp [hnot name hhash hequal, hname]
  have hread := extract_sequence hok.sequence hn _ (hbefore "CHECKSEQUENCEVERIFY" (by decide)
    (by decide) (by decide)) (by
      rw [List.mem_append]
      exact not_or.mpr ⟨hbefore _ (by decide) (by decide) (by decide),
        op_not_mem_asm (by decide) _⟩) hcanonical
  rw [hread, readTimeout_ofInt]
  simp only [h16]

theorem resolve_listed {heights : TimeoutBlockHeights} {script : VHTLC.BaseScript Tap}
    (htimed : Timed heights script.options)
    (hnew : VHTLC.Script.new L.toProgramLibraries script.options = .ok script)
    {leaves : TimeoutLeaves} (hleaves : timeoutLeaves L script.options = .ok leaves) {tree : Tree}
    (htree : Lists tree leaves) :
    leafTimeLock L.toLibraries tree.refundWithoutBoltzLeaf = readTimeout heights.refund ∧
      leafTimeLock L.toLibraries tree.unilateralClaimLeaf = readTimeout heights.unilateralClaim ∧
      leafTimeLock L.toLibraries tree.unilateralRefundLeaf =
        readTimeout heights.unilateralRefund ∧
      leafTimeLock L.toLibraries tree.unilateralRefundWithoutBoltzLeaf =
        readTimeout heights.unilateralRefundWithoutReceiver := by
  obtain ⟨hlocktime, hclaim, hrefund, hsolo⟩ := htimed.positive L hnew
  simp only [timeoutLeaves, bind_ok, pure_ok] at hleaves
  obtain ⟨condition, hcondition, cltv, hcltv, uclaim, huclaim, urefund, hurefund, usolo, husolo,
    rfl⟩ := hleaves
  rw [leafTimeLock_listed L htree.refund, leafTimeLock_listed L htree.unilateralClaim,
    leafTimeLock_listed L htree.unilateralRefund,
    leafTimeLock_listed L htree.unilateralRefundWithoutReceiver]
  refine ⟨?_, extract_conditionCsv hbip68 hcondition huclaim htimed.unilateralClaim hclaim,
    extract_csv hbip68 hurefund htimed.unilateralRefund hrefund,
    extract_csv hbip68 husolo htimed.unilateralRefundWithoutReceiver hsolo⟩
  obtain ⟨n, hn⟩ := Int.eq_ofNat_of_zero_le hlocktime.le
  rw [extract_cltv hcltv (by omega) hn, Number.toBigInt_eq_ok htimed.refund, readTimeout_ofInt, hn]
  simp [Number.ofInt, Number.ofNat]

end Leaves

/-- Of the timeouts of a lockup, the ones that a script holds as a number opcode. -/
def SmallTimeout (heights : TimeoutBlockHeights) : Prop :=
  heights.refund.le (.ofNat 16) ∨ heights.unilateralClaim.le (.ofNat 16) ∨
    heights.unilateralRefund.le (.ofNat 16) ∨
    heights.unilateralRefundWithoutReceiver.le (.ofNat 16)

instance (heights : TimeoutBlockHeights) : Decidable (SmallTimeout heights) :=
  inferInstanceAs (Decidable (_ ∨ _ ∨ _ ∨ _))

theorem resolveVhtlcTimeouts_listed
    (hbip68 : ∀ timelock, L.bip68Encode timelock = bip68Encode timelock)
    {heights : TimeoutBlockHeights} {script : VHTLC.BaseScript Tap}
    (htimed : Timed heights script.options)
    (hnew : VHTLC.Script.new L.toProgramLibraries script.options = .ok script)
    {leaves : TimeoutLeaves} (hleaves : timeoutLeaves L script.options = .ok leaves) {tree : Tree}
    (htree : Lists tree leaves) : resolveVhtlcTimeouts L.toLibraries tree none =
      if SmallTimeout heights then none else some heights := by
  obtain ⟨hlocktime, hclaim, hrefund, hsolo⟩ := htimed.positive L hnew
  obtain ⟨hread₁, hread₂, hread₃, hread₄⟩ := resolve_listed hbip68 htimed hnew hleaves htree
  have htruthy : ∀ {timeout : Number} {z : ℤ}, timeout = .ofInt z → 0 < z →
      (isTruthy (readTimeout timeout) = true ↔ ¬timeout.le (.ofNat 16) = true) := by
    rintro _ z rfl hz
    exact isTruthy_readTimeout hz
  have h₁ := htruthy (Number.toBigInt_eq_ok htimed.refund) hlocktime
  have h₂ := htruthy (timeout_of_timelock htimed.unilateralClaim) hclaim
  have h₃ := htruthy (timeout_of_timelock htimed.unilateralRefund) hrefund
  have h₄ := htruthy (timeout_of_timelock htimed.unilateralRefundWithoutReceiver) hsolo
  rw [resolveVhtlcTimeouts, Option.getD_none, hread₁, hread₂, hread₃, hread₄]
  simp only [Bool.and_eq_true, h₁, h₂, h₃, h₄]
  by_cases hsmall : SmallTimeout heights
  · rw [if_neg (by unfold SmallTimeout at hsmall; tauto), if_pos hsmall]
  · rw [if_neg hsmall, if_pos (by unfold SmallTimeout at hsmall; tauto)]
    simp only [SmallTimeout, not_or] at hsmall
    simp only [readTimeout, if_neg hsmall.1, if_neg hsmall.2.1, if_neg hsmall.2.2.1,
      if_neg hsmall.2.2.2]

/-- The timeouts come back from the lockup's own leaves exactly when none is sixteen or less, and a
leaf without a timelock gives nothing. -/
theorem timeouts_restored_iff
    (hbip68 : ∀ timelock, L.bip68Encode timelock = bip68Encode timelock) {args : LockupArgs}
    {serverPubkey address : String} {script : VHTLC.BaseScript Tap}
    (hcreate : createVHTLCScript L args serverPubkey = .ok (script, address)) :
    (∀ scriptHex, Timeless L scriptHex →
      extractTimeLockFromLeafOutput L.toLibraries scriptHex = .ofNat 0) ∧
    ∃ leaves, OwnLeaves L script leaves ∧ ∀ tree, Lists tree leaves →
      (Restores L args serverPubkey address tree ↔ ¬SmallTimeout args.timeoutBlockHeights) := by
  refine ⟨fun _ ↦ extract_timeless L, ?_⟩
  obtain ⟨htimed, hnew⟩ := createVHTLCScript_timed L hcreate
  obtain ⟨leaves, hleaves, htap⟩ := ownLeaves_of_new L htimed.noClaim htimed.noRefund hnew
  refine ⟨leaves, ⟨hleaves, htap⟩, fun tree htree ↦ ?_⟩
  have hresolve := resolveVhtlcTimeouts_listed hbip68 htimed hnew hleaves htree
  constructor
  · rintro ⟨timeouts, h, -⟩ hsmall
    rw [hresolve, if_pos hsmall] at h
    cases h
  · intro hsmall
    exact ⟨_, hresolve.trans (if_neg hsmall), rfl, script, hcreate⟩

end Lockups

def dayArgs : LockupArgs where
  network := "bitcoin"
  preimageHash := List.replicate 32 5
  receiverPubkey := base16.encode (List.replicate 32 7)
  senderPubkey := base16.encode (List.replicate 32 8)
  timeoutBlockHeights := ⟨.ofNat 800000, .ofNat 144, .ofNat 288, .ofNat 1024⟩

def tenBlocksArgs : LockupArgs :=
  { dayArgs with timeoutBlockHeights := ⟨.ofNat 800000, .ofNat 10, .ofNat 288, .ofNat 1024⟩ }

def sampleServer : String := base16.encode (List.replicate 32 9)

def listedTree (leaves : TimeoutLeaves) : Tree where
  claimLeaf := ⟨.ofNat 0xc0, ""⟩
  refundLeaf := ⟨.ofNat 0xc0, ""⟩
  covenantClaimLeaf := none
  refundWithoutBoltzLeaf := some ⟨.ofNat 0xc0, base16.encode leaves.refundWithoutReceiver⟩
  unilateralClaimLeaf := some ⟨.ofNat 0xc0, base16.encode leaves.unilateralClaim⟩
  unilateralRefundLeaf := some ⟨.ofNat 0xc0, base16.encode leaves.unilateralRefund⟩
  unilateralRefundWithoutBoltzLeaf :=
    some ⟨.ofNat 0xc0, base16.encode leaves.unilateralRefundWithoutReceiver⟩

theorem lists_listedTree (leaves : TimeoutLeaves) : Lists (listedTree leaves) leaves :=
  ⟨rfl, rfl, rfl, rfl⟩

theorem dayArgs_restored : ∃ script address leaves,
    createVHTLCScript dearLibraries dayArgs sampleServer = .ok (script, address) ∧
    OwnLeaves dearLibraries script leaves ∧
    Restores dearLibraries dayArgs sampleServer address (listedTree leaves) := by
  have hok : (createVHTLCScript dearLibraries dayArgs sampleServer).isOk = true := by
    decide +kernel
  obtain ⟨⟨script, address⟩, hcreate⟩ := isOk_iff.mp hok
  obtain ⟨-, leaves, hleaves, hrestores⟩ := timeouts_restored_iff (fun _ ↦ rfl) hcreate
  refine ⟨script, address, leaves, hcreate, hleaves, ?_⟩
  refine (hrestores _ (lists_listedTree leaves)).mpr ?_
  rintro (h | h | h | h)
  · exact absurd h (by decide)
  · exact absurd h (by decide)
  · exact absurd h (by decide)
  · exact absurd h (by decide)

/-- The ten blocks stand in the leaf as `OP_10`, and nothing is restored. -/
theorem tenBlocks_lost : ∃ script address leaves tree,
    createVHTLCScript dearLibraries tenBlocksArgs sampleServer = .ok (script, address) ∧
    OwnLeaves dearLibraries script leaves ∧ Lists tree leaves ∧
    ¬Restores dearLibraries tenBlocksArgs sampleServer address tree := by
  have hok : (createVHTLCScript dearLibraries tenBlocksArgs sampleServer).isOk = true := by
    decide +kernel
  obtain ⟨⟨script, address⟩, hcreate⟩ := isOk_iff.mp hok
  obtain ⟨htimed, hnew⟩ := createVHTLCScript_timed dearLibraries hcreate
  obtain ⟨leaves, hleaves, htap⟩ :=
    ownLeaves_of_new dearLibraries htimed.noClaim htimed.noRefund hnew
  refine ⟨script, address, leaves, listedTree leaves, hcreate, ⟨hleaves, htap⟩,
    lists_listedTree leaves, ?_⟩
  rintro ⟨timeouts, h, -⟩
  have hsmall : SmallTimeout tenBlocksArgs.timeoutBlockHeights := .inr (.inl (by decide))
  rw [resolveVhtlcTimeouts_listed (fun _ ↦ rfl) htimed hnew hleaves (lists_listedTree leaves),
    if_pos hsmall] at h
  cases h

end ArkadeSdk.SwapRestore
