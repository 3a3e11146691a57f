import ArkadeSdk.Arkade.Vm
import ArkadeSdk.Script.Vhtlc

namespace ArkadeSdk.VHTLC

open WireFormat JsNumber BtcScript ScriptCoder Vm

variable {OP : OpTable} {tx : Tx} {i : ℕ}

/-- Output `i` is a taproot output with the destination's program, worth at least input `i`
and at least the quote. -/
def Pays (tx : Tx) (i : ℕ) (destinationPkScript : Bytes) (quotedSats : Option ℤ) : Prop :=
  ∃ out inp, tx.outputs[i]? = some out ∧ tx.inputs[i]? = some inp ∧ out.version = 1 ∧
    out.program = destinationPkScript.drop 2 ∧ inp.value ≤ out.value ∧
    ∀ quoted ∈ quotedSats, quoted ≤ out.value

/-- Output `i` carries the asset and nothing beside it, at least as much as input `i` does and
at least the quote. -/
def Carries (tx : Tx) (i : ℕ) (key : AssetKey) (quotedAsset : Option ℤ) : Prop :=
  ∃ out inp a b, tx.outputs[i]? = some out ∧ tx.inputs[i]? = some inp ∧
    out.assets.amount key = some a ∧ inp.assets.amount key = some b ∧ b ≤ a ∧
    (∀ quoted ∈ quotedAsset, quoted ≤ a) ∧ out.assets.count = 1

theorem run_quotedBound (quoted : Option ℤ) (v : ℕ) (stack : Stack) :
    run tx i (quotedBound quoted) (num v :: stack) =
      if ∀ q ∈ quoted, q ≤ v then some (num v :: stack) else none := by
  cases quoted with
  | none => simp [quotedBound]
  | some q =>
    simp only [quotedBound, run_cons, step_dup, step_num, step_greaterThanOrEqual, step_verify,
      Option.bind_some, isTrue_flag]
    by_cases hq : q ≤ v
    · simp [hq]
    · simp [hq]

theorem run_satClause (destinationPkScript : Bytes) (quotedSats : Option ℤ) (stack : Stack) :
    run tx i (satClause destinationPkScript quotedSats) stack =
      tx.outputs[i]?.bind fun out ↦
        if out.version = 1 ∧ out.program = destinationPkScript.drop 2 ∧
          ∀ q ∈ quotedSats, q ≤ out.value then
          tx.inputs[i]?.map fun inp ↦ flag (decide ((inp.value : ℤ) ≤ out.value)) :: stack
        else none := by
  unfold satClause
  rw [run_append]
  simp only [run_cons, step_pushCurrentInputIndex, step_dup, step_outputScriptPubKey,
    Option.bind_some]
  cases hout : tx.outputs[i]? with
  | none => rfl
  | some out =>
    simp only [Option.map_some, Option.bind_some, run_cons, step_num, step_equalVerify, num_inj]
    by_cases hversion : out.version = 1
    · simp only [hversion, if_true, Option.bind_some, run_cons, step_data, step_equalVerify,
        true_and]
      by_cases hprogram : out.program = destinationPkScript.drop 2
      · simp only [hprogram, if_true, Option.bind_some, run_cons, step_outputValue, hout,
          Option.map_some, run_nil, run_append, run_quotedBound, true_and]
        by_cases hquoted : ∀ q ∈ quotedSats, q ≤ out.value
        · simp only [if_pos hquoted, Option.bind_some, run_cons, step_pushCurrentInputIndex,
            step_inputValue]
          cases tx.inputs[i]? with
          | none => rfl
          | some inp =>
            simp only [Option.map_some, Option.bind_some, run_cons, step_greaterThanOrEqual,
              run_nil]
        · simp only [if_neg hquoted, Option.bind_none]
      · simp only [hprogram, if_false, Option.bind_none, false_and]
    · simp only [hversion, if_false, Option.bind_none, false_and]

theorem run_assetClause {txid : Bytes} {g : ℕ} {quotedAsset : Option ℤ} {stack result : Stack} :
    run tx i (assetClause txid.reverse g quotedAsset) stack = some result ↔
      result = stack ∧ Carries tx i ⟨txid, g⟩ quotedAsset := by
  unfold assetClause Carries
  rw [run_append]
  simp only [run_cons, step_pushCurrentInputIndex, step_num, step_data, Option.bind_some,
    step_outAssetLookup, List.reverse_reverse]
  cases hout : tx.outputs[i]? with
  | none => simp
  | some out =>
    simp only [Option.map_some, Option.bind_some, run_cons, verify_pushAmount]
    cases ha : out.assets.amount ⟨txid, g⟩ with
    | none => simp [ha]
    | some a =>
      simp only [Option.map_some, Option.bind_some, run_nil]
      rw [run_append, run_quotedBound]
      by_cases hquoted : ∀ q ∈ quotedAsset, q ≤ a
      · rw [if_pos hquoted]
        simp only [Option.bind_some, run_cons, step_pushCurrentInputIndex,
          step_num, step_data, step_inAssetLookup, List.reverse_reverse]
        cases hinp : tx.inputs[i]? with
        | none => simp
        | some inp =>
          simp only [Option.map_some, Option.bind_some, run_cons, verify_pushAmount]
          cases hb : inp.assets.amount ⟨txid, g⟩ with
          | none => simp [hb]
          | some b =>
            simp only [Option.map_some, Option.bind_some, run_cons, step_greaterThanOrEqual,
              step_verify, isTrue_flag, decide_eq_true_eq, Nat.cast_le]
            by_cases hle : b ≤ a
            · simp only [if_pos hle, Option.bind_some, run_cons, step_pushCurrentInputIndex,
                step_outAssetCount, hout, Option.map_some, step_num, step_equalVerify, num_inj,
                Nat.cast_eq_one]
              by_cases hcount : out.assets.count = 1
              · simp only [Option.mem_def] at hquoted
                simp [hcount, ha, hb, hle, eq_comm]
                exact fun _ ↦ hquoted
              · simp [hcount]
            · simp [hle, ha, hb]
      · rw [if_neg hquoted]
        simp only [Option.bind_none, reduceCtorEq, false_iff]
        rintro ⟨-, out', inp, a', b, ⟨⟩, -, ha', -, -, hquoted', -⟩
        rw [ha] at ha'
        cases ha'
        exact hquoted hquoted'

theorem run_satClause_true {destinationPkScript : Bytes} {quotedSats : Option ℤ} :
    (∃ result, run tx i (satClause destinationPkScript quotedSats) [] = some [result] ∧
      isTrue result = true) ↔ Pays tx i destinationPkScript quotedSats := by
  rw [run_satClause]
  unfold Pays
  cases hout : tx.outputs[i]? with
  | none => simp
  | some out =>
    cases hinp : tx.inputs[i]? with
    | none => simp
    | some inp =>
      by_cases hcond : out.version = 1 ∧ out.program = destinationPkScript.drop 2 ∧
          ∀ q ∈ quotedSats, q ≤ out.value
      · obtain ⟨hversion, hprogram, hquoted⟩ := hcond
        simp only [hversion, hprogram, true_and, if_pos hquoted, Option.bind_some,
          Option.map_some, Option.some.injEq, List.cons.injEq, and_true, exists_eq_left',
          isTrue_flag, decide_eq_true_eq, Nat.cast_le]
        constructor
        · exact fun hle ↦ ⟨out, inp, rfl, rfl, hversion, hprogram, hle, hquoted⟩
        · rintro ⟨out', inp', rfl, rfl, -, -, hle, -⟩
          exact hle
      · simp only [Option.bind_some, if_neg hcond, reduceCtorEq, false_and, exists_const,
          Option.some.injEq, false_iff]
        rintro ⟨out', inp', ⟨⟩, -, hversion, hprogram, -, hquoted⟩
        exact hcond ⟨hversion, hprogram, hquoted⟩

theorem named_quotedBound (quoted : Option ℤ) :
    ∀ x ∈ quotedBound quoted, ArkadeScript.Named OP x := by
  cases quoted with
  | none => simp [quotedBound]
  | some q =>
    simp only [quotedBound, List.forall_mem_cons]
    exact ⟨ArkadeScript.named_standard (p := ("DUP", 0x76)) (by decide), ArkadeScript.named_num q,
      ArkadeScript.named_standard (p := ("GREATERTHANOREQUAL", 0xa2)) (by decide),
      ArkadeScript.named_standard (p := ("VERIFY", 0x69)) (by decide), by simp⟩

theorem named_satClause (destinationPkScript : Bytes) (quotedSats : Option ℤ) :
    ∀ x ∈ satClause destinationPkScript quotedSats, ArkadeScript.Named OP x := by
  have hindex : ArkadeScript.Named OP (.op "PUSHCURRENTINPUTINDEX") :=
    ArkadeScript.named_arkade (p := ("PUSHCURRENTINPUTINDEX", 0xcd)) (by decide)
  have hequal : ArkadeScript.Named OP (.op "EQUALVERIFY") :=
    ArkadeScript.named_standard (p := ("EQUALVERIFY", 0x88)) (by decide)
  simp only [satClause, List.forall_mem_append, List.forall_mem_cons]
  refine ⟨⟨hindex, ArkadeScript.named_standard (p := ("DUP", 0x76)) (by decide),
    ArkadeScript.named_arkade (p := ("INSPECTOUTPUTSCRIPTPUBKEY", 0xd1)) (by decide),
    ArkadeScript.named_num 1, hequal, ArkadeScript.named_data _, hequal,
    ArkadeScript.named_arkade (p := ("INSPECTOUTPUTVALUE", 0xcf)) (by decide), by simp⟩,
    named_quotedBound quotedSats, hindex, ?_, ?_, by simp⟩
  · exact ArkadeScript.named_arkade (p := ("INSPECTINPUTVALUE", 0xc9)) (by decide)
  · exact ArkadeScript.named_standard (p := ("GREATERTHANOREQUAL", 0xa2)) (by decide)

theorem named_assetClause (txid : Bytes) (g : ℤ) (quotedAsset : Option ℤ) :
    ∀ x ∈ assetClause txid g quotedAsset, ArkadeScript.Named OP x := by
  have hindex : ArkadeScript.Named OP (.op "PUSHCURRENTINPUTINDEX") :=
    ArkadeScript.named_arkade (p := ("PUSHCURRENTINPUTINDEX", 0xcd)) (by decide)
  have hverify : ArkadeScript.Named OP (.op "VERIFY") :=
    ArkadeScript.named_standard (p := ("VERIFY", 0x69)) (by decide)
  simp only [assetClause, List.forall_mem_append, List.forall_mem_cons]
  refine ⟨⟨hindex, ArkadeScript.named_data txid, ArkadeScript.named_num g, ?_, hverify, by simp⟩,
    named_quotedBound quotedAsset, hindex, ArkadeScript.named_data txid, ArkadeScript.named_num g,
    ?_, hverify, ?_, hverify, hindex, ?_, ArkadeScript.named_num 1, ?_, by simp⟩
  · exact ArkadeScript.named_arkade (p := ("INSPECTOUTASSETLOOKUP", 0xef)) (by decide)
  · exact ArkadeScript.named_arkade (p := ("INSPECTINASSETLOOKUP", 0xf2)) (by decide)
  · exact ArkadeScript.named_standard (p := ("GREATERTHANOREQUAL", 0xa2)) (by decide)
  · exact ArkadeScript.named_arkade (p := ("INSPECTOUTASSETCOUNT", 0xed)) (by decide)
  · exact ArkadeScript.named_standard (p := ("EQUALVERIFY", 0x88)) (by decide)

/-- A bound that a script number of 520 bytes holds. -/
def Fits (quoted : Option ℤ) : Prop :=
  ∀ q ∈ quoted, (ScriptNumber.encode q).length ≤ BigNum.BIGNUM_MAX_BYTES

/-- An item that `ArkadeScript.encode` takes. -/
def Writable (OP : OpTable) (x : Item) : Prop := ∃ bs, ArkadeScript.encodeItem OP x = .ok bs

theorem writable_num_iff {n : ℤ} :
    Writable OP (.num n) ↔ (ScriptNumber.encode n).length ≤ BigNum.BIGNUM_MAX_BYTES :=
  ArkadeScript.encodeItem_num

theorem writable_small {n : ℕ} (h : n < 256) : Writable OP (.num n) := by
  have hlen : (ScriptNumber.encode n).length ≤ 2 :=
    ScriptNumber.length_encode_le (k := 1) (by simpa using h)
  exact writable_num_iff.mpr (hlen.trans (by decide))

theorem writable_quotedBound {quoted : Option ℤ} :
    (∀ x ∈ quotedBound quoted, Writable OP x) ↔ Fits quoted := by
  have hnamed := @named_quotedBound OP quoted
  cases quoted with
  | none => simp [quotedBound, Fits]
  | some q =>
    simp only [quotedBound, List.forall_mem_cons] at hnamed ⊢
    obtain ⟨hdup, -, hge, hverify, -⟩ := hnamed
    simp only [Fits, Option.mem_def, Option.some.injEq, forall_eq']
    constructor
    · exact fun h ↦ writable_num_iff.mp h.2.1
    · intro h
      exact ⟨ArkadeScript.encodeItem_op hdup, writable_num_iff.mpr h,
        ArkadeScript.encodeItem_op hge, ArkadeScript.encodeItem_op hverify, by simp⟩

theorem writable_satClause {destinationPkScript : Bytes} {quotedSats : Option ℤ}
    (hd : destinationPkScript.length ≤ 0xffffffff) :
    (∀ x ∈ satClause destinationPkScript quotedSats, Writable OP x) ↔ Fits quotedSats := by
  have hnamed := @named_satClause OP destinationPkScript quotedSats
  have hdata : Writable OP (.data (destinationPkScript.drop 2)) :=
    ArkadeScript.push_ok_of_le (by rw [List.length_drop]; omega)
  rw [← @writable_quotedBound OP]
  simp only [satClause, List.forall_mem_append, List.forall_mem_cons] at hnamed ⊢
  obtain ⟨⟨h1, h2, h3, -, h4, -, h5, h6, -⟩, -, h7, h8, h9, -⟩ := hnamed
  constructor
  · exact fun h ↦ h.2.1
  · intro h
    exact ⟨⟨ArkadeScript.encodeItem_op h1, ArkadeScript.encodeItem_op h2,
      ArkadeScript.encodeItem_op h3, writable_small (n := 1) (by decide),
      ArkadeScript.encodeItem_op h4, hdata, ArkadeScript.encodeItem_op h5,
      ArkadeScript.encodeItem_op h6, by simp⟩, h, ArkadeScript.encodeItem_op h7,
      ArkadeScript.encodeItem_op h8, ArkadeScript.encodeItem_op h9, by simp⟩

theorem writable_assetClause {txid : Bytes} {g : ℕ} {quotedAsset : Option ℤ}
    (ht : txid.length = 32) (hg : g ≤ 0xffff) :
    (∀ x ∈ assetClause txid g quotedAsset, Writable OP x) ↔ Fits quotedAsset := by
  have hnamed := @named_assetClause OP txid g quotedAsset
  have hdata : Writable OP (.data txid) := ArkadeScript.push_ok_of_le (by omega)
  have hgroup : Writable OP (.num g) := by
    have hlen : (ScriptNumber.encode (g : ℤ)).length ≤ 3 :=
      ScriptNumber.length_encode_le (k := 2) (by simpa using Nat.lt_succ_of_le hg)
    exact writable_num_iff.mpr (hlen.trans (by decide))
  rw [← @writable_quotedBound OP]
  simp only [assetClause, List.forall_mem_append, List.forall_mem_cons] at hnamed ⊢
  obtain ⟨⟨h1, -, -, h2, h3, -⟩, -, -, -, -, h4, -, h5, -, -, h6, -, h7, -⟩ := hnamed
  constructor
  · exact fun h ↦ h.2.1
  · intro h
    exact ⟨⟨ArkadeScript.encodeItem_op h1, hdata, hgroup, ArkadeScript.encodeItem_op h2,
      ArkadeScript.encodeItem_op h3, by simp⟩, h, ArkadeScript.encodeItem_op h1, hdata, hgroup,
      ArkadeScript.encodeItem_op h4, ArkadeScript.encodeItem_op h3, ArkadeScript.encodeItem_op h5,
      ArkadeScript.encodeItem_op h3, ArkadeScript.encodeItem_op h1, ArkadeScript.encodeItem_op h6,
      writable_small (n := 1) (by decide), ArkadeScript.encodeItem_op h7, by simp⟩

/-- What `enforcePayToAsset` asks of an asset id. -/
structure Asset.Valid (asset : Asset) : Prop where
  txid : asset.txid.length = 32
  groupIndex : asset.groupIndex.inRange 0xffff = true

/-- What a spend of input `i` has to do. -/
def Covenant (tx : Tx) (i : ℕ) (destinationPkScript : Bytes) (asset : Option Asset)
    (strict : Option Strict) : Prop :=
  Pays tx i destinationPkScript (strict.map Strict.amount) ∧
    ∀ a ∈ asset, ∃ g : ℕ, a.groupIndex = .ofNat g ∧
      Carries tx i ⟨a.txid, g⟩ (strict.bind Strict.assetAmount)

theorem enforcePayTo_eq {destinationPkScript : Bytes}
    (hd : isP2trPkScript destinationPkScript = true) (quotedSats : Option ℤ) :
    enforcePayTo OP destinationPkScript quotedSats =
      ArkadeScript.encode OP (satClause destinationPkScript quotedSats) := by
  simp [enforcePayTo, rejectIf, hd]
  rfl

theorem enforcePayToAsset_eq {destinationPkScript : Bytes}
    (hd : isP2trPkScript destinationPkScript = true) {txid : Bytes} {g : ℕ}
    (ht : txid.length = 32) (hg : g ≤ 0xffff) (strict : Option Strict) :
    enforcePayToAsset OP destinationPkScript ⟨txid, .ofNat g⟩ strict =
      ArkadeScript.encode OP (assetClause txid.reverse g (strict.bind Strict.assetAmount) ++
        satClause destinationPkScript (strict.map Strict.amount)) := by
  have hrange : (Number.ofNat g).inRange 0xffff = true := Number.inRange_ofNat.mpr hg
  simp [enforcePayToAsset, rejectIf, hd, ht, hrange]
  rfl

theorem isP2trPkScript_length {pkScript : Bytes} (h : isP2trPkScript pkScript = true) :
    pkScript.length = 34 := by
  simp only [isP2trPkScript, Bool.and_eq_true, decide_eq_true_eq] at h
  exact h.1.1

/-- The covenant script exists as soon as its bounds fit a script number, and the spends it
accepts are those that pay the destination and, for an asset contract, carry the asset. -/
theorem enforcePayToMaybeAsset_spec {destinationPkScript : Bytes} {asset : Option Asset}
    {strict : Option Strict} (hd : isP2trPkScript destinationPkScript = true)
    (ha : ∀ a ∈ asset, a.Valid) (hs : ∀ s ∈ strict, validateStrict asset s = .ok ()) :
    ((∃ script, enforcePayToMaybeAsset OP destinationPkScript asset strict = .ok script) ↔
      Fits (strict.map Strict.amount) ∧ Fits (strict.bind Strict.assetAmount)) ∧
    ∀ script, enforcePayToMaybeAsset OP destinationPkScript asset strict = .ok script →
      ∀ tx i, Accepts OP tx i script ↔ Covenant tx i destinationPkScript asset strict := by
  have hlen : destinationPkScript.length ≤ 0xffffffff := by
    rw [isP2trPkScript_length hd]
    omega
  cases asset with
  | none =>
    have hnone : strict.bind Strict.assetAmount = none := by
      cases strict with
      | none => rfl
      | some s =>
        obtain ⟨-, h⟩ := then_ok.mp (hs s rfl)
        obtain ⟨-, h⟩ := then_ok.mp h
        have hrefused := rejectIf_ok.mp (then_ok.mp h).1
        simpa using hrefused
    simp only [enforcePayToMaybeAsset, enforcePayTo_eq hd]
    refine ⟨?_, fun script hscript tx i ↦ ?_⟩
    · rw [hnone, ← @writable_satClause OP _ _ hlen]
      exact encodeWith_exists.trans (iff_self_and.mpr fun _ ↦ by simp [Fits])
    · rw [accepts_iff (named_satClause _ _) hscript, run_satClause_true]
      simp [Covenant]
  | some a =>
    obtain ⟨txid, groupIndex⟩ := a
    obtain ⟨ht, hrange⟩ := ha _ rfl
    obtain ⟨g, hg, hgroup⟩ := Number.inRange_iff.mp hrange
    simp only at ht hgroup
    subst hgroup
    simp only [enforcePayToMaybeAsset, enforcePayToAsset_eq hd ht hg]
    refine ⟨?_, fun script hscript tx i ↦ ?_⟩
    · rw [← @writable_satClause OP _ _ hlen, and_comm,
        ← @writable_assetClause OP txid.reverse g _ (by simpa using ht) hg,
        ← List.forall_mem_append]
      exact encodeWith_exists
    · have hnamed : ∀ x ∈ assetClause txid.reverse g (strict.bind Strict.assetAmount) ++
          satClause destinationPkScript (strict.map Strict.amount), ArkadeScript.Named OP x :=
        List.forall_mem_append.mpr ⟨named_assetClause _ _ _, named_satClause _ _⟩
      rw [accepts_iff hnamed hscript]
      simp only [run_append, Option.bind_eq_some_iff, run_assetClause]
      constructor
      · rintro ⟨result, ⟨stack, ⟨rfl, hcarries⟩, hrun⟩, htrue⟩
        refine ⟨run_satClause_true.mp ⟨result, hrun, htrue⟩, ?_⟩
        rintro a ⟨⟩
        exact ⟨g, rfl, hcarries⟩
      · rintro ⟨hpays, hcarries⟩
        obtain ⟨result, hrun, htrue⟩ := run_satClause_true.mpr hpays
        obtain ⟨g', hg', hcarries⟩ := hcarries _ rfl
        obtain rfl := Number.ofNat_injective hg'
        exact ⟨result, ⟨[], ⟨rfl, hcarries⟩, hrun⟩, htrue⟩

/-- The spec at a quoted asset contract: both bounds fit, so the covenant exists. -/
theorem enforcePayToMaybeAsset_quoted :
    ∃ script, enforcePayToMaybeAsset standardOps (0x51 :: 0x20 :: List.replicate 32 7)
        (some ⟨List.replicate 32 1, .ofNat 300⟩) (some ⟨1000, some 50⟩) = .ok script ∧
      ∀ tx i, Accepts standardOps tx i script ↔
        Covenant tx i (0x51 :: 0x20 :: List.replicate 32 7)
          (some ⟨List.replicate 32 1, .ofNat 300⟩) (some ⟨1000, some 50⟩) := by
  have hvalid : ∀ a ∈ some (⟨List.replicate 32 1, .ofNat 300⟩ : Asset), a.Valid := by
    rintro a ⟨⟩
    exact ⟨rfl, by decide⟩
  have hstrict : ∀ s ∈ some (⟨1000, some 50⟩ : Strict),
      validateStrict (some ⟨List.replicate 32 1, .ofNat 300⟩) s = .ok () := by
    rintro s ⟨⟩
    rfl
  obtain ⟨hexists, hspec⟩ := @enforcePayToMaybeAsset_spec standardOps
    (0x51 :: 0x20 :: List.replicate 32 7) _ _ (by decide) hvalid hstrict
  obtain ⟨script, hscript⟩ := hexists.mpr ⟨by
    rintro q ⟨⟩
    exact (ScriptNumber.length_encode_le (z := 1000) (k := 2) (by decide)).trans (by decide), by
    rintro q ⟨⟩
    exact (ScriptNumber.length_encode_le (z := 50) (k := 1) (by decide)).trans (by decide)⟩
  exact ⟨script, hscript, hspec script hscript⟩

end ArkadeSdk.VHTLC
