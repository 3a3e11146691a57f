import ArkadeSdk.Arkade.Vm
import ArkadeSdk.Swap.Offer

namespace ArkadeSdk.Offer

open WireFormat JsNumber BtcScript ScriptCoder JsRecord Vm

variable {Tree : Type} {L : ProgramLibraries Tree} {tx : Tx} {i : ℕ}

def paysMaker (makerWP : Bytes) : List Item :=
  [.num 0, .op "INSPECTOUTPUTSCRIPTPUBKEY", .num 1, .op "EQUALVERIFY", .data makerWP, .op "EQUAL"]

def btcItems (makerWP : Bytes) (wantAmount : ℤ) : List Item :=
  [Item.num 0, .op "INSPECTOUTPUTVALUE", .num wantAmount, .op "GREATERTHANOREQUAL", .op "VERIFY"] ++
    paysMaker makerWP

def assetItems (makerWP : Bytes) (wantAmount : ℤ) (txid : Bytes) (groupIndex : ℤ) : List Item :=
  [Item.num 0, .data txid, .num groupIndex, .op "INSPECTOUTASSETLOOKUP", .op "VERIFY",
    .num wantAmount, .op "GREATERTHANOREQUAL", .op "VERIFY"] ++ paysMaker makerWP

theorem entries_args (offer : Offer) (serverPubkey : Bytes) :
    (offer.args serverPubkey).entries = offer.argEntries serverPubkey := by
  have hkeys : ∀ asset : Option Asset.AssetId,
      (["makerWP", "wantAmount", "server", "user"] ++ (assetArgs asset).map Prod.fst).Pairwise
        Before ∧
      "__proto__" ∉ ["makerWP", "wantAmount", "server", "user"] ++
        (assetArgs asset).map Prod.fst := by
    intro asset
    cases asset with
    | none => decide
    | some asset =>
      simp only [assetArgs, List.map_cons, List.map_nil]
      decide
  obtain ⟨hordered, hproto⟩ := hkeys offer.wantAsset
  exact Record.entries_ofEntries hordered hproto

theorem get_args {offer : Offer} {serverPubkey : Bytes} {name : String} {value : ArkadeParamValue}
    (h : (offer.argEntries serverPubkey).lookup name = some value) :
    (offer.args serverPubkey).get name = some value := by
  rw [Record.get, entries_args, h]

def Resolves (bind : Args) (token : AsmToken) (item : Item) : Prop :=
  resolveToken bind token = .ok item

theorem resolves_literal (bind : Args) (z : ℤ) : Resolves bind (literal z) (.num z) := by
  simp only [Resolves, literal, resolveToken, Number.toBigInt_ofInt]
  rfl

theorem resolves_op {bind : Args} {name : String} (h : paramRef name = none)
    (hself : name ≠ "<SELF>") : Resolves bind (.string name) (.op name) := by
  simp [Resolves, resolveToken, h, hself]

theorem resolves_ref {bind : Args} {token name : String} {value : ArkadeParamValue} {item : Item}
    (h : paramRef token = some name) (hv : bind.get name = some value)
    (hitem : value.toItem = .ok item) : Resolves bind (.string token) item := by
  simp only [Resolves, resolveToken, h, bindValue, hv]
  exact hitem

theorem resolves_makerWP (offer : Offer) (serverPubkey : Bytes) :
    Resolves (offer.args serverPubkey) (.string "$makerWP") (.data (offer.makerPkScript.drop 2)) :=
  @resolves_ref _ _ "makerWP" _ _ (by decide) (get_args rfl) rfl

theorem resolves_wantAmount (offer : Offer) (serverPubkey : Bytes) :
    Resolves (offer.args serverPubkey) (.string "$wantAmount") (.num offer.wantAmount) :=
  @resolves_ref _ _ "wantAmount" _ _ (by decide) (get_args rfl) rfl

theorem resolve_pay (offer : Offer) (serverPubkey : Bytes) :
    List.Forall₂ (Resolves (offer.args serverPubkey)) payAsm
      (paysMaker (offer.makerPkScript.drop 2)) := by
  simp only [payAsm, paysMaker, List.forall₂_cons, List.forall₂_nil_right_iff, and_true]
  exact ⟨resolves_literal _ 0, resolves_op (by decide) (by decide),
    resolves_literal _ 1, resolves_op (by decide) (by decide), resolves_makerWP _ _,
    resolves_op (by decide) (by decide)⟩

theorem resolve_btc (offer : Offer) (serverPubkey : Bytes) :
    List.Forall₂ (Resolves (offer.args serverPubkey)) wantBtcAsm
      (btcItems (offer.makerPkScript.drop 2) offer.wantAmount) := by
  refine List.rel_append ?_ (resolve_pay offer serverPubkey)
  simp only [List.forall₂_cons, List.forall₂_nil_right_iff, and_true]
  exact ⟨resolves_literal _ 0, resolves_op (by decide) (by decide),
    resolves_wantAmount _ _, resolves_op (by decide) (by decide),
    resolves_op (by decide) (by decide)⟩

theorem resolve_asset {offer : Offer} {txid : Bytes} {g : ℕ} (serverPubkey : Bytes)
    (h : offer.wantAsset = some ⟨txid, .ofNat g⟩) :
    List.Forall₂ (Resolves (offer.args serverPubkey)) wantAssetAsm
      (assetItems (offer.makerPkScript.drop 2) offer.wantAmount txid.reverse g) := by
  have htxid : (offer.argEntries serverPubkey).lookup "wantAssetTxid" =
      some (.bytes txid.reverse) := by
    rw [argEntries, h]
    rfl
  have hgroup : (offer.argEntries serverPubkey).lookup "wantAssetGroupIndex" =
      some (.number (.ofNat g)) := by
    rw [argEntries, h]
    rfl
  have hitem : (ArkadeParamValue.number (.ofNat g)).toItem = .ok (.num g) := by
    simp only [ArkadeParamValue.toItem, Number.toBigInt_ofNat]
    rfl
  refine List.rel_append ?_ (resolve_pay offer serverPubkey)
  simp only [List.forall₂_cons, List.forall₂_nil_right_iff, and_true]
  exact ⟨resolves_literal _ 0,
    @resolves_ref _ _ "wantAssetTxid" _ _ (by decide) (get_args htxid) rfl,
    @resolves_ref _ _ "wantAssetGroupIndex" _ _ (by decide) (get_args hgroup) hitem,
    resolves_op (by decide) (by decide), resolves_op (by decide) (by decide),
    resolves_wantAmount _ _, resolves_op (by decide) (by decide),
    resolves_op (by decide) (by decide)⟩

def items (offer : Offer) : List Item :=
  match offer.wantAsset with
  | none => btcItems (offer.makerPkScript.drop 2) offer.wantAmount
  | some asset => assetItems (offer.makerPkScript.drop 2) offer.wantAmount asset.txid.reverse
      asset.groupIndex.toUint16

def wanted (offer : Offer) : Option AssetKey :=
  offer.wantAsset.map fun asset ↦ ⟨asset.txid, asset.groupIndex.toUint16⟩

def carried (out : TxOut) : Option AssetKey → Option ℕ
  | none => some out.value
  | some key => out.assets.amount key

/-- Output 0 pays the maker and carries the amount. -/
def Fills (tx : Tx) (offer : Offer) : Prop :=
  ∃ out, tx.outputs[0]? = some out ∧ out.version = 1 ∧
    out.program = offer.makerPkScript.drop 2 ∧
    ∃ amount : ℕ, carried out offer.wanted = some amount ∧ offer.wantAmount ≤ amount

theorem run_paysMaker (makerWP : Bytes) (stack : Stack) :
    run tx i (paysMaker makerWP) stack =
      tx.outputs[0]?.bind fun out ↦
        if out.version = 1 then some (flag (decide (out.program = makerWP)) :: stack) else none := by
  have hspk := @step_outputScriptPubKey tx i 0
  rw [Nat.cast_zero] at hspk
  simp only [paysMaker, run_cons, step_num, Option.bind_some, hspk]
  cases tx.outputs[0]? with
  | none => rfl
  | some out =>
    simp only [Option.map_some, Option.bind_some, run_cons, step_num, step_equalVerify, num_inj]
    by_cases hversion : out.version = 1
    · simp only [if_pos hversion, Option.bind_some, run_cons, step_data, step_equal, run_nil]
    · simp only [if_neg hversion, Option.bind_none]

theorem run_amount {makerWP : Bytes} {wantAmount : ℤ} {amount : ℕ} :
    (∃ result, run tx i ([Item.num wantAmount, .op "GREATERTHANOREQUAL", .op "VERIFY"] ++
        paysMaker makerWP) [num amount] = some [result] ∧ isTrue result = true) ↔
      wantAmount ≤ amount ∧ ∃ out, tx.outputs[0]? = some out ∧ out.version = 1 ∧
        out.program = makerWP := by
  simp only [List.cons_append, List.nil_append, run_cons, step_num, Option.bind_some,
    step_greaterThanOrEqual, step_verify, isTrue_flag, decide_eq_true_eq]
  by_cases hle : wantAmount ≤ amount
  · simp only [run_paysMaker, hle, true_and]
    cases tx.outputs[0]? with
    | none => simp
    | some out =>
      by_cases hversion : out.version = 1
      · simp [hversion]
      · simp [hversion]
  · simp [hle]

theorem run_items_eq (offer : Offer) :
    run tx i offer.items [] = tx.outputs[0]?.bind fun out ↦
      (carried out offer.wanted).bind fun amount : ℕ ↦
        run tx i ([Item.num offer.wantAmount, .op "GREATERTHANOREQUAL", .op "VERIFY"] ++
          paysMaker (offer.makerPkScript.drop 2)) [num amount] := by
  unfold items wanted
  cases offer.wantAsset with
  | none =>
    have hvalue := @step_outputValue tx i 0
    rw [Nat.cast_zero] at hvalue
    simp only [btcItems, List.cons_append, List.nil_append]
    rw [run_cons, step_num, Option.bind_some, run_cons, hvalue]
    cases tx.outputs[0]? <;> rfl
  | some asset =>
    have hlookup := @step_outAssetLookup tx i 0
    rw [Nat.cast_zero] at hlookup
    simp only [assetItems, List.cons_append, List.nil_append]
    rw [run_cons, step_num, Option.bind_some, run_cons, step_data, Option.bind_some, run_cons,
      step_num, Option.bind_some, run_cons, hlookup]
    cases tx.outputs[0]? with
    | none => rfl
    | some out =>
      rw [Option.map_some, Option.bind_some, run_cons, verify_pushAmount, List.reverse_reverse]
      simp only [Option.bind_some, Option.map_some, carried]
      cases out.assets.amount ⟨asset.txid, asset.groupIndex.toUint16⟩ <;> rfl

theorem run_items {offer : Offer} :
    (∃ result, run tx i offer.items [] = some [result] ∧ isTrue result = true) ↔
      Fills tx offer := by
  rw [run_items_eq]
  unfold Fills
  cases hout : tx.outputs[0]? with
  | none => simp
  | some out =>
    simp only [Option.bind_some, Option.some.injEq, exists_eq_left']
    cases carried out offer.wanted with
    | none => simp
    | some amount =>
      simp only [Option.bind_some, run_amount, hout, Option.some.injEq, exists_eq_left']
      tauto

def asm (offer : Offer) : List AsmToken :=
  if offer.wantAsset.isSome then wantAssetAsm else wantBtcAsm

theorem validate_ok {asset : Asset.AssetId} (h : asset.validate = .ok ()) :
    ∃ g ≤ 0xffff, asset.groupIndex = .ofNat g := by
  have hrange := rejectIf_ok.mp (then_ok.mp h).2
  exact Number.inRange_iff.mp (by simpa using hrange)

theorem resolve_items {offer : Offer} (hasset : ∀ asset ∈ offer.wantAsset, asset.validate = .ok ())
    (serverPubkey : Bytes) :
    offer.asm.mapM (resolveToken (offer.args serverPubkey)) = .ok offer.items := by
  apply mapM_ok_of_forall₂
  cases h : offer.wantAsset with
  | none =>
    rw [asm, items, h]
    exact resolve_btc offer serverPubkey
  | some asset =>
    obtain ⟨txid, groupIndex⟩ := asset
    obtain ⟨g, hg, hgroup⟩ := validate_ok (hasset _ h)
    simp only at hgroup
    subst hgroup
    rw [asm, items, h]
    simp only [Number.toUint16_ofNat (Nat.lt_succ_of_le hg)]
    exact resolve_asset serverPubkey h

theorem named_items {OP : OpTable} (offer : Offer) :
    ∀ x ∈ offer.items, ArkadeScript.Named OP x := by
  have hge : ArkadeScript.Named OP (.op "GREATERTHANOREQUAL") :=
    ArkadeScript.named_standard (p := ("GREATERTHANOREQUAL", 0xa2)) (by decide)
  have hverify : ArkadeScript.Named OP (.op "VERIFY") :=
    ArkadeScript.named_standard (p := ("VERIFY", 0x69)) (by decide)
  have hpays : ∀ x ∈ paysMaker (offer.makerPkScript.drop 2), ArkadeScript.Named OP x := by
    simp only [paysMaker, List.forall_mem_cons]
    exact ⟨ArkadeScript.named_num 0,
      ArkadeScript.named_arkade (p := ("INSPECTOUTPUTSCRIPTPUBKEY", 0xd1)) (by decide),
      ArkadeScript.named_num 1,
      ArkadeScript.named_standard (p := ("EQUALVERIFY", 0x88)) (by decide),
      ArkadeScript.named_data _,
      ArkadeScript.named_standard (p := ("EQUAL", 0x87)) (by decide), by simp⟩
  unfold items
  cases offer.wantAsset with
  | none =>
    refine List.forall_mem_append.mpr ⟨?_, hpays⟩
    simp only [List.forall_mem_cons]
    exact ⟨ArkadeScript.named_num 0,
      ArkadeScript.named_arkade (p := ("INSPECTOUTPUTVALUE", 0xcf)) (by decide),
      ArkadeScript.named_num _, hge, hverify, by simp⟩
  | some asset =>
    refine List.forall_mem_append.mpr ⟨?_, hpays⟩
    simp only [List.forall_mem_cons]
    exact ⟨ArkadeScript.named_num 0, ArkadeScript.named_data _, ArkadeScript.named_num _,
      ArkadeScript.named_arkade (p := ("INSPECTOUTASSETLOOKUP", 0xef)) (by decide), hverify,
      ArkadeScript.named_num _, hge, hverify, by simp⟩

theorem entries_programFunctions (asm : List AsmToken) : (programFunctions asm).entries =
    [("fulfill", ⟨none, ⟨[.string "$server"], none, none, none, none⟩, some ⟨asm, none⟩⟩),
      ("cancel", ⟨none, ⟨[.string "$user", .string "$server"], none, none, none, none⟩, none⟩)] := by
  have hkeys : ["fulfill", "cancel"].Pairwise Before := by decide
  exact Record.entries_ofEntries hkeys (by simp)

def covenant {Tree : Type} (script : ArkadeProgramScript Tree) : Option Bytes :=
  (script.compiled.find? fun f ↦ f.name = "fulfill").bind CompiledProgramFunction.arkadeScript

theorem covenant_items {offer : Offer} {serverPubkey : Bytes} {script : ArkadeProgramScript Tree}
    (hasset : ∀ asset ∈ offer.wantAsset, asset.validate = .ok ())
    (h : offerVtxoScript L offer serverPubkey = .ok script) :
    ∃ bytes, covenant script = some bytes ∧
      ArkadeScript.encode L.OP offer.items = .ok bytes := by
  obtain ⟨binding, hbinding, hnew⟩ := bind_ok.mp h
  obtain ⟨-, hbinding⟩ := then_ok.mp hbinding
  simp only [pure_ok] at hbinding
  subst hbinding
  obtain ⟨compiled, hcompiled, hnew⟩ := bind_ok.mp hnew
  obtain ⟨tree, -, hnew⟩ := bind_ok.mp hnew
  simp only [pure_ok] at hnew
  subst hnew
  have hfunctions : (if offer.wantAsset.isSome then wantAssetProgram else wantBtc).functions =
      programFunctions offer.asm := by
    unfold asm
    split <;> rfl
  unfold compileFunctions at hcompiled
  obtain ⟨-, hcompiled⟩ := then_ok.mp hcompiled
  obtain ⟨-, hcompiled⟩ := then_ok.mp hcompiled
  obtain ⟨-, hcompiled⟩ := then_ok.mp hcompiled
  obtain ⟨-, hcompiled⟩ := then_ok.mp hcompiled
  rw [hfunctions, entries_programFunctions] at hcompiled
  obtain ⟨fulfill, hfulfill, rest, -, rfl⟩ := mapM_cons_ok.mp hcompiled
  unfold compileFunction at hfulfill
  simp only [bind_ok, pure_ok] at hfulfill
  obtain ⟨-, -, pubkeys, -, arkadeScript, hscript, -, -, -, -, rfl⟩ := hfulfill
  simp only [resolveArkadeScript, resolveAsm, map_ok, bind_ok, resolve_items hasset,
    Except.ok.injEq, exists_eq_left'] at hscript
  obtain ⟨bytes, hbytes, rfl⟩ := hscript
  exact ⟨bytes, by simp [covenant], hbytes⟩

end ArkadeSdk.Offer
