import ArkadeSdk.Arkade.ProgramRoundTrip

/-! What comes back from an artifact compiles to the same scripts. -/

namespace ArkadeSdk

open WireFormat JsNumber BtcScript ScriptCoder JsRecord

variable {OP : OpTable} {args : Args}

/-- No opcode is named like a byte string. -/
def OpNamesPlain (OP : OpTable) : Prop :=
  ∀ s b, OP.code s = some b → Json.startsWith "0x" s = false

theorem code_plain (hOP : OpNamesPlain OP) {s : String} {b : UInt8}
    (h : ArkadeScript.code OP s = some b) : Json.startsWith "0x" s = false := by
  unfold ArkadeScript.code at h
  split at h
  · rename_i c hc
    have hall : ∀ p ∈ ARKADE_OP, Json.startsWith "0x" p.1 = false := by decide +kernel
    obtain ⟨l₁, l₂, hmem, -⟩ := List.lookup_eq_some_iff.mp hc
    exact hall (s, c) (by rw [hmem]; simp)
  · exact hOP s b h

theorem paramRef_eq_some {s name : String} (h : paramRef s = some name) :
    Json.startsWith "$" s = true ∧ Json.startsWith "0x" s = false := by
  unfold paramRef at h
  split at h
  · rename_i hdollar
    obtain ⟨rest, hrest⟩ := List.isPrefixOf_iff_prefix.mp hdollar
    have hcons : s.toList = '$' :: rest := hrest.symm
    refine ⟨hdollar, ?_⟩
    rw [Json.startsWith, hcons]
    rfl
  · cases h

theorem resolveToken_reread {t : AsmToken} {x : Item} {bs : Bytes}
    (hx : resolveToken args t = .ok x) (hbs : ArkadeScript.encodeItem OP x = .ok bs) :
    ∃ y, resolveToken args t.reread = .ok y ∧ ArkadeScript.encodeItem OP y = .ok bs := by
  cases t with
  | bigint z =>
    obtain rfl := Except.ok.inj hx
    rw [AsmToken.reread]
    split
    · exact ⟨.num z, by simp [resolveToken], hbs⟩
    · obtain ⟨o, ho, hbs⟩ := bind_ok.mp hbs
      obtain ⟨rfl, -⟩ := BigNum.encode_ok.mp ho
      exact ⟨.data (ScriptNumber.encode z), rfl, hbs⟩
  | number a =>
    obtain ⟨z, ha, -⟩ := map_ok.mp hx
    have hfinite : a.isFinite = true := by
      rw [Number.toBigInt_eq_ok ha]
      rfl
    rw [AsmToken.reread, if_pos hfinite]
    exact ⟨x, hx, hbs⟩
  | string s => exact ⟨x, hx, hbs⟩
  | bytes b => exact ⟨x, hx, hbs⟩
  | other v => cases hx

theorem resolveToken_declared (hOP : OpNamesPlain OP) {t : AsmToken} {x : Item} {bs : Bytes}
    (hx : resolveToken args t = .ok x) (hbs : ArkadeScript.encodeItem OP x = .ok bs) :
    t.Declared := by
  cases t with
  | bigint z | number a | bytes b => trivial
  | other v => cases hx
  | string s =>
    simp only [resolveToken] at hx
    cases href : paramRef s with
    | some name => exact (paramRef_eq_some href).2
    | none =>
      simp only [href] at hx
      split at hx
      · cases hx
      · obtain rfl := Except.ok.inj hx
        simp only [ArkadeScript.encodeItem] at hbs
        split at hbs
        · cases hbs
        · rename_i b hb
          exact code_plain hOP hb

theorem resolveAsm_cons {t : AsmToken} {asm : List AsmToken} {bs : Bytes} :
    resolveAsm OP (t :: asm) args = .ok bs ↔
      ∃ x head tail, resolveToken args t = .ok x ∧ ArkadeScript.encodeItem OP x = .ok head ∧
        resolveAsm OP asm args = .ok tail ∧ bs = head ++ tail := by
  simp only [resolveAsm, bind_ok, mapM_cons_ok]
  constructor
  · rintro ⟨xs, ⟨x, hx, ys, hys, rfl⟩, hbs⟩
    obtain ⟨head, hhead, hbs⟩ := bind_ok.mp hbs
    obtain ⟨tail, htail, hbs⟩ := bind_ok.mp hbs
    exact ⟨x, head, tail, hx, hhead, ⟨ys, hys, htail⟩, (Except.ok.inj hbs).symm⟩
  · rintro ⟨x, head, tail, hx, hhead, ⟨ys, hys, htail⟩, rfl⟩
    exact ⟨x :: ys, ⟨x, hx, ys, hys, rfl⟩,
      bind_ok.mpr ⟨head, hhead, bind_ok.mpr ⟨tail, htail, rfl⟩⟩⟩

theorem resolveAsm_reread {asm : List AsmToken} {bs : Bytes}
    (h : resolveAsm OP asm args = .ok bs) :
    resolveAsm OP (asm.map AsmToken.reread) args = .ok bs := by
  induction asm generalizing bs with
  | nil => exact h
  | cons t asm ih =>
    obtain ⟨x, head, tail, hx, hhead, htail, rfl⟩ := resolveAsm_cons.mp h
    obtain ⟨y, hy, hhead⟩ := resolveToken_reread hx hhead
    exact resolveAsm_cons.mpr ⟨y, head, tail, hy, hhead, ih htail, rfl⟩

theorem resolveAsm_declared (hOP : OpNamesPlain OP) {asm : List AsmToken} {bs : Bytes}
    (h : resolveAsm OP asm args = .ok bs) : ∀ t ∈ asm, t.Declared := by
  induction asm generalizing bs with
  | nil => simp
  | cons t asm ih =>
    obtain ⟨x, head, tail, hx, hhead, htail, rfl⟩ := resolveAsm_cons.mp h
    exact List.forall_mem_cons.mpr ⟨resolveToken_declared hOP hx hhead, ih htail⟩

theorem witnessRefToBytes_reread (t : AsmToken) (callArgs : Args) {b : Bytes} :
    witnessRefToBytes t.reread callArgs args = .ok b ↔ witnessRefToBytes t callArgs args = .ok b := by
  cases t with
  | bigint z =>
    rw [AsmToken.reread]
    split
    · simp [witnessRefToBytes]
    · simp [witnessRefToBytes]
  | number a =>
    rw [AsmToken.reread]
    split
    · rfl
    · rename_i ha
      simp only [witnessRefToBytes, reduceCtorEq, false_iff, map_ok, not_exists, not_and]
      intro z hz
      rw [Number.toBigInt_eq_ok hz] at ha
      exact absurd rfl ha
  | string s => rfl
  | bytes b => rfl
  | other v => rfl

theorem resolveSigner_reread {s : SignerRef} {k : Bytes} (h : resolveSigner s args = .ok k) :
    s.Declared ∧ resolveSigner s.reread args = .ok k := by
  cases s with
  | bytes b => exact ⟨trivial, h⟩
  | string s =>
    cases href : paramRef s with
    | none => simp [resolveSigner, href] at h
    | some name => exact ⟨(paramRef_eq_some href).2, h⟩
  | bigint z => cases h
  | number a => cases h
  | other v => cases h

theorem resolveTimelockValue_declared {v : TimelockValue} {z : ℤ}
    (h : resolveTimelockValue v args = .ok z) : v.Declared := by
  rintro s rfl
  cases href : paramRef s with
  | none => simp [resolveTimelockValue, href] at h
  | some name => exact (paramRef_eq_some href).1

theorem checkStandardAsm_reread (asm : List AsmToken) :
    checkStandardAsm (asm.map AsmToken.reread) = checkStandardAsm asm := by
  induction asm with
  | nil => rfl
  | cons t asm ih =>
    cases t with
    | string s =>
      simp only [List.map_cons, AsmToken.reread, checkStandardAsm, ih]
    | bigint z =>
      rw [List.map_cons, AsmToken.reread]
      split <;> exact ih
    | number a =>
      rw [List.map_cons, AsmToken.reread]
      split <;> exact ih
    | bytes b => exact ih
    | other v => exact ih

theorem validateTapscript_reread (tap : TapscriptSegment) :
    validateTapscript tap.reread = validateTapscript tap := by
  have hasm : (tap.asm.map (List.map AsmToken.reread)).getD [] =
      (tap.asm.getD []).map AsmToken.reread := by
    cases tap.asm <;> rfl
  simp only [validateTapscript, TapscriptSegment.reread, List.length_map, Option.isSome_map, hasm,
    checkStandardAsm_reread]
  rfl

theorem tokenRef_reread (t : AsmToken) : tokenRef t.reread = tokenRef t := by
  cases t with
  | bigint z | number a =>
    rw [AsmToken.reread]
    split <;> rfl
  | string s | bytes b | other v => rfl

theorem tokenRefs_reread (l : List AsmToken) :
    tokenRefs (l.map AsmToken.reread) = tokenRefs l := by
  unfold tokenRefs
  rw [List.filterMap_map]
  exact List.filterMap_congr fun t _ ↦ tokenRef_reread t

theorem tokenRefs_getD_reread (o : Option (List AsmToken)) :
    tokenRefs ((o.map (List.map AsmToken.reread)).getD []) = tokenRefs (o.getD []) := by
  cases o with
  | none => rfl
  | some l => exact tokenRefs_reread l

theorem collectParamRefs_reread (program : Program) :
    collectParamRefs program.reread = collectParamRefs program := by
  simp only [collectParamRefs, Program.reread, Record.map, List.flatMap_map]
  congr 1
  funext p
  simp only [ArkadeFunction.reread, TapscriptSegment.reread, tokenRefs_reread,
    tokenRefs_getD_reread]
  cases p.2.arkadeScript with
  | none => rfl
  | some seg =>
    simp only [Option.map_some, ArkadeSegment.reread, tokenRefs_reread, tokenRefs_getD_reread]

theorem validateProgram_reread (program : Program) :
    validateProgram program.reread args = validateProgram program args := by
  have hparams : program.reread.params = program.params := rfl
  simp only [validateProgram, collectParamRefs_reread, hparams]

theorem covenantName_reread (program : Program) :
    covenantName program.reread.functions = covenantName program.functions := by
  have hsame : ((fun p : String × ArkadeFunction ↦ p.2.arkadeScript.isSome) ∘
      fun p : String × ArkadeFunction ↦ (p.1, p.2.reread)) = fun p ↦ p.2.arkadeScript.isSome := by
    funext p
    simp [ArkadeFunction.reread]
  simp only [covenantName, Program.reread, Record.map, List.find?_map, Option.map_map, hsame]
  rfl

variable {Tree : Type} {L : ProgramLibraries Tree}

/-- The keys that come back: an empty key is stored as an empty text and dropped. -/
def ProgramKeys.reread (keys : ProgramKeys) : ProgramKeys where
  serverKey := keys.serverKey
  userKey := keys.userKey.filter (· ≠ [])
  emulatorKey := keys.emulatorKey.filter (· ≠ [])

theorem leafKeys_reread {keys : ProgramKeys} {pubkeys leaf : List Bytes} {o : Option Bytes}
    (h : leafKeys L keys pubkeys o = .ok leaf) : leafKeys L keys.reread pubkeys o = .ok leaf := by
  cases o with
  | none => exact h
  | some arkadeScript =>
    cases hkey : keys.emulatorKey with
    | none => simp [leafKeys, hkey] at h
    | some key =>
      have hne : key ≠ [] := by
        rintro rfl
        simp [leafKeys, hkey, computeArkadeScriptPublicKey, toXOnly, bind, Except.bind] at h
      simpa [leafKeys, ProgramKeys.reread, hkey, Option.filter_some, hne] using h

theorem encodeTapscriptSegment_reread {tap : TapscriptSegment} {pubkeys : List Bytes} {bs : Bytes}
    (h : encodeTapscriptSegment L tap pubkeys args = .ok bs) :
    encodeTapscriptSegment L tap.reread pubkeys args = .ok bs := by
  unfold encodeTapscriptSegment at *
  simp only [TapscriptSegment.reread]
  cases hcsv : tap.csv with
  | some csv =>
    simp only [hcsv] at h ⊢
    cases hasm : tap.asm with
    | none => simpa only [hasm, Option.map_none] using h
    | some asm =>
      simp only [hasm] at h
      obtain ⟨timelock, htimelock, h⟩ := bind_ok.mp h
      obtain ⟨script, hscript, h⟩ := bind_ok.mp h
      exact bind_ok.mpr ⟨timelock, htimelock, bind_ok.mpr ⟨script, resolveAsm_reread hscript, h⟩⟩
  | none =>
    simp only [hcsv] at h ⊢
    cases hcltv : tap.cltv with
    | some cltv => simpa only [hcltv] using h
    | none =>
      simp only [hcltv] at h ⊢
      cases hasm : tap.asm with
      | none => simpa only [hasm, Option.map_none] using h
      | some asm =>
        simp only [hasm] at h
        obtain ⟨script, hscript, h⟩ := bind_ok.mp h
        exact bind_ok.mpr ⟨script, resolveAsm_reread hscript, h⟩

theorem resolveArkadeScript_reread {o : Option ArkadeSegment} {script : Option Bytes}
    (h : resolveArkadeScript L o args = .ok script) :
    resolveArkadeScript L (o.map ArkadeSegment.reread) args = .ok script := by
  cases o with
  | none => exact h
  | some seg =>
    obtain ⟨bs, hbs, rfl⟩ := map_ok.mp h
    exact map_ok.mpr ⟨bs, resolveAsm_reread hbs, rfl⟩

def CompiledProgramFunction.reread (c : CompiledProgramFunction) : CompiledProgramFunction :=
  { c with definition := c.definition.reread }

theorem compileFunction_reread {keys : ProgramKeys} {name : String} {fn : ArkadeFunction}
    {c : CompiledProgramFunction} (h : compileFunction L args keys name fn = .ok c) :
    compileFunction L args keys.reread name fn.reread = .ok c.reread := by
  obtain ⟨hvalid, h⟩ := then_ok.mp h
  obtain ⟨pubkeys, hpubkeys, h⟩ := bind_ok.mp h
  obtain ⟨script, hscript, h⟩ := bind_ok.mp h
  obtain ⟨leaf, hleaf, h⟩ := bind_ok.mp h
  obtain ⟨bs, hbs, h⟩ := bind_ok.mp h
  obtain rfl := Except.ok.inj h
  have hsigners : (fn.tapscript.signers.map AsmToken.reread).mapM
      (fun s ↦ resolveSigner s args) = .ok pubkeys := by
    rw [List.mapM_map]
    exact mapM_congr_ok hpubkeys fun s _ k hk ↦ (resolveSigner_reread hk).2
  refine then_ok.mpr ⟨by rw [← hvalid]; exact validateTapscript_reread _, ?_⟩
  refine bind_ok.mpr ⟨pubkeys, hsigners, ?_⟩
  refine bind_ok.mpr ⟨script, resolveArkadeScript_reread hscript, ?_⟩
  refine bind_ok.mpr ⟨leaf, leafKeys_reread hleaf, ?_⟩
  exact bind_ok.mpr ⟨bs, encodeTapscriptSegment_reread hbs, rfl⟩

theorem compileFunction_emulatorKey {keys : ProgramKeys} {name : String} {fn : ArkadeFunction}
    {c : CompiledProgramFunction} (h : compileFunction L args keys name fn = .ok c)
    (hcovenant : fn.arkadeScript.isSome = true) : keys.emulatorKey ≠ none := by
  intro hkey
  obtain ⟨seg, hseg⟩ := Option.isSome_iff_exists.mp hcovenant
  obtain ⟨-, h⟩ := then_ok.mp h
  obtain ⟨pubkeys, -, h⟩ := bind_ok.mp h
  obtain ⟨script, hscript, h⟩ := bind_ok.mp h
  obtain ⟨leaf, hleaf, -⟩ := bind_ok.mp h
  rw [hseg] at hscript
  obtain ⟨bs, -, rfl⟩ := map_ok.mp hscript
  simp [leafKeys, hkey] at hleaf

theorem compileFunctions_reread {program : Program} {keys : ProgramKeys}
    {cs : List CompiledProgramFunction} (h : compileFunctions L program args keys = .ok cs) :
    compileFunctions L program.reread args keys.reread =
      .ok (cs.map CompiledProgramFunction.reread) := by
  obtain ⟨hversion, h⟩ := then_ok.mp h
  obtain ⟨hnonempty, h⟩ := then_ok.mp h
  obtain ⟨hvalid, h⟩ := then_ok.mp h
  obtain ⟨-, h⟩ := then_ok.mp h
  have hlen : program.reread.functions.entries.length = program.functions.entries.length := by
    simp [Program.reread, Record.map]
  have hcompiled : program.reread.functions.entries.mapM
      (fun p ↦ compileFunction L args keys.reread p.1 p.2) =
        .ok (cs.map CompiledProgramFunction.reread) := by
    simp only [Program.reread, Record.map, List.mapM_map]
    exact mapM_map_ok h fun p _ c hc ↦ compileFunction_reread hc
  refine then_ok.mpr ⟨rejectIf_ok.mpr (rejectIf_ok.mp hversion), ?_⟩
  refine then_ok.mpr ⟨rejectIf_ok.mpr (by rw [hlen]; exact rejectIf_ok.mp hnonempty), ?_⟩
  refine then_ok.mpr ⟨by rw [validateProgram_reread]; exact hvalid, ?_⟩
  refine then_ok.mpr ⟨rejectIf_ok.mpr ?_, hcompiled⟩
  rw [covenantName_reread]
  rintro ⟨covenant, hmem, -, hkey⟩
  obtain ⟨p, hp, -⟩ := Option.map_eq_some_iff.mp hmem
  obtain ⟨c, hc⟩ := mapM_ok_forall h p (List.mem_of_find?_eq_some hp)
  exact compileFunction_emulatorKey (compileFunction_reread hc)
    (by simpa [ArkadeFunction.reread] using List.find?_some hp) hkey

end ArkadeSdk
