import ArkadeSdk.Arkade.ProgramRecompile
import ArkadeSdk.Script.TapscriptUnique

/-! A stored contract gives back the scripts it was created with. -/

namespace ArkadeSdk

open WireFormat JsNumber BtcScript ScriptCoder JsRecord
open Json (Value)

variable {hex : HexCodec.Codec} {J : Json.Text} {Tree : Type} {L : ProgramLibraries Tree}
  {program : Program} {args : Args} {keys : ProgramKeys}

theorem paramType_mem {params : List InputRef} {k : String} {type : ArkadeArgType}
    (h : paramType params k = some type) : .typed k type ∈ params := by
  obtain ⟨p, hp, hsome⟩ := List.exists_of_findSome?_eq_some h
  cases p with
  | bare s => cases hsome
  | typed name type' =>
    simp only at hsome
    split at hsome
    · rename_i hname
      obtain rfl := Option.some.inj hsome
      rw [← hname]
      exact List.mem_reverse.mp hp
    · cases hsome

theorem checkTyped_mem {params : List InputRef} (h : checkTyped args params = .ok ())
    {k : String} {type : ArkadeArgType} (hmem : .typed k type ∈ params) {v : ArkadeParamValue}
    (hv : args.get k = some v) : validateParamValue k type v = .ok () := by
  induction params with
  | nil => cases hmem
  | cons p params ih =>
    cases p with
    | bare s =>
      rcases List.mem_cons.mp hmem with hmem | hmem
      · cases hmem
      · exact ih h hmem
    | typed name type' =>
      obtain ⟨w, hw, h⟩ := bind_ok.mp h
      obtain ⟨hvalid, h⟩ := then_ok.mp h
      rcases List.mem_cons.mp hmem with hmem | hmem
      · cases hmem
        rw [bindValue, hv] at hw
        obtain rfl := Except.ok.inj hw
        exact hvalid
      · exact ih h hmem

theorem validateProgram_typed (h : validateProgram program args = .ok ()) {k : String}
    {type : ArkadeArgType} (htype : paramType (program.params.getD []) k = some type)
    {v : ArkadeParamValue} (hv : args.get k = some v) : validateParamValue k type v = .ok () := by
  unfold validateProgram at h
  cases hparams : program.params with
  | none => simp [hparams, paramType] at htype
  | some params =>
    rw [hparams] at htype
    have hmem := paramType_mem htype
    have hany : params.any InputRef.isTyped = true := List.any_eq_true.mpr ⟨_, hmem, rfl⟩
    simp only [hparams, hany, Bool.not_true, Bool.false_eq_true, if_false] at h
    obtain ⟨-, h⟩ := then_ok.mp h
    exact checkTyped_mem (then_ok.mp h).2 hmem hv

theorem parseArgValue_serialize {v : ArkadeParamValue}
    (hfinite : ∀ a, v = .number a → a.isFinite = true) :
    parseArgValue hex J (serializeArgValue hex v).written = .ok v := by
  cases v with
  | bytes b =>
    rw [serializeArgValue, Value.written_string, parseArgValue, Json.startsWith_append, if_pos rfl,
      hexDecode_slice]
    rfl
  | bigint z =>
    have hz := @toText_not_startsWith "0x" z (by decide)
    simp only [serializeArgValue, Value.written_string, parseArgValue, hz, Bool.false_eq_true,
      if_false, bigIntOf_toText]
    rfl
  | number a => rw [serializeArgValue, Value.written_number (hfinite a rfl), parseArgValue]

theorem parseTypedArgValue_serialize {k : String} {type : ArkadeArgType} {v : ArkadeParamValue}
    (hvalid : validateParamValue k type v = .ok ())
    (hfinite : ∀ a, v = .number a → a.isFinite = true) :
    parseTypedArgValue hex J k type (serializeArgValue hex v).written = .ok v := by
  unfold parseTypedArgValue
  by_cases htype : type = .int
  · subst htype
    rw [if_pos rfl]
    cases v with
    | bytes b => cases hvalid
    | bigint z =>
      simp only [serializeArgValue, Value.written_string, bigIntOf_toText]
      rfl
    | number a => rw [serializeArgValue, Value.written_number (hfinite a rfl)]
  · rw [if_neg htype]
    cases v with
    | bytes b =>
      simp only [serializeArgValue, Value.written_string, Json.startsWith_append, if_true,
        hexDecode_slice]
      rfl
    | bigint z | number a => cases type <;> first | exact absurd rfl htype | cases hvalid

theorem parseArgs_argsToJson (hJ : J.RoundTrips (argsToJson hex args))
    (hproto : "__proto__" ∉ args.keys)
    (hfinite : ∀ p ∈ args.entries, ∀ a, p.2 = .number a → a.isFinite = true)
    (hvalid : validateProgram program args = .ok ()) :
    parseArgs hex J (program.params.getD []) (some (J.stringify (argsToJson hex args))) =
      .ok args := by
  have hentry : ∀ p ∈ args.entries,
      parseArg hex J (program.params.getD []) p.1 (serializeArgValue hex p.2).written = .ok p.2 := by
    intro p hp
    unfold parseArg
    cases htype : paramType (program.params.getD []) p.1 with
    | none => exact parseArgValue_serialize (hfinite p hp)
    | some type =>
      have htyped := validateProgram_typed hvalid htype (Record.get_of_mem hp)
      exact parseTypedArgValue_serialize htyped (hfinite p hp)
  have hread := @parseEntries_map _ _ _ (serializeArgValue hex) id _ hproto hentry
  have hid : args.map id = args := Record.ext_entries (by simp [Record.map])
  have hgiven : givenText (some (J.stringify (argsToJson hex args))) =
      some (J.stringify (argsToJson hex args)) := by
    simp [givenText, Option.filter_some, hJ.nonempty]
  rw [parseArgs, hgiven]
  simp only [jsonParse, hJ.parse_stringify]
  rw [argsToJson, Value.written_object]
  rw [hid] at hread
  exact hread

/-- The witness items are of the declared type. They are resolved when a path is spent, so
compiling does not look at them. -/
structure ArkadeFunction.WitnessDeclared (fn : ArkadeFunction) : Prop where
  tapscript : ∀ l ∈ fn.tapscript.witness, ∀ t ∈ l, t.Declared
  arkadeScript : ∀ seg ∈ fn.arkadeScript, ∀ l ∈ seg.witness, ∀ t ∈ l, t.Declared

theorem encodeTapscriptSegment_declared (hOP : OpNamesPlain L.OP) {tap : TapscriptSegment}
    {pubkeys : List Bytes} {bs : Bytes} (hvalid : validateTapscript tap = .ok ())
    (h : encodeTapscriptSegment L tap pubkeys args = .ok bs) :
    (∀ l ∈ tap.asm, ∀ t ∈ l, t.Declared) ∧ (∀ csv ∈ tap.csv, csv.value.Declared) ∧
      ∀ v ∈ tap.cltv, v.Declared := by
  obtain ⟨-, hvalid⟩ := then_ok.mp hvalid
  obtain ⟨hasmCltv, hvalid⟩ := then_ok.mp hvalid
  have hcsvCltv := rejectIf_ok.mp (then_ok.mp hvalid).1
  replace hasmCltv := rejectIf_ok.mp hasmCltv
  unfold encodeTapscriptSegment at h
  cases hcsv : tap.csv with
  | some csv =>
    have hcltv : tap.cltv = none := by simpa [hcsv] using hcsvCltv
    simp only [hcsv] at h
    obtain ⟨timelock, htimelock, h⟩ := bind_ok.mp h
    obtain ⟨value, hvalue, -⟩ := bind_ok.mp htimelock
    refine ⟨?_, ?_, by simp [hcltv]⟩
    · rintro asm hasm
      rw [Option.mem_def] at hasm
      simp only [hasm] at h
      obtain ⟨script, hscript, -⟩ := bind_ok.mp h
      exact resolveAsm_declared hOP hscript
    · rintro csv ⟨⟩
      exact resolveTimelockValue_declared hvalue
  | none =>
    simp only [hcsv] at h
    refine ⟨?_, by simp, ?_⟩
    · rintro asm hasm
      rw [Option.mem_def] at hasm
      have hcltv : tap.cltv = none := by simpa [hasm] using hasmCltv
      simp only [hcltv, hasm] at h
      obtain ⟨script, hscript, -⟩ := bind_ok.mp h
      exact resolveAsm_declared hOP hscript
    · rintro cltv hcltv
      rw [Option.mem_def] at hcltv
      simp only [hcltv] at h
      obtain ⟨value, hvalue, -⟩ := bind_ok.mp h
      exact resolveTimelockValue_declared hvalue

theorem compileFunction_declared (hOP : OpNamesPlain L.OP) {name : String} {fn : ArkadeFunction}
    {c : CompiledProgramFunction} (h : compileFunction L args keys name fn = .ok c)
    (hwitness : fn.WitnessDeclared) : fn.Declared := by
  obtain ⟨hvalid, h⟩ := then_ok.mp h
  obtain ⟨pubkeys, hpubkeys, h⟩ := bind_ok.mp h
  obtain ⟨script, hscript, h⟩ := bind_ok.mp h
  obtain ⟨leaf, -, h⟩ := bind_ok.mp h
  obtain ⟨bs, hbs, -⟩ := bind_ok.mp h
  obtain ⟨hasm, hcsv, hcltv⟩ := encodeTapscriptSegment_declared hOP hvalid hbs
  refine ⟨⟨fun s hs ↦ ?_, hasm, hcsv, hcltv, hwitness.tapscript⟩,
    fun seg hseg ↦ ⟨?_, hwitness.arkadeScript seg hseg⟩⟩
  · obtain ⟨k, hk⟩ := mapM_ok_forall hpubkeys s hs
    exact (resolveSigner_reread hk).1
  · rw [Option.mem_def] at hseg
    rw [hseg] at hscript
    obtain ⟨o, ho, -⟩ := map_ok.mp hscript
    exact resolveAsm_declared hOP ho

theorem parseKey_encode (k : Option Bytes) :
    parseKey hex (k.map hex.encode) = .ok (k.filter (· ≠ [])) := by
  cases k with
  | none => rfl
  | some k =>
    by_cases hk : k = []
    · subst hk
      simp [parseKey, givenText, Option.filter_some, hex.encode_eq_empty.mpr rfl]
    · simp [parseKey, givenText, Option.filter_some, hex.encode_eq_empty, hk, hexDecode]

def ArkadeContractParams.reread (typed : ArkadeContractParams) : ArkadeContractParams where
  toProgramKeys := typed.toProgramKeys.reread
  program := typed.program.reread
  args := typed.args

theorem deserialize_serialize {typed : ArkadeContractParams}
    (hprogram : J.RoundTrips (typed.program.toJson hex))
    (hserver : typed.serverKey ≠ [])
    (hreadProgram : parseArtifact hex (typed.program.toJson hex).written = .ok typed.program.reread)
    (hreadArgs : parseArgs hex J (typed.program.params.getD [])
      (some (J.stringify (argsToJson hex typed.args))) = .ok typed.args) :
    deserializeArkadeContractParams hex J (serializeArkadeContractParams hex J typed) =
      .ok typed.reread := by
  have hgivenProgram : givenText (some (stringifyArtifact hex J typed.program)) =
      some (stringifyArtifact hex J typed.program) := by
    simp [givenText, Option.filter_some, stringifyArtifact, hprogram.nonempty]
  have hgivenServer : givenText (some (hex.encode typed.serverKey)) =
      some (hex.encode typed.serverKey) := by
    simp [givenText, Option.filter_some, hex.encode_eq_empty, hserver]
  have hparse : jsonParse J (stringifyArtifact hex J typed.program) =
      .ok (typed.program.toJson hex).written := by
    rw [jsonParse, stringifyArtifact, hprogram.parse_stringify]
  have hserverKey : hexDecode hex (hex.encode typed.serverKey) = .ok typed.serverKey := by
    rw [hexDecode, hex.decode_encode]
  have hparams : typed.program.reread.params = typed.program.params := rfl
  simp only [deserializeArkadeContractParams, serializeArkadeContractParams, hgivenProgram,
    hgivenServer, parseKey_encode, hserverKey, hparse]
  refine bind_ok.mpr ⟨_, rfl, bind_ok.mpr ⟨_, hreadProgram, ?_⟩⟩
  rw [hparams, hreadArgs]
  rfl

theorem deserialize_serialize_ok {typed typed' : ArkadeContractParams}
    (hprogram : J.RoundTrips (typed.program.toJson hex))
    (h : deserializeArkadeContractParams hex J (serializeArkadeContractParams hex J typed) =
      .ok typed') :
    parseArtifact hex (typed.program.toJson hex).written = .ok typed'.program ∧
      parseArgs hex J (typed'.program.params.getD [])
        (some (J.stringify (argsToJson hex typed.args))) = .ok typed'.args := by
  have hgiven : givenText (some (stringifyArtifact hex J typed.program)) =
      some (stringifyArtifact hex J typed.program) := by
    simp [givenText, Option.filter_some, stringifyArtifact, hprogram.nonempty]
  simp only [deserializeArkadeContractParams, serializeArkadeContractParams, hgiven] at h
  split at h
  · cases h
  · obtain ⟨value, hvalue, h⟩ := bind_ok.mp h
    rw [jsonParse, stringifyArtifact, hprogram.parse_stringify] at hvalue
    obtain rfl := Except.ok.inj hvalue
    obtain ⟨program, hread, h⟩ := bind_ok.mp h
    obtain ⟨args, hargs, h⟩ := bind_ok.mp h
    obtain ⟨serverKey, -, h⟩ := bind_ok.mp h
    obtain ⟨userKey, -, h⟩ := bind_ok.mp h
    obtain ⟨emulatorKey, -, h⟩ := bind_ok.mp h
    obtain rfl := Except.ok.inj h
    exact ⟨hread, hargs⟩

/-- What the address of a contract hangs on. -/
def CompiledProgramFunction.scripts (c : CompiledProgramFunction) : String × Bytes × Option Bytes :=
  (c.name, c.leafScript, c.arkadeScript)

/-- The witness items of both segments, resolved. -/
def ArkadeFunction.witnessBytes (fn : ArkadeFunction) (callArgs args : Args) :
    List (Option Bytes) × List (Option Bytes) :=
  let resolve (l : List WitnessRef) := l.map fun t ↦ (witnessRefToBytes t callArgs args).toOption
  (resolve (fn.tapscript.witness.getD []),
    resolve ((fn.arkadeScript.bind ArkadeSegment.witness).getD []))

def Program.witnessBytes (program : Program) (callArgs args : Args) :
    List (String × List (Option Bytes) × List (Option Bytes)) :=
  program.functions.entries.map fun p ↦ (p.1, p.2.witnessBytes callArgs args)

theorem witnessBytes_reread (program : Program) (callArgs : Args) :
    program.reread.witnessBytes callArgs args = program.witnessBytes callArgs args := by
  have hitem (t : WitnessRef) : (witnessRefToBytes t.reread callArgs args).toOption =
      (witnessRefToBytes t callArgs args).toOption := by
    refine Option.ext fun b ↦ ?_
    simp only [toOption_eq_some, witnessRefToBytes_reread]
  have hitems (o : Option (List WitnessRef)) :
      ((o.map (List.map AsmToken.reread)).getD []).map
        (fun t ↦ (witnessRefToBytes t callArgs args).toOption) =
      (o.getD []).map fun t ↦ (witnessRefToBytes t callArgs args).toOption := by
    cases o with
    | none => rfl
    | some l => simp [hitem]
  have hfunction (fn : ArkadeFunction) :
      fn.reread.witnessBytes callArgs args = fn.witnessBytes callArgs args := by
    have harkade : fn.reread.arkadeScript.bind ArkadeSegment.witness =
        (fn.arkadeScript.bind ArkadeSegment.witness).map (List.map AsmToken.reread) := by
      cases h : fn.arkadeScript with
      | none => simp [ArkadeFunction.reread, h]
      | some seg => simp [ArkadeFunction.reread, h, ArkadeSegment.reread]
    simp only [ArkadeFunction.witnessBytes, harkade, hitems]
    simp only [ArkadeFunction.reread, TapscriptSegment.reread, hitems]
  simp only [Program.witnessBytes, Program.reread, Record.map, List.map_map]
  refine List.map_congr_left fun p _ ↦ ?_
  simp only [Function.comp_apply, hfunction]

/-- Persisting the params of a program that compiles and reading them back gives a program that
compiles, function by function, to the same scripts, over the same tree and with the same witness
bytes. -/
theorem deserialize_compiles (hOP : OpNamesPlain L.OP)
    (hprogram : J.RoundTrips (program.toJson hex)) (hargs : J.RoundTrips (argsToJson hex args))
    (hserver : keys.serverKey ≠ []) (hnames : "__proto__" ∉ program.functions.keys)
    (hargNames : "__proto__" ∉ args.keys)
    (hfinite : ∀ p ∈ args.entries, ∀ a, p.2 = .number a → a.isFinite = true)
    (hwitness : ∀ p ∈ program.functions.entries, p.2.WitnessDeclared)
    {script : ArkadeProgramScript Tree} (h : ArkadeProgramScript.new L program args keys = .ok script) :
    ∃ typed script', deserializeArkadeContractParams hex J
        (serializeArkadeContractParams hex J ⟨keys, program, args⟩) = .ok typed ∧
      ArkadeProgramScript.new L typed.program typed.args typed.toProgramKeys = .ok script' ∧
      script'.compiled.map CompiledProgramFunction.scripts =
        script.compiled.map CompiledProgramFunction.scripts ∧
      script'.vtxoScript = script.vtxoScript ∧
      ∀ callArgs, typed.program.witnessBytes callArgs typed.args =
        program.witnessBytes callArgs args := by
  obtain ⟨compiled, hcompiled, h⟩ := bind_ok.mp h
  obtain ⟨tree, htree, h⟩ := bind_ok.mp h
  obtain rfl := Except.ok.inj h
  have hcompile := hcompiled
  obtain ⟨hversion, hcompile⟩ := then_ok.mp hcompile
  obtain ⟨-, hcompile⟩ := then_ok.mp hcompile
  obtain ⟨hvalid, hcompile⟩ := then_ok.mp hcompile
  obtain ⟨-, hcompile⟩ := then_ok.mp hcompile
  have hfiniteVersion : program.version.isFinite = true := by
    rw [not_not.mp (rejectIf_ok.mp hversion)]
    rfl
  have hdeclared : ∀ p ∈ program.functions.entries, p.2.Declared := fun p hp ↦ by
    obtain ⟨c, hc⟩ := mapM_ok_forall hcompile p hp
    exact compileFunction_declared hOP hc (hwitness p hp)
  have hleaves : (compiled.map CompiledProgramFunction.reread).map
      CompiledProgramFunction.leafScript = compiled.map CompiledProgramFunction.leafScript := by
    simp [CompiledProgramFunction.reread, Function.comp_def]
  have hread := @deserialize_serialize _ _ ⟨keys, program, args⟩ hprogram hserver
    (parseArtifact_toJson hfiniteVersion hnames hdeclared)
    (parseArgs_argsToJson hargs hargNames hfinite hvalid)
  refine ⟨_, _, hread, bind_ok.mpr ⟨_, compileFunctions_reread hcompiled,
    bind_ok.mpr ⟨tree, by rw [hleaves]; exact htree, rfl⟩⟩, ?_, rfl, witnessBytes_reread program⟩
  simp [CompiledProgramFunction.reread, CompiledProgramFunction.scripts, Function.comp_def]

/-- No covenant below, so no key is tweaked; the tree is the list of its leaves. -/
def leafLibraries : ProgramLibraries (List Bytes) where
  toLibraries := standardLibraries
  tweak _ _ := .error (message "no covenant")
  vtxoScript leaves := .ok leaves

theorem standardOps_plain : OpNamesPlain standardOps := by
  intro s b h
  obtain ⟨p, hp, -⟩ := Option.map_eq_some_iff.mp h
  obtain rfl : p.1 = s := by simpa using List.find?_some hp
  have hall : ∀ p ∈ standardCodes, Json.startsWith "0x" p.1 = false := by decide
  exact hall p (List.mem_of_find?_eq_some hp)

/-- A claim behind a bigint that JSON has no number for, and an exit after a delay. -/
def lockProgram : Program where
  version := SUPPORTED_PROGRAM_VERSION
  name := some "lock"
  params := some [.typed "user" .pubkey, .typed "delay" .int]
  functions := Record.ofEntries
    [("claim", ⟨none, ⟨[.string "$user"], some [.bigint (2 ^ 60), .string "EQUALVERIFY"], none, none,
      some [.bigint (2 ^ 60), .string "$delay"]⟩, none⟩),
     ("exit", ⟨none, ⟨[.string "$user"], none, some ⟨"blocks", .string "$delay"⟩, none, none⟩,
      none⟩)]

def lockArgs : Args := Record.ofEntries
  [("user", .bytes (List.replicate 32 7)), ("delay", .bigint 144)]

def lockKeys : ProgramKeys := ⟨List.replicate 32 9, some (List.replicate 32 7), none⟩

def lockText : Json.Text :=
  Json.Text.ofValues [lockProgram.toJson HexCodec.base16, argsToJson HexCodec.base16 lockArgs]

theorem lockText_program : lockText.RoundTrips (lockProgram.toJson HexCodec.base16) :=
  Json.Text.roundTrips_ofValues (List.find?_cons_of_pos (by simp)) (List.cons_ne_nil _ _)

theorem lockText_args : lockText.RoundTrips (argsToJson HexCodec.base16 lockArgs) := by
  have hne : ¬String.ofList (lockProgram.toJson HexCodec.base16).chars =
      String.ofList (argsToJson HexCodec.base16 lockArgs).chars := by
    intro h
    have hchars := congrArg (fun s ↦ s.toList.take 3) h
    simp only [String.toList_ofList] at hchars
    exact absurd hchars (by decide)
  refine Json.Text.roundTrips_ofValues ?_ (List.cons_ne_nil _ _)
  rw [List.find?_cons_of_neg (by simpa using hne)]
  exact List.find?_cons_of_pos (by simp)

/-- The stored lock gives back its scripts and its witness bytes. -/
theorem lockProgram_rederives :
    ∃ script typed script',
      ArkadeProgramScript.new leafLibraries lockProgram lockArgs lockKeys = .ok script ∧
      deserializeArkadeContractParams HexCodec.base16 lockText (serializeArkadeContractParams
        HexCodec.base16 lockText ⟨lockKeys, lockProgram, lockArgs⟩) = .ok typed ∧
      ArkadeProgramScript.new leafLibraries typed.program typed.args typed.toProgramKeys =
        .ok script' ∧
      script'.compiled.map CompiledProgramFunction.scripts =
        script.compiled.map CompiledProgramFunction.scripts := by
  obtain ⟨script, hscript⟩ : ∃ script, ArkadeProgramScript.new leafLibraries lockProgram lockArgs
      lockKeys = .ok script := ⟨_, rfl⟩
  have hfinite : ∀ p ∈ lockArgs.entries, ∀ a, p.2 = .number a → a.isFinite = true := by
    have hentries : lockArgs.entries =
        [("user", .bytes (List.replicate 32 7)), ("delay", .bigint 144)] := rfl
    simp [hentries]
  have hwitness : ∀ p ∈ lockProgram.functions.entries, p.2.WitnessDeclared := by
    intro p hp
    have hentries : lockProgram.functions.entries = [_, _] := rfl
    rw [hentries] at hp
    rcases List.mem_cons.mp hp with rfl | hp
    · refine ⟨?_, by simp⟩
      rintro l ⟨⟩
      simp only [List.forall_mem_cons]
      have hplain : Json.startsWith "0x" "$delay" = false := by decide
      exact ⟨trivial, hplain, by simp⟩
    · obtain rfl := List.mem_singleton.mp hp
      exact ⟨by simp, by simp⟩
  obtain ⟨typed, script', htyped, hscript', hsame, -⟩ := deserialize_compiles standardOps_plain
    lockText_program lockText_args (List.cons_ne_nil _ _) (by decide) (by decide)
    hfinite hwitness hscript
  exact ⟨script, typed, script', hscript, htyped, hscript', hsame⟩

def keyFunction : ArkadeFunction :=
  ⟨none, ⟨[.bytes (List.replicate 32 7)], none, none, none, none⟩, none⟩

def keyProgram (name : String) : Program :=
  ⟨SUPPORTED_PROGRAM_VERSION, none, none, ⟨[(name, keyFunction)], List.pairwise_singleton _ _⟩⟩

/-- Its witness item is the name of an input that an artifact means as bytes. -/
def textFunction : ArkadeFunction :=
  ⟨some [.bare "0xzz"],
    ⟨[.bytes (List.replicate 32 7)], none, none, none, some [.string "0xzz"]⟩, none⟩

def textProgram : Program :=
  ⟨SUPPORTED_PROGRAM_VERSION, none, none,
    ⟨[("spend", textFunction)], List.pairwise_singleton _ _⟩⟩

def nanArgs : Args := ⟨[("fee", .number .nan)], List.pairwise_singleton _ _⟩

/-- Four programs that compile and do not come back: the server key is empty, an argument is no
finite number, a witness item reads as bytes, the function has the name of the prototype
accessor. -/
theorem deserialize_not_faithful :
    (∃ script, ArkadeProgramScript.new leafLibraries (keyProgram "spend") Record.empty
        ⟨[], none, none⟩ = .ok script ∧
      ∀ J typed, deserializeArkadeContractParams HexCodec.base16 J (serializeArkadeContractParams
        HexCodec.base16 J ⟨⟨[], none, none⟩, keyProgram "spend", Record.empty⟩) ≠ .ok typed) ∧
    (∃ script, ArkadeProgramScript.new leafLibraries (keyProgram "spend") nanArgs
        ⟨[9], none, none⟩ = .ok script ∧
      ∀ J : Json.Text, J.RoundTrips ((keyProgram "spend").toJson HexCodec.base16) →
        J.RoundTrips (argsToJson HexCodec.base16 nanArgs) → ∀ typed,
        deserializeArkadeContractParams HexCodec.base16 J (serializeArkadeContractParams
          HexCodec.base16 J ⟨⟨[9], none, none⟩, keyProgram "spend", nanArgs⟩) ≠ .ok typed) ∧
    (∃ script, ArkadeProgramScript.new leafLibraries textProgram Record.empty
        ⟨[9], none, none⟩ = .ok script ∧
      ∀ J : Json.Text, J.RoundTrips (textProgram.toJson HexCodec.base16) → ∀ typed,
        deserializeArkadeContractParams HexCodec.base16 J (serializeArkadeContractParams
          HexCodec.base16 J ⟨⟨[9], none, none⟩, textProgram, Record.empty⟩) ≠ .ok typed) ∧
    (∃ script, ArkadeProgramScript.new leafLibraries (keyProgram "__proto__") Record.empty
        ⟨[9], none, none⟩ = .ok script ∧
      ∀ J : Json.Text, J.RoundTrips ((keyProgram "__proto__").toJson HexCodec.base16) →
        ∀ typed script', deserializeArkadeContractParams HexCodec.base16 J
          (serializeArkadeContractParams HexCodec.base16 J
            ⟨⟨[9], none, none⟩, keyProgram "__proto__", Record.empty⟩) = .ok typed →
          ArkadeProgramScript.new leafLibraries typed.program typed.args typed.toProgramKeys ≠
            .ok script') := by
  refine ⟨⟨_, rfl, ?_⟩, ⟨_, rfl, ?_⟩, ⟨_, rfl, ?_⟩, ⟨_, rfl, ?_⟩⟩
  · intro J typed h
    unfold deserializeArkadeContractParams at h
    split at h
    · cases h
    · cases h
  · intro J hprogram hargs typed h
    obtain ⟨hread, hparse⟩ := deserialize_serialize_ok hprogram h
    have hreread : parseArtifact HexCodec.base16
        ((keyProgram "spend").toJson HexCodec.base16).written = .ok (keyProgram "spend") := rfl
    rw [← Except.ok.inj (hreread.symm.trans hread)] at hparse
    simp only [parseArgs, jsonParse, givenText, Option.filter_some, hargs.nonempty, ne_eq,
      not_false_eq_true, decide_true, if_true, hargs.parse_stringify] at hparse
    cases hparse
  · intro J hprogram typed h
    obtain ⟨hread, -⟩ := deserialize_serialize_ok hprogram h
    cases hread
  · intro J hprogram typed script' h
    obtain ⟨hread, -⟩ := deserialize_serialize_ok hprogram h
    have hempty : parseArtifact HexCodec.base16
        ((keyProgram "__proto__").toJson HexCodec.base16).written =
          .ok ⟨SUPPORTED_PROGRAM_VERSION, none, none, Record.empty⟩ := rfl
    rw [← Except.ok.inj (hempty.symm.trans hread)]
    intro hnew
    cases hnew

end ArkadeSdk
