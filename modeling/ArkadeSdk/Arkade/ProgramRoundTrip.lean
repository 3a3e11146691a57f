import ArkadeSdk.Arkade.ProgramPersistence

namespace ArkadeSdk

open WireFormat JsNumber BtcScript JsRecord
open Json (Value)

variable {hex : HexCodec.Codec}

/-- A token of the declared type, and no text that an artifact means as bytes. -/
def AsmToken.Declared : AsmToken → Prop
  | .string s => Json.startsWith "0x" s = false
  | .other _ => False
  | _ => True

/-- A bigint comes back as a number or as the bytes it pushes. -/
def AsmToken.reread : AsmToken → AsmToken
  | .bigint z =>
    if -MAX_SAFE_INTEGER ≤ z ∧ z ≤ MAX_SAFE_INTEGER then .number (.ofInt z)
    else .bytes (ScriptNumber.encode z)
  | .number a => if a.isFinite then .number a else .other .null
  | .string s => .string s
  | .bytes b => .bytes b
  | .other v => .other v

def TapscriptSegment.reread (tap : TapscriptSegment) : TapscriptSegment where
  signers := tap.signers.map AsmToken.reread
  asm := tap.asm.map (List.map AsmToken.reread)
  csv := tap.csv
  cltv := tap.cltv
  witness := tap.witness.map (List.map AsmToken.reread)

def ArkadeSegment.reread (seg : ArkadeSegment) : ArkadeSegment where
  asm := seg.asm.map AsmToken.reread
  witness := seg.witness.map (List.map AsmToken.reread)

def ArkadeFunction.reread (fn : ArkadeFunction) : ArkadeFunction where
  inputs := fn.inputs
  tapscript := fn.tapscript.reread
  arkadeScript := fn.arkadeScript.map ArkadeSegment.reread

def Program.reread (program : Program) : Program :=
  { program with functions := program.functions.map ArkadeFunction.reread }

/-- A literal, or text that is a reference. -/
def TimelockValue.Declared (v : TimelockValue) : Prop :=
  ∀ s, v = .string s → Json.startsWith "$" s = true

structure TapscriptSegment.Declared (tap : TapscriptSegment) : Prop where
  signers : ∀ t ∈ tap.signers, t.Declared
  asm : ∀ l ∈ tap.asm, ∀ t ∈ l, t.Declared
  csv : ∀ csv ∈ tap.csv, csv.value.Declared
  cltv : ∀ v ∈ tap.cltv, v.Declared
  witness : ∀ l ∈ tap.witness, ∀ t ∈ l, t.Declared

structure ArkadeSegment.Declared (seg : ArkadeSegment) : Prop where
  asm : ∀ t ∈ seg.asm, t.Declared
  witness : ∀ l ∈ seg.witness, ∀ t ∈ l, t.Declared

structure ArkadeFunction.Declared (fn : ArkadeFunction) : Prop where
  tapscript : fn.tapscript.Declared
  arkadeScript : ∀ seg ∈ fn.arkadeScript, seg.Declared

theorem hexDecode_slice (b : Bytes) : hexDecode hex (Json.slice 2 ("0x" ++ hex.encode b)) = .ok b := by
  rw [Json.slice_append (by decide), hexDecode, hex.decode_encode]

theorem hexToken_bytes (b : Bytes) :
    hexToken hex (.string ("0x" ++ hex.encode b)) = .ok (.bytes b) := by
  rw [hexToken, Json.startsWith_append, if_pos rfl, hexDecode_slice]
  rfl

theorem hexToken_token {t : AsmToken} (h : t.Declared) :
    hexToken hex (token hex t).written = .ok t.reread := by
  cases t with
  | string s =>
    have hs : Json.startsWith "0x" s = false := h
    simp [token, hexToken, hs, AsmToken.reread]
  | bytes b => rw [token, Value.written_string, hexToken_bytes, AsmToken.reread]
  | number a =>
    rw [token, Value.written, AsmToken.reread]
    split <;> rfl
  | bigint z =>
    rw [token, AsmToken.reread]
    split
    · rw [Value.written_number rfl, hexToken]
    · rw [Value.written_string, hexToken_bytes]
  | other v => exact h.elim

theorem hexTokens_tokens {l : List AsmToken} (h : ∀ t ∈ l, t.Declared) :
    hexTokens hex (tokens hex l).written = .ok (l.map AsmToken.reread) := by
  simp only [tokens, Value.written_array, hexTokens, List.map_map, List.mapM_map]
  exact mapM_eq_map fun t ht ↦ hexToken_token (h t ht)

theorem hexTokensOf_tokens {o : Option (List AsmToken)} (h : ∀ l ∈ o, ∀ t ∈ l, t.Declared) :
    hexTokensOf hex ((o.map (tokens hex)).map Value.written) =
      .ok (o.map (List.map AsmToken.reread)) := by
  cases o with
  | none => rfl
  | some l =>
    have hread := @hexTokens_tokens hex _ (h l rfl)
    simp only [tokens, Value.written_array] at hread
    simp only [Option.map_some, tokens, Value.written_array, hexTokensOf, Value.given_array, hread]
    rfl

theorem toText_not_startsWith {pre : String} (z : ℤ)
    (h : pre.toList ∈ [['$'], ['0', 'x']]) : Json.startsWith pre (Decimal.toText z) = false := by
  obtain ⟨c, cs, hcs, hc, htail⟩ := Decimal.toText_chars z
  rw [Json.startsWith, hcs]
  simp only [List.mem_cons, List.not_mem_nil, or_false] at h
  rcases h with h | h
  · have hne : c ≠ '$' := by
      rcases hc with rfl | hc
      · decide
      · rintro rfl
        simpa using hc.not_mark
    rw [h, List.isPrefixOf_cons_cons, beq_false_of_ne hne.symm, Bool.false_and]
  · rw [h]
    rw [List.isPrefixOf_cons_cons]
    cases cs with
    | nil => exact Bool.and_false _
    | cons d cs =>
      have hne : d ≠ 'x' := by
        rintro rfl
        simpa using (htail 'x' (by simp)).not_mark
      rw [List.isPrefixOf_cons_cons, beq_false_of_ne hne.symm, Bool.false_and, Bool.and_false]

theorem bigIntOf_toText (z : ℤ) : bigIntOf (.string (Decimal.toText z)) = .ok z := by
  rw [bigIntOf, Decimal.ofText_toText]

theorem timelockValue_toText {v : TimelockValue} (h : v.Declared) :
    timelockValue (.string v.toText) = .ok v := by
  cases v with
  | bigint z =>
    have hz := @toText_not_startsWith "$" z (by decide)
    simp only [TimelockValue.toText, timelockValue, hz, Bool.false_eq_true, if_false,
      bigIntOf_toText]
    rfl
  | string s =>
    have hs := h s rfl
    simp only [TimelockValue.toText, timelockValue, hs, if_true]

theorem csvOf_toJson {o : Option CsvTimelock} (h : ∀ csv ∈ o, csv.value.Declared) :
    csvOf ((o.map CsvTimelock.toJson).map Value.written) = .ok o := by
  cases o with
  | none => rfl
  | some csv =>
    have hread := timelockValue_toText (h csv rfl)
    simp [CsvTimelock.toJson, csvOf, Value.field, List.lookup_cons, hread, bind, Except.bind, pure,
      Except.pure]

theorem cltvOf_toText {o : Option TimelockValue} (h : ∀ v ∈ o, v.Declared) :
    cltvOf ((o.map fun v ↦ Value.string v.toText).map Value.written) = .ok o := by
  cases o with
  | none => rfl
  | some v =>
    have hread := timelockValue_toText (h v rfl)
    simp [cltvOf, hread]

theorem InputRef.ofJson_toJson (p : InputRef) : InputRef.ofJson p.toJson.written = .ok p := by
  cases p with
  | bare s => simp [toJson, ofJson]
  | typed name type =>
    simp [toJson, ofJson, Value.field, List.lookup_cons]

theorem inputsOf_toJson (o : Option (List InputRef)) :
    inputsOf ((o.map inputsToJson).map Value.written) = .ok o := by
  cases o with
  | none => rfl
  | some l =>
    have hread : ((l.map InputRef.toJson).map Value.written).mapM InputRef.ofJson = .ok l := by
      rw [List.mapM_map, List.mapM_map]
      have hid := mapM_eq_map (l := l) (g := id) fun p _ ↦ InputRef.ofJson_toJson p
      rwa [List.map_id] at hid
    simp only [Option.map_some, inputsToJson, Value.written_array, inputsOf, Value.given_array,
      hread]
    rfl

theorem nameOf_toJson (o : Option String) :
    nameOf ((o.map Value.string).map Value.written) = .ok o := by
  cases o <;> simp [nameOf]

theorem parseTapscript_toJson {tap : TapscriptSegment} (h : tap.Declared) :
    parseTapscript hex (tap.toJson hex).written = .ok tap.reread := by
  have hsigners : (tap.toJson hex).written.field "signers" = some (tokens hex tap.signers).written := by
    simp [TapscriptSegment.toJson]
  have hasm : (tap.toJson hex).written.field "asm" =
      (tap.asm.map (tokens hex)).map Value.written := by
    simp [TapscriptSegment.toJson, List.lookup_cons, List.lookup_append]
  have hwitness : (tap.toJson hex).written.field "witness" =
      (tap.witness.map (tokens hex)).map Value.written := by
    simp [TapscriptSegment.toJson, List.lookup_cons, List.lookup_append]
  have hcsv : (tap.toJson hex).written.field "csv" =
      (tap.csv.map CsvTimelock.toJson).map Value.written := by
    simp [TapscriptSegment.toJson, List.lookup_cons, List.lookup_append]
  have hcltv : (tap.toJson hex).written.field "cltv" =
      (tap.cltv.map fun v ↦ Value.string v.toText).map Value.written := by
    simp [TapscriptSegment.toJson, List.lookup_cons, List.lookup_append]
  have hnull : orElse (some (tokens hex tap.signers).written) (.array []) =
      (tokens hex tap.signers).written := by
    simp [tokens, orElse]
  unfold parseTapscript
  rw [hsigners, hasm, hwitness, hcsv, hcltv, hnull, hexTokens_tokens h.signers,
    hexTokensOf_tokens h.asm, hexTokensOf_tokens h.witness, csvOf_toJson h.csv,
    cltvOf_toText h.cltv]
  rfl

theorem parseArkadeSegment_toJson {o : Option ArkadeSegment} (h : ∀ seg ∈ o, seg.Declared) :
    parseArkadeSegment hex ((o.map (ArkadeSegment.toJson hex)).map Value.written) =
      .ok (o.map ArkadeSegment.reread) := by
  cases o with
  | none => rfl
  | some seg =>
    obtain ⟨hasm, hwitness⟩ := h seg rfl
    have hgiven : Value.given (some (seg.toJson hex).written) = some (seg.toJson hex).written := by
      simp [ArkadeSegment.toJson]
    have hasmField : (seg.toJson hex).written.field "asm" = some (tokens hex seg.asm).written := by
      simp [ArkadeSegment.toJson]
    have hwitnessField : (seg.toJson hex).written.field "witness" =
        (seg.witness.map (tokens hex)).map Value.written := by
      simp [ArkadeSegment.toJson, List.lookup_cons]
    simp only [Option.map_some, parseArkadeSegment, hgiven, hasmField, hwitnessField,
      Option.getD_some]
    rw [hexTokens_tokens hasm, hexTokensOf_tokens hwitness]
    rfl

theorem parseFunction_toJson {fn : ArkadeFunction} (h : fn.Declared) :
    parseFunction hex (fn.toJson hex).written = .ok fn.reread := by
  have htapscript : (fn.toJson hex).written.field "tapscript" =
      some (fn.tapscript.toJson hex).written := by
    simp [ArkadeFunction.toJson, List.lookup_append]
  have harkadeScript : (fn.toJson hex).written.field "arkadeScript" =
      (fn.arkadeScript.map (ArkadeSegment.toJson hex)).map Value.written := by
    simp [ArkadeFunction.toJson, List.lookup_cons, List.lookup_append]
  have hinputs : (fn.toJson hex).written.field "inputs" =
      (fn.inputs.map inputsToJson).map Value.written := by
    simp [ArkadeFunction.toJson, List.lookup_cons, List.lookup_append]
  have hnull : orElse (some (fn.tapscript.toJson hex).written) (.object []) =
      (fn.tapscript.toJson hex).written := by
    simp [TapscriptSegment.toJson, orElse]
  unfold parseFunction
  rw [htapscript, harkadeScript, hinputs, hnull, parseTapscript_toJson h.tapscript,
    parseArkadeSegment_toJson h.arkadeScript, inputsOf_toJson]
  simp [ArkadeFunction.toJson, Value.isNull, rejectIf]
  rfl

theorem parseEntries_map {α β : Type} {parse : String → Value → Except Message β}
    {write : α → Value} {f : α → β} {r : Record α} (hproto : "__proto__" ∉ r.keys)
    (h : ∀ p ∈ r.entries, parse p.1 (write p.2).written = .ok (f p.2)) :
    parseEntries parse ((Record.ofEntries (r.map write).entries).entries.map
      fun p ↦ (p.1, p.2.written)) = .ok (r.map f) := by
  rw [Record.ofEntries_entries (by simpa using hproto)]
  have hentries : ((r.map write).entries.map fun p ↦ (p.1, p.2.written)).mapM
      (fun p ↦ (p.1, ·) <$> parse p.1 p.2) = .ok (r.map f).entries := by
    simp only [Record.map, List.map_map, List.mapM_map]
    refine mapM_eq_map fun p hp ↦ ?_
    simp [h p hp]
  rw [parseEntries, hentries]
  have hcopy := Record.ofEntries_entries (r := r.map f) (by simpa using hproto)
  simp only [bind, Except.bind, hcopy]
  rfl

theorem parseArtifact_toJson {program : Program} (hversion : program.version.isFinite = true)
    (hproto : "__proto__" ∉ program.functions.keys)
    (h : ∀ p ∈ program.functions.entries, p.2.Declared) :
    parseArtifact hex (program.toJson hex).written = .ok program.reread := by
  have hfunctions := @parseEntries_map _ _ (fun _ ↦ parseFunction hex) _ _ _ hproto fun p hp ↦
    parseFunction_toJson (h p hp)
  have hfield : (program.toJson hex).written.field "functions" = some (.object
      ((Record.ofEntries (program.functions.map (ArkadeFunction.toJson hex)).entries).entries.map
        fun p ↦ (p.1, p.2.written))) := by
    simp [Program.toJson, List.lookup_cons, List.lookup_append]
  have hname : (program.toJson hex).written.field "name" =
      (program.name.map Value.string).map Value.written := by
    simp [Program.toJson, List.lookup_cons, List.lookup_append]
  have hparams : (program.toJson hex).written.field "params" =
      (program.params.map inputsToJson).map Value.written := by
    simp [Program.toJson, List.lookup_cons, List.lookup_append]
  have hread : (program.toJson hex).written.field "version" = some (.number program.version) := by
    simp [Program.toJson, Value.written_number hversion]
  unfold parseArtifact
  rw [hfield, hname, hparams, hread, nameOf_toJson, inputsOf_toJson]
  simp only [Option.getD_some, objectEntries, hfunctions, versionOf, orElse, bind, Except.bind]
  rfl

end ArkadeSdk
