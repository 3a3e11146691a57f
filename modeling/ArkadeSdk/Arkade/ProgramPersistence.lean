import ArkadeSdk.Arkade.Program

namespace ArkadeSdk

open WireFormat JsNumber JsRecord
open Json (Value)

/-- What TypeScript would not have let an artifact hold at this place. -/
def notOfDeclaredType : Message := message "artifact is not of the declared type"

variable (hex : HexCodec.Codec)

/-- `hex.decode`. -/
def hexDecode (s : String) : Except Message Bytes :=
  match hex.decode s with
  | some b => .ok b
  | none => .error (message "invalid hexadecimal text")

def hexToken : Value → Except Message AsmToken
  | .string t =>
    if Json.startsWith "0x" t then .bytes <$> hexDecode hex (Json.slice 2 t)
    else .ok (.string t)
  | .number a => .ok (.number a)
  | t => .ok (.other t)

/-- `v.map(hexToken)`. -/
def hexTokens : Value → Except Message (List AsmToken)
  | .array l => l.mapM (hexToken hex)
  | _ => .error notOfDeclaredType

/-- `v ? v.map(hexToken) : undefined`. -/
def hexTokensOf (v : Option Value) : Except Message (Option (List AsmToken)) :=
  match Value.given v with
  | none => .ok none
  | some v => some <$> hexTokens hex v

/-- `BigInt(v)` for the literals JSON has. -/
def bigIntOf : Value → Except Message ℤ
  | .string s => match Decimal.ofText s with
    | some z => .ok z
    | none => .error (message ("Cannot convert " ++ s ++ " to a BigInt"))
  | .number a => a.toBigInt
  | .bool b => .ok (if b then 1 else 0)
  | _ => .error (message "Cannot convert value to a BigInt")

def timelockValue (v : Value) : Except Message TimelockValue :=
  match v with
  | .string s =>
    if Json.startsWith "$" s then .ok (.string s) else .bigint <$> bigIntOf v
  | v => .bigint <$> bigIntOf v

def InputRef.ofJson : Value → Except Message InputRef
  | .string s => .ok (.bare s)
  | v => match v.field "name", v.field "type" with
    | some (.string name), some (.string type) => match ArkadeArgType.ofText type with
      | some type => .ok (.typed name type)
      | none => .error notOfDeclaredType
    | _, _ => .error notOfDeclaredType

/-- `v ? { inputs: v } : {}`. -/
def inputsOf (v : Option Value) : Except Message (Option (List InputRef)) :=
  match Value.given v with
  | none => .ok none
  | some (.array l) => some <$> l.mapM InputRef.ofJson
  | some _ => .error notOfDeclaredType

def csvOf (v : Option Value) : Except Message (Option CsvTimelock) :=
  match Value.given v with
  | none => .ok none
  | some csv => match csv.field "type", csv.field "value" with
    | some (.string type), some value => do
      let value ← timelockValue value
      return some ⟨type, value⟩
    | _, _ => .error notOfDeclaredType

def cltvOf : Option Value → Except Message (Option TimelockValue)
  | none => .ok none
  | some v => some <$> timelockValue v

/-- `v ?? other`. -/
def orElse (v : Option Value) (other : Value) : Value :=
  match v with
  | none | some .null => other
  | some v => v

def parseTapscript (tap : Value) : Except Message TapscriptSegment := do
  let signers ← hexTokens hex (orElse (tap.field "signers") (.array []))
  let asm ← hexTokensOf hex (tap.field "asm")
  let witness ← hexTokensOf hex (tap.field "witness")
  let csv ← csvOf (tap.field "csv")
  let cltv ← cltvOf (tap.field "cltv")
  return { signers, asm, csv, cltv, witness }

def parseArkadeSegment (v : Option Value) : Except Message (Option ArkadeSegment) :=
  match Value.given v with
  | none => .ok none
  | some seg => do
    let asm ← hexTokens hex ((seg.field "asm").getD .null)
    let witness ← hexTokensOf hex (seg.field "witness")
    return some { asm, witness }

def parseFunction (fn : Value) : Except Message ArkadeFunction := do
  rejectIf (fn.isNull = true) notOfDeclaredType
  let tapscript ← parseTapscript hex (orElse (fn.field "tapscript") (.object []))
  let arkadeScript ← parseArkadeSegment hex (fn.field "arkadeScript")
  let inputs ← inputsOf (fn.field "inputs")
  return { inputs, tapscript, arkadeScript }

/-- `Object.entries(v)`. -/
def objectEntries : Value → Except Message (List (String × Value))
  | .object l => .ok l
  | _ => .error notOfDeclaredType

def nameOf : Option Value → Except Message (Option String)
  | none => .ok none
  | some (.string s) => .ok (some s)
  | some _ => .error notOfDeclaredType

def versionOf (v : Option Value) : Except Message Number :=
  match orElse v (.number SUPPORTED_PROGRAM_VERSION) with
  | .number a => .ok a
  | _ => .error notOfDeclaredType

/-- The loop of `functions[name] = ..`. -/
def parseEntries {α : Type} (parse : String → Value → Except Message α)
    (l : List (String × Value)) : Except Message (Record α) := do
  let entries ← l.mapM fun p ↦ (p.1, ·) <$> parse p.1 p.2
  return Record.ofEntries entries

def parseArtifact (artifact : Value) : Except Message Program := do
  let entries ← objectEntries ((artifact.field "functions").getD .null)
  let functions ← parseEntries (fun _ ↦ parseFunction hex) entries
  let version ← versionOf (artifact.field "version")
  let name ← nameOf (artifact.field "name")
  let params ← inputsOf (artifact.field "params")
  return { version, name, params, functions }

/-- `Number.MAX_SAFE_INTEGER`. -/
def MAX_SAFE_INTEGER : ℤ := 9007199254740991

/-- A bigint out of the safe range becomes the byte push the encoder would make of it. -/
def token : AsmToken → Value
  | .bytes b => .string ("0x" ++ hex.encode b)
  | .bigint t =>
    if -MAX_SAFE_INTEGER ≤ t ∧ t ≤ MAX_SAFE_INTEGER then .number (.ofInt t)
    else .string ("0x" ++ hex.encode (ScriptNumber.encode t))
  | .string s => .string s
  | .number a => .number a
  | .other v => v

def tokens (l : List AsmToken) : Value := .array (l.map (token hex))

def InputRef.toJson : InputRef → Value
  | .bare s => .string s
  | .typed name type => .object [("name", .string name), ("type", .string type.text)]

def inputsToJson (l : List InputRef) : Value := .array (l.map InputRef.toJson)

/-- `value.toString()`. -/
def TimelockValue.toText : TimelockValue → String
  | .bigint z => Decimal.toText z
  | .string s => s

def CsvTimelock.toJson (csv : CsvTimelock) : Value :=
  .object [("type", .string csv.type), ("value", .string csv.value.toText)]

def TapscriptSegment.toJson (tap : TapscriptSegment) : Value :=
  .object (("signers", tokens hex tap.signers) ::
    (Value.optional "asm" (tap.asm.map (tokens hex)) ++
      (Value.optional "witness" (tap.witness.map (tokens hex)) ++
        (Value.optional "csv" (tap.csv.map CsvTimelock.toJson) ++
          Value.optional "cltv" (tap.cltv.map fun cltv ↦ .string cltv.toText)))))

def ArkadeSegment.toJson (seg : ArkadeSegment) : Value :=
  .object (("asm", tokens hex seg.asm) ::
    Value.optional "witness" (seg.witness.map (tokens hex)))

def ArkadeFunction.toJson (fn : ArkadeFunction) : Value :=
  .object (Value.optional "inputs" (fn.inputs.map inputsToJson) ++
    ("tapscript", fn.tapscript.toJson hex) ::
      Value.optional "arkadeScript" (fn.arkadeScript.map (ArkadeSegment.toJson hex)))

/-- The object that `stringifyArtifact` writes. -/
def Program.toJson (program : Program) : Value :=
  let functions := Record.ofEntries (program.functions.map (ArkadeFunction.toJson hex)).entries
  .object (("version", .number program.version) ::
    (Value.optional "name" (program.name.map .string) ++
      (Value.optional "params" (program.params.map inputsToJson) ++
        [("functions", .object functions.entries)])))

variable (J : Json.Text)

def stringifyArtifact (program : Program) : String := J.stringify (program.toJson hex)

structure ArkadeContractParams extends ProgramKeys where
  program : Program
  args : Args

def serializeArgValue : ArkadeParamValue → Value
  | .bytes b => .string ("0x" ++ hex.encode b)
  | .bigint z => .string (Decimal.toText z)
  | .number a => .number a

def parseArgValue (v : Value) : Except Message ArkadeParamValue :=
  match v with
  | .number a => .ok (.number a)
  | .string s =>
    if Json.startsWith "0x" s then .bytes <$> hexDecode hex (Json.slice 2 s)
    else .bigint <$> bigIntOf v
  | v => .error (message ("invalid arkade arg value: " ++ J.stringify v))

def parseTypedArgValue (name : String) (type : ArkadeArgType) (v : Value) :
    Except Message ArkadeParamValue :=
  if type = .int then
    match v with
    | .number a => .ok (.number a)
    | .string _ => .bigint <$> bigIntOf v
    | v => .error (message ("arkade contract params: '" ++ name ++ "' expects an int, got " ++
        J.stringify v))
  else
    let error : Message := message ("arkade contract params: '" ++ name ++ "' expects " ++
      type.text ++ " as 0x-prefixed hex, got " ++ J.stringify v)
    match v with
    | .string s =>
      if Json.startsWith "0x" s then .bytes <$> hexDecode hex (Json.slice 2 s) else .error error
    | _ => .error error

/-- The string map of a stored contract, as far as it is read. -/
structure StoredParams where
  program : Option String
  args : Option String
  serverKey : Option String
  userKey : Option String
  emulatorKey : Option String

def argsToJson (args : Args) : Value :=
  .object (Record.ofEntries (args.map (serializeArgValue hex)).entries).entries

/-- A key is an object and so never falsy, even when it is empty. -/
def serializeArkadeContractParams (typed : ArkadeContractParams) : StoredParams where
  program := some (stringifyArtifact hex J typed.program)
  args := some (J.stringify (argsToJson hex typed.args))
  serverKey := some (hex.encode typed.serverKey)
  userKey := typed.userKey.map hex.encode
  emulatorKey := typed.emulatorKey.map hex.encode

/-- `s ? .. : undefined` on a string that may be missing. -/
def givenText (s : Option String) : Option String := s.filter (· ≠ "")

def jsonParse (s : String) : Except Message Value :=
  match J.parse s with
  | some v => .ok v
  | none => .error (message "Unexpected token in JSON")

/-- The declared type of an argument; a later descriptor of the same name wins. -/
def paramType (params : List InputRef) (k : String) : Option ArkadeArgType :=
  params.reverse.findSome? fun p ↦ match p with
    | .typed name type => if name = k then some type else none
    | .bare _ => none

def parseArg (params : List InputRef) (k : String) (v : Value) : Except Message ArkadeParamValue :=
  match paramType params k with
  | some type => parseTypedArgValue hex J k type v
  | none => parseArgValue hex J v

def parseArgs (params : List InputRef) (args : Option String) : Except Message Args :=
  match givenText args with
  | none => .ok Record.empty
  | some args => do
    let entries ← objectEntries (← jsonParse J args)
    parseEntries (parseArg hex J params) entries

/-- `s ? hex.decode(s) : undefined`. -/
def parseKey (s : Option String) : Except Message (Option Bytes) :=
  match givenText s with
  | none => .ok none
  | some s => some <$> hexDecode hex s

def deserializeArkadeContractParams (params : StoredParams) :
    Except Message ArkadeContractParams :=
  match givenText params.program with
  | none => .error (message "arkade contract params: missing 'program'")
  | some program => match givenText params.serverKey with
    | none => .error (message "arkade contract params: missing 'serverKey'")
    | some serverKey => do
      let program ← parseArtifact hex (← jsonParse J program)
      let args ← parseArgs hex J (program.params.getD []) params.args
      let serverKey ← hexDecode hex serverKey
      let userKey ← parseKey hex params.userKey
      let emulatorKey ← parseKey hex params.emulatorKey
      return { program, args, serverKey, userKey, emulatorKey }

end ArkadeSdk
