import ArkadeSdk.Lib.Json
import ArkadeSdk.Script.Tapscript
import ArkadeSdk.Arkade.ArkadeScript

namespace ArkadeSdk

open WireFormat JsNumber BtcScript ScriptCoder JsRecord

/-- A constructor argument, a call argument or a resolved value. -/
inductive ArkadeParamValue
  | bytes (b : Bytes)
  | bigint (z : ℤ)
  | number (a : Number)
  deriving DecidableEq

abbrev Args := Record ArkadeParamValue

/-- A token: an opcode name or a reference, a number, a bigint or raw bytes. `other` is what an
artifact holds beside these and carries along unchecked. -/
inductive AsmToken
  | string (s : String)
  | number (a : Number)
  | bigint (z : ℤ)
  | bytes (b : Bytes)
  | other (v : Json.Value)

abbrev WitnessRef := AsmToken

abbrev SignerRef := AsmToken

inductive ArkadeArgType
  | bytes
  | pubkey
  | sig
  | hash
  | int
  deriving DecidableEq

/-- A bare name or a typed descriptor. -/
inductive InputRef
  | bare (s : String)
  | typed (name : String) (type : ArkadeArgType)
  deriving DecidableEq

inductive TimelockValue
  | bigint (z : ℤ)
  | string (s : String)
  deriving DecidableEq

structure CsvTimelock where
  type : String
  value : TimelockValue
  deriving DecidableEq

structure TapscriptSegment where
  signers : List SignerRef
  asm : Option (List AsmToken)
  csv : Option CsvTimelock
  cltv : Option TimelockValue
  witness : Option (List WitnessRef)

structure ArkadeSegment where
  asm : List AsmToken
  witness : Option (List WitnessRef)

structure ArkadeFunction where
  inputs : Option (List InputRef)
  tapscript : TapscriptSegment
  arkadeScript : Option ArkadeSegment

def SUPPORTED_PROGRAM_VERSION : Number := .ofInt 0

structure Program where
  version : Number
  name : Option String
  params : Option (List InputRef)
  functions : Record ArkadeFunction

def inputName : InputRef → String
  | .bare s => s
  | .typed name _ => name

/-- A name that every object inherits is bound to something no use of a parameter takes. -/
def bindValue (bind : Args) (name : String) : Except Message ArkadeParamValue :=
  match bind.get name with
  | some v => .ok v
  | none => .error (message ("unbound parameter '" ++ name ++ "'"))

/-- The name behind the dollar sign. -/
def paramRef (s : String) : Option String :=
  if Json.startsWith "$" s then some (Json.slice 1 s) else none

def resolveTimelockValue (value : TimelockValue) (args : Args) : Except Message ℤ :=
  match value with
  | .bigint z => .ok z
  | .string s => match paramRef s with
    | some name => do
      match ← bindValue args name with
      | .bigint z => return z
      | .number a => a.toBigInt
      | .bytes _ => throw (message ("timelock value '" ++ s ++ "' must resolve to a number"))
    | none => throw (message
        ("invalid timelock value '" ++ s ++ "' — expected a bigint or a '$param' reference"))

/-- What the script encoder makes of a value: a number that is no integer has no bigint. -/
def ArkadeParamValue.toItem : ArkadeParamValue → Except Message Item
  | .bytes b => .ok (.data b)
  | .bigint z => .ok (.num z)
  | .number a => .num <$> a.toBigInt

def resolveToken (bind : Args) : AsmToken → Except Message Item
  | .string t => match paramRef t with
    | some name => do (← bindValue bind name).toItem
    | none =>
      if t = "<SELF>" then .error (message ("<SELF> is not a placeholder; " ++
        "use INSPECTINPUTSCRIPTPUBKEY for continuation covenants"))
      else .ok (.op t)
  | .number a => .num <$> a.toBigInt
  | .bigint z => .ok (.num z)
  | .bytes b => .ok (.data b)
  | .other _ => .error (message "Wrong Script OP")

def resolveAsm (OP : OpTable) (asm : List AsmToken) (bind : Args) : Except Message Bytes := do
  let tokens ← asm.mapM (resolveToken bind)
  ArkadeScript.encode OP tokens

/-- `v instanceof Uint8Array ? v : MinimalScriptNum.encode(BigInt(v))`. -/
def ArkadeParamValue.toWitness : ArkadeParamValue → Except Message Bytes
  | .bytes b => .ok b
  | .bigint z => .ok (ScriptNumber.encode z)
  | .number a => ScriptNumber.encode <$> a.toBigInt

def witnessRefToBytes (ref : WitnessRef) (callArgs programArgs : Args) : Except Message Bytes :=
  match ref with
  | .bytes b => .ok b
  | .number a => ScriptNumber.encode <$> a.toBigInt
  | .bigint z => .ok (ScriptNumber.encode z)
  | .string s => match paramRef s with
    | some name => do (← bindValue programArgs name).toWitness
    | none => do (← bindValue callArgs s).toWitness
  | .other _ => .error (message "ref.startsWith is not a function")

/-- `t in ARKADE_OP`, which also finds what every object inherits. -/
def inArkadeOp (t : String) : Bool :=
  (ARKADE_OP.lookup t).isSome || Record.objectPrototype.contains t

def checkStandardAsm : List AsmToken → Except Message Unit
  | [] => .ok ()
  | .string t :: asm => do
    rejectIf (inArkadeOp t) (message ("tapscript: arkade opcode '" ++ t ++
      "' is not enforceable on-chain — move it to arkadeScript"))
    checkStandardAsm asm
  | _ :: asm => checkStandardAsm asm

def validateTapscript (seg : TapscriptSegment) : Except Message Unit := do
  rejectIf (seg.signers.length = 0) (message "tapscript: at least one signer is required")
  rejectIf (seg.asm.isSome ∧ seg.cltv.isSome)
    (message "tapscript: `asm` and `cltv` conflict — arkd has no condition+CLTV closure")
  rejectIf (seg.csv.isSome ∧ seg.cltv.isSome)
    (message "tapscript: `csv` and `cltv` conflict — use at most one timelock")
  checkStandardAsm (seg.asm.getD [])

def tokenRef : AsmToken → Option String
  | .string s => paramRef s
  | _ => none

def tokenRefs (items : List AsmToken) : List String := items.filterMap tokenRef

def timelockRefs : Option TimelockValue → List String
  | some (.string s) => (paramRef s).toList
  | _ => []

/-- The references in the order they are collected. The source keeps a set of them; that a name
comes twice makes no difference to the check. -/
def collectParamRefs (program : Program) : List String :=
  program.functions.entries.flatMap fun (_, fn) ↦
    let tap := fn.tapscript
    tokenRefs tap.signers ++ tokenRefs (tap.asm.getD []) ++ tokenRefs (tap.witness.getD []) ++
      timelockRefs (tap.csv.map CsvTimelock.value) ++ timelockRefs tap.cltv ++
      match fn.arkadeScript with
      | none => []
      | some seg => tokenRefs seg.asm ++ tokenRefs (seg.witness.getD [])

namespace ArkadeArgType

def text : ArkadeArgType → String
  | .bytes => "bytes"
  | .pubkey => "pubkey"
  | .sig => "sig"
  | .hash => "hash"
  | .int => "int"

def ofText : String → Option ArkadeArgType
  | "bytes" => some .bytes
  | "pubkey" => some .pubkey
  | "sig" => some .sig
  | "hash" => some .hash
  | "int" => some .int
  | _ => none

@[simp] theorem ofText_text (type : ArkadeArgType) : ofText type.text = some type := by
  cases type <;> rfl

end ArkadeArgType

def TYPED_BYTE_LENGTHS : ArkadeArgType → Option ℕ
  | .pubkey => some 32
  | .sig => some 64
  | _ => none

/-- `typeof value`, of a value that is no byte array. -/
def ArkadeParamValue.typeof : ArkadeParamValue → String
  | .bytes _ => "object"
  | .bigint _ => "bigint"
  | .number _ => "number"

def validateParamValue (name : String) (type : ArkadeArgType) (value : ArkadeParamValue) :
    Except Message Unit :=
  match type, value with
  | .int, .bytes _ =>
    .error (message ("program parameter '" ++ name ++ "' expects an int, got bytes"))
  | .int, _ => .ok ()
  | type, .bytes b => match TYPED_BYTE_LENGTHS type with
    | none => .ok ()
    | some length => rejectIf (b.length ≠ length)
        [.text ("program parameter '" ++ name ++ "' expects a "), .value (.ofNat length),
          .text ("-byte " ++ type.text ++ ", got "), .value (.ofNat b.length), .text " bytes"]
  | type, value => .error (message ("program parameter '" ++ name ++ "' expects " ++ type.text ++
      " bytes, got " ++ value.typeof))

def InputRef.isTyped : InputRef → Bool
  | .typed _ _ => true
  | .bare _ => false

def checkBound (args : Args) : List String → Except Message Unit
  | [] => .ok ()
  | name :: names => do
    rejectIf (args.get name = none ∧ name ∉ Record.objectPrototype)
      (message ("program parameter '" ++ name ++ "' is declared but not bound in args"))
    checkBound args names

def checkDeclared (declared : List String) : List String → Except Message Unit
  | [] => .ok ()
  | ref :: refs => do
    rejectIf (ref ∉ declared)
      (message ("'$" ++ ref ++ "' is referenced but not declared in program params"))
    checkDeclared declared refs

def checkTyped (args : Args) : List InputRef → Except Message Unit
  | [] => .ok ()
  | .bare _ :: params => checkTyped args params
  | .typed name type :: params => do
    validateParamValue name type (← bindValue args name)
    checkTyped args params

def validateProgram (program : Program) (args : Args) : Except Message Unit :=
  match program.params with
  | none => .ok ()
  | some params =>
    if !params.any InputRef.isTyped then .ok ()
    else do
      let declared := params.map inputName
      checkBound args declared
      checkDeclared declared (collectParamRefs program)
      checkTyped args params

structure ProgramKeys where
  serverKey : Bytes
  userKey : Option Bytes
  emulatorKey : Option Bytes
  deriving DecidableEq

/-- What the compiler takes from the curve and the taproot libraries: a key tweaked by a script,
and the tree over the leaf scripts. -/
structure ProgramLibraries (Tree : Type) extends Libraries where
  tweak : Bytes → Bytes → Except Message Bytes
  vtxoScript : List Bytes → Except Message Tree

structure CompiledProgramFunction where
  name : String
  definition : ArkadeFunction
  leafScript : Bytes
  arkadeScript : Option Bytes
  signerKeys : List Bytes

def toXOnly (key : Bytes) (label : String) : Except Message Bytes :=
  if key.length = 32 then .ok key
  else if key.length = 33 ∧ (key[0]? = some 2 ∨ key[0]? = some 3) then .ok (key.drop 1)
  else .error (message (label ++ " is not a compressed or x-only public key"))

variable {Tree : Type} (L : ProgramLibraries Tree)

def computeArkadeScriptPublicKey (pubKey script : Bytes) : Except Message Bytes := do
  let key ← toXOnly pubKey "emulator key"
  L.tweak key script

def resolveSigner (ref : SignerRef) (args : Args) : Except Message Bytes :=
  match ref with
  | .bytes b => .ok b
  | .string s => match paramRef s with
    | none => .error (message ("unknown signer reference '" ++ s ++ "' — use '$" ++ s ++ "'"))
    | some name => do
      match ← bindValue args name with
      | .bytes b => return b
      | _ => throw (message ("signer " ++ s ++ " must be a pubkey (bytes)"))
  | _ => .error (message "ref.startsWith is not a function")

/-- `timelockToSequence` takes every type that is not blocks for seconds. -/
def CsvTimelock.resolve (csv : CsvTimelock) (args : Args) : Except Message RelativeTimelock := do
  let value ← resolveTimelockValue csv.value args
  return ⟨value, if csv.type = "blocks" then .blocks else .seconds⟩

def encodeTapscriptSegment (seg : TapscriptSegment) (pubkeys : List Bytes) (args : Args) :
    Except Message Bytes :=
  match seg.csv with
  | some csv => do
    let timelock ← csv.resolve args
    match seg.asm with
    | some asm =>
      let conditionScript ← resolveAsm L.OP asm args
      ArkTapscript.script <$> ConditionCSVMultisigTapscript.encode L.toLibraries
        ⟨⟨⟨pubkeys, none⟩, timelock⟩, conditionScript⟩
    | none =>
      ArkTapscript.script <$> CSVMultisigTapscript.encode L.toLibraries ⟨⟨pubkeys, none⟩, timelock⟩
  | none => match seg.cltv with
    | some cltv => do
      let absoluteTimelock ← resolveTimelockValue cltv args
      ArkTapscript.script <$> CLTVMultisigTapscript.encode L.toLibraries
        ⟨⟨pubkeys, none⟩, absoluteTimelock⟩
    | none => match seg.asm with
      | some asm => do
        let conditionScript ← resolveAsm L.OP asm args
        ArkTapscript.script <$> ConditionMultisigTapscript.encode L.toLibraries
          ⟨⟨pubkeys, none⟩, conditionScript⟩
      | none => ArkTapscript.script <$> MultisigTapscript.encode L.toLibraries ⟨pubkeys, none⟩

/-- The keys of the leaf: with a covenant, the co-signer's tweaked key comes last. -/
def leafKeys (keys : ProgramKeys) (pubkeys : List Bytes) :
    Option Bytes → Except Message (List Bytes)
  | none => .ok pubkeys
  | some arkadeScript => match keys.emulatorKey with
    | none => .error (message "Cannot read properties of undefined (reading 'length')")
    | some emulatorKey => do
      let key ← computeArkadeScriptPublicKey L emulatorKey arkadeScript
      return pubkeys ++ [key]

def resolveArkadeScript (seg : Option ArkadeSegment) (args : Args) :
    Except Message (Option Bytes) :=
  match seg with
  | none => .ok none
  | some seg => some <$> resolveAsm L.OP seg.asm args

/-- The body of the loop over the functions. -/
def compileFunction (args : Args) (keys : ProgramKeys) (name : String) (definition : ArkadeFunction) :
    Except Message CompiledProgramFunction := do
  validateTapscript definition.tapscript
  let pubkeys ← definition.tapscript.signers.mapM fun s ↦ resolveSigner s args
  let arkadeScript ← resolveArkadeScript L definition.arkadeScript args
  let leafPubkeys ← leafKeys L keys pubkeys arkadeScript
  let leafScript ← encodeTapscriptSegment L definition.tapscript leafPubkeys args
  return ⟨name, definition, leafScript, arkadeScript, pubkeys⟩

def covenantName (functions : Record ArkadeFunction) : Option String :=
  (functions.entries.find? fun p ↦ p.2.arkadeScript.isSome).map Prod.fst

def compileFunctions (program : Program) (args : Args) (keys : ProgramKeys) :
    Except Message (List CompiledProgramFunction) := do
  rejectIf (program.version ≠ SUPPORTED_PROGRAM_VERSION)
    [.text "ArkadeContract: unsupported program version ", .value program.version,
      .text " — this SDK supports version ", .value SUPPORTED_PROGRAM_VERSION]
  rejectIf (program.functions.entries.length = 0)
    (message "ArkadeContract: program has no functions")
  validateProgram program args
  rejectIf (∃ covenant ∈ covenantName program.functions, covenant ≠ "" ∧ keys.emulatorKey = none)
    (message ("ArkadeContract: function '" ++ (covenantName program.functions).getD "" ++
      "' has an arkadeScript but no emulator is configured — " ++
      "pass an `emulator` to Arkade.connect"))
  program.functions.entries.mapM fun p ↦ compileFunction L args keys p.1 p.2

structure ArkadeProgramScript (Tree : Type) where
  program : Program
  args : Args
  keys : ProgramKeys
  compiled : List CompiledProgramFunction
  vtxoScript : Tree

/-- The constructor. -/
def ArkadeProgramScript.new (program : Program) (args : Args) (keys : ProgramKeys) :
    Except Message (ArkadeProgramScript Tree) := do
  let compiled ← compileFunctions L program args keys
  let vtxoScript ← L.vtxoScript (compiled.map CompiledProgramFunction.leafScript)
  return ⟨program, args, keys, compiled, vtxoScript⟩

end ArkadeSdk
