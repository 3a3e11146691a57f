import ArkadeSdk.Lib.ScriptCoder
import ArkadeSdk.Lib.HexCodec

namespace ArkadeSdk

open WireFormat JsNumber BtcScript ScriptCoder

inductive TimelockType
  | seconds
  | blocks
  deriving DecidableEq, Repr

structure RelativeTimelock where
  value : ℤ
  type : TimelockType
  deriving DecidableEq, Repr

/-- `<key> CHECKSIG (<key> CHECKSIGADD)* <m> NUMEQUAL`. -/
def trMs (m : ℕ) : List Bytes → List Item
  | [] => []
  | key :: keys => [.data key, .op "CHECKSIG"] ++
      (keys.flatMap fun key ↦ [.data key, .op "CHECKSIGADD"]) ++ [.num m, .op "NUMEQUAL"]

structure Libraries where
  OP : OpTable
  p2trMs : ℕ → List Bytes → Except Message Bytes
  p2trMs_ok : ∀ {m keys script}, p2trMs m keys = .ok script → encode OP (trMs m keys) = .ok script
  bip68Encode : RelativeTimelock → Except Message ℕ
  bip68Decode : ℤ → Option RelativeTimelock
  bip68_lt : ∀ {timelock n}, bip68Encode timelock = .ok n → n < 2 ^ 32
  bip68_decode_encode : ∀ {timelock n}, bip68Encode timelock = .ok n →
    bip68Decode n = some timelock

/-- A closure with the parameters it was built from. -/
structure ArkTapscript (Params : Type) where
  params : Params
  script : Bytes
  deriving DecidableEq

/-- `ScriptNum(undefined, true)` reads at most six bytes. -/
def MinimalScriptNum.limit : ℕ := 6

variable (L : Libraries)

def timelockToSequence (timelock : RelativeTimelock) : Except Message ℕ := L.bip68Encode timelock

def sequenceToTimelock (sequence : ℤ) : Except Message RelativeTimelock :=
  match L.bip68Decode sequence with
  | some timelock => .ok timelock
  | none => .error [.text "Invalid BIP68 sequence: ", .value (.ofInt sequence)]

/-- A script number as it is pushed: a single byte as a number, anything else as bytes. -/
def numberItem (value : ℤ) : Item :=
  match ScriptNumber.encode value with
  | [b] => .num b.toNat
  | bytes => .data bytes

def checkPubkeys : List Bytes → Except Message Unit
  | [] => .ok ()
  | pubkey :: pubkeys => do
    rejectIf (pubkey.length ≠ 32)
      [.text "Invalid pubkey length: expected 32, got ", .value (.ofNat pubkey.length)]
    checkPubkeys pubkeys

namespace MultisigTapscript

inductive MultisigType
  | CHECKSIG
  | CHECKSIGADD
  deriving DecidableEq, Repr

structure Params where
  pubkeys : List Bytes
  type : Option MultisigType
  deriving DecidableEq

/-- `if (!params.type) params.type = CHECKSIG;` -/
def Params.withType (params : Params) : Params :=
  { params with type := some (params.type.getD .CHECKSIG) }

/-- CHECKSIGVERIFY after every key but the last. -/
def checksigAsm : List Bytes → List Item
  | [] => []
  | [key] => [.data key, .op "CHECKSIG"]
  | key :: keys => .data key :: .op "CHECKSIGVERIFY" :: checksigAsm keys

def encode (params : Params) : Except Message (ArkTapscript Params) := do
  rejectIf (params.pubkeys.length = 0) (message "At least 1 pubkey is required")
  checkPubkeys params.pubkeys
  let params := params.withType
  if params.type = some .CHECKSIGADD then
    let script ← L.p2trMs params.pubkeys.length params.pubkeys
    return ⟨params, script⟩
  else
    let script ← ScriptCoder.encode L.OP (checksigAsm params.pubkeys)
    return ⟨params, script⟩

/-- The loop of `decodeChecksigAdd`: the keys, and whether NUMEQUAL was the last item. -/
def parseChecksigAdd : List Item → Except Message (List Bytes × Bool)
  | [] => .ok ([], false)
  | .data op :: rest =>
    if op.length ≠ 32 then
      .error [.text "Invalid pubkey length: expected 32, got ", .value (.ofNat op.length)]
    else match rest with
      | .op "CHECKSIGADD" :: rest => (fun p ↦ (op :: p.1, p.2)) <$> parseChecksigAdd rest
      | .op "CHECKSIG" :: rest => (fun p ↦ (op :: p.1, p.2)) <$> parseChecksigAdd rest
      | _ => .error (message "Expected CHECKSIGADD or CHECKSIG after pubkey")
  | op :: rest =>
    if rest = [] then
      if op ≠ .op "NUMEQUAL" then .error (message "Expected NUMEQUAL at end of script")
      else .ok ([], true)
    else parseChecksigAdd rest

/-- The loop of `decodeChecksig`. -/
def parseChecksig : List Item → Except Message (List Bytes)
  | [] => .ok []
  | .data op :: rest =>
    if op.length ≠ 32 then
      .error [.text "Invalid pubkey length: expected 32, got ", .value (.ofNat op.length)]
    else match rest with
      | [] => .error (message "Unexpected end of script")
      | .op "CHECKSIGVERIFY" :: rest =>
        if rest = [] then .error (message "Last operation must be CHECKSIG")
        else (op :: ·) <$> parseChecksig rest
      | .op "CHECKSIG" :: rest => (op :: ·) <$> parseChecksig rest
      | _ => .error (message "Expected CHECKSIGVERIFY or CHECKSIG after pubkey")
  | _ :: rest => parseChecksig rest

/-- Re-encode and compare; the source compares the two hexadecimal texts. -/
def reconstruct (pubkeys : List Bytes) (type : MultisigType) (script : Bytes) :
    Except Message (ArkTapscript Params) := do
  rejectIf (pubkeys.length = 0) (message "Invalid script: must have at least 1 pubkey")
  let reconstructed ← encode L ⟨pubkeys, some type⟩
  rejectIf (reconstructed.script ≠ script)
    (message "Invalid script format: script reconstruction mismatch")
  return ⟨⟨pubkeys, some type⟩, script⟩

def decodeChecksigAdd (script : Bytes) : Except Message (ArkTapscript Params) := do
  let asm ← ScriptCoder.decode L.OP script
  let (pubkeys, foundNumEqual) ← parseChecksigAdd asm
  rejectIf (!foundNumEqual) (message "Missing NUMEQUAL operation")
  reconstruct L pubkeys .CHECKSIGADD script

def decodeChecksig (script : Bytes) : Except Message (ArkTapscript Params) := do
  let asm ← ScriptCoder.decode L.OP script
  let pubkeys ← parseChecksig asm
  reconstruct L pubkeys .CHECKSIG script

def decode (script : Bytes) : Except Message (ArkTapscript Params) := do
  rejectIf (script.length = 0) (message "Failed to decode: script is empty")
  match decodeChecksigAdd L script with
  | .ok tapscript => return tapscript
  | .error _ => match decodeChecksig L script with
    | .ok tapscript => return tapscript
    | .error error => throw (.text "Failed to decode script: " :: error)

end MultisigTapscript

/-- The timelock a decoder reads: a number as it stands, bytes as a minimal script number.
An opcode name has been refused before. -/
def readNumber : Option Item → Except Message ℤ
  | some (.num n) => .ok n
  | some (.data b) => ScriptNumber.decode MinimalScriptNum.limit b
  | _ => .error (message "Invalid script: expected a number")

/-- `try { decode } catch (error) { throw new Error(text + error.message) }`. -/
def rethrow {α : Type} (text : String) : Except Message α → Except Message α
  | .ok a => .ok a
  | .error error => .error (.text text :: error)

namespace CSVMultisigTapscript

structure Params extends toMultisig : MultisigTapscript.Params where
  timelock : RelativeTimelock
  deriving DecidableEq

def encode (params : Params) : Except Message (ArkTapscript Params) := do
  checkPubkeys params.pubkeys
  let sequence ← timelockToSequence L params.timelock
  let asm : List Item := [numberItem sequence, .op "CHECKSEQUENCEVERIFY", .op "DROP"]
  let multisigScript ← MultisigTapscript.encode L params.toMultisig
  let head ← ScriptCoder.encode L.OP asm
  return ⟨⟨multisigScript.params, params.timelock⟩, head ++ multisigScript.script⟩

def isScriptValid (script : Bytes) : Except Message Unit := do
  match ← ScriptCoder.decode L.OP script with
  | sequence :: second :: third :: _ =>
    rejectIf (sequence.isOp = true) (message "Invalid script: expected sequence number")
    rejectIf (second ≠ .op "CHECKSEQUENCEVERIFY" ∨ third ≠ .op "DROP")
      (message "Invalid script: expected CHECKSEQUENCEVERIFY DROP")
  | _ => throw (message "Invalid script: too short (expected at least 3)")

def decode (script : Bytes) : Except Message (ArkTapscript Params) := do
  rejectIf (script.length = 0) (message "Failed to decode: script is empty")
  isScriptValid L script
  let asm ← ScriptCoder.decode L.OP script
  let multisigScript ← ScriptCoder.encode L.OP (asm.drop 3)
  let multisig ← rethrow "Invalid multisig script: " (MultisigTapscript.decode L multisigScript)
  let sequenceNum ← readNumber asm.head?
  let timelock ← sequenceToTimelock L sequenceNum
  let reconstructed ← encode L ⟨multisig.params, timelock⟩
  rejectIf (reconstructed.script ≠ script)
    (message "Invalid script format: script reconstruction mismatch")
  return ⟨⟨multisig.params, timelock⟩, script⟩

end CSVMultisigTapscript

/-- `asm.slice(0, i)` and `asm.slice(i + 1)` for the last index `i` of a VERIFY. -/
def splitVerify : List Item → Option (List Item × List Item)
  | [] => none
  | x :: xs => match splitVerify xs with
    | some (condition, rest) => some (x :: condition, rest)
    | none => if x = .op "VERIFY" then some ([], xs) else none

/-- The validity check that both condition closures make. -/
def checkVerify (script : Bytes) : Except Message Unit := do
  let asm ← ScriptCoder.decode L.OP script
  rejectIf (asm.length < 1) (message "Invalid script: too short (expected at least 1)")
  rejectIf (splitVerify asm = none) (message "Invalid script: missing VERIFY operation")

namespace ConditionCSVMultisigTapscript

structure Params extends toCsv : CSVMultisigTapscript.Params where
  conditionScript : Bytes
  deriving DecidableEq

def encode (params : Params) : Except Message (ArkTapscript Params) := do
  let verify ← ScriptCoder.encode L.OP [.op "VERIFY"]
  let csvMultisig ← CSVMultisigTapscript.encode L params.toCsv
  return ⟨⟨csvMultisig.params, params.conditionScript⟩,
    params.conditionScript ++ verify ++ csvMultisig.script⟩

def decode (script : Bytes) : Except Message (ArkTapscript Params) := do
  rejectIf (script.length = 0) (message "Failed to decode: script is empty")
  checkVerify L script
  let asm ← ScriptCoder.decode L.OP script
  match splitVerify asm with
  | none => throw (message "Invalid script: missing VERIFY operation")
  | some (condition, rest) =>
    let conditionScript ← ScriptCoder.encode L.OP condition
    let csvMultisigScript ← ScriptCoder.encode L.OP rest
    let csvMultisig ← rethrow "Invalid CSV multisig script: "
      (CSVMultisigTapscript.decode L csvMultisigScript)
    let reconstructed ← encode L ⟨csvMultisig.params, conditionScript⟩
    rejectIf (reconstructed.script ≠ script)
      (message "Invalid script format: script reconstruction mismatch")
    return ⟨⟨csvMultisig.params, conditionScript⟩, script⟩

end ConditionCSVMultisigTapscript

namespace ConditionMultisigTapscript

structure Params extends toMultisig : MultisigTapscript.Params where
  conditionScript : Bytes
  deriving DecidableEq

def encode (params : Params) : Except Message (ArkTapscript Params) := do
  let verify ← ScriptCoder.encode L.OP [.op "VERIFY"]
  let multisig ← MultisigTapscript.encode L params.toMultisig
  return ⟨⟨multisig.params, params.conditionScript⟩,
    params.conditionScript ++ verify ++ multisig.script⟩

def decode (script : Bytes) : Except Message (ArkTapscript Params) := do
  rejectIf (script.length = 0) (message "Failed to decode: script is empty")
  checkVerify L script
  let asm ← ScriptCoder.decode L.OP script
  match splitVerify asm with
  | none => throw (message "Invalid script: missing VERIFY operation")
  | some (condition, rest) =>
    let conditionScript ← ScriptCoder.encode L.OP condition
    let multisigScript ← ScriptCoder.encode L.OP rest
    let multisig ← rethrow "Invalid multisig script: " (MultisigTapscript.decode L multisigScript)
    let reconstructed ← encode L ⟨multisig.params, conditionScript⟩
    rejectIf (reconstructed.script ≠ script)
      (message "Invalid script format: script reconstruction mismatch")
    return ⟨⟨multisig.params, conditionScript⟩, script⟩

end ConditionMultisigTapscript

namespace CLTVMultisigTapscript

structure Params extends toMultisig : MultisigTapscript.Params where
  absoluteTimelock : ℤ
  deriving DecidableEq

def encode (params : Params) : Except Message (ArkTapscript Params) := do
  let asm : List Item :=
    [numberItem params.absoluteTimelock, .op "CHECKLOCKTIMEVERIFY", .op "DROP"]
  let timelockedScript ← ScriptCoder.encode L.OP asm
  let multisigScript ← MultisigTapscript.encode L params.toMultisig
  return ⟨⟨multisigScript.params, params.absoluteTimelock⟩,
    timelockedScript ++ multisigScript.script⟩

def isScriptValid (script : Bytes) : Except Message Unit := do
  match ← ScriptCoder.decode L.OP script with
  | locktime :: second :: third :: _ =>
    rejectIf (locktime.isOp = true)
      (message "Invalid script: expected locktime as number or bytes")
    rejectIf (second ≠ .op "CHECKLOCKTIMEVERIFY" ∨ third ≠ .op "DROP")
      (message "Invalid script: expected CHECKLOCKTIMEVERIFY DROP")
  | _ => throw (message "Invalid script: too short (expected at least 3)")

/-- The source repeats the two checks of `isScriptValid` here, with the same outcome. -/
def decode (script : Bytes) : Except Message (ArkTapscript Params) := do
  rejectIf (script.length = 0) (message "Failed to decode: script is empty")
  isScriptValid L script
  let asm ← ScriptCoder.decode L.OP script
  let multisigScript ← ScriptCoder.encode L.OP (asm.drop 3)
  let multisig ← rethrow "Invalid multisig script: " (MultisigTapscript.decode L multisigScript)
  let absoluteTimelock ← readNumber asm.head?
  let reconstructed ← encode L ⟨multisig.params, absoluteTimelock⟩
  rejectIf (reconstructed.script ≠ script)
    (message "Invalid script format: script reconstruction mismatch")
  return ⟨⟨multisig.params, absoluteTimelock⟩, script⟩

end CLTVMultisigTapscript

inductive TapscriptType
  | Multisig
  | CSVMultisig
  | ConditionCSVMultisig
  | ConditionMultisig
  | CLTVMultisig
  deriving DecidableEq, Repr

/-- A closure of any of the five types. -/
inductive Tapscript
  | multisig (t : ArkTapscript MultisigTapscript.Params)
  | csvMultisig (t : ArkTapscript CSVMultisigTapscript.Params)
  | conditionCSVMultisig (t : ArkTapscript ConditionCSVMultisigTapscript.Params)
  | conditionMultisig (t : ArkTapscript ConditionMultisigTapscript.Params)
  | cltvMultisig (t : ArkTapscript CLTVMultisigTapscript.Params)
  deriving DecidableEq

/-- The parameters of a closure of any of the five types. -/
inductive TapscriptParams
  | multisig (params : MultisigTapscript.Params)
  | csvMultisig (params : CSVMultisigTapscript.Params)
  | conditionCSVMultisig (params : ConditionCSVMultisigTapscript.Params)
  | conditionMultisig (params : ConditionMultisigTapscript.Params)
  | cltvMultisig (params : CLTVMultisigTapscript.Params)
  deriving DecidableEq

namespace Tapscript

def script : Tapscript → Bytes
  | .multisig t => t.script
  | .csvMultisig t => t.script
  | .conditionCSVMultisig t => t.script
  | .conditionMultisig t => t.script
  | .cltvMultisig t => t.script

def encode : TapscriptParams → Except Message Tapscript
  | .multisig params => .multisig <$> MultisigTapscript.encode L params
  | .csvMultisig params => .csvMultisig <$> CSVMultisigTapscript.encode L params
  | .conditionCSVMultisig params =>
    .conditionCSVMultisig <$> ConditionCSVMultisigTapscript.encode L params
  | .conditionMultisig params => .conditionMultisig <$> ConditionMultisigTapscript.encode L params
  | .cltvMultisig params => .cltvMultisig <$> CLTVMultisigTapscript.encode L params

/-- `type.decode(script)`. -/
def decodeAs (script : Bytes) : TapscriptType → Except Message Tapscript
  | .Multisig => .multisig <$> MultisigTapscript.decode L script
  | .CSVMultisig => .csvMultisig <$> CSVMultisigTapscript.decode L script
  | .ConditionCSVMultisig =>
    .conditionCSVMultisig <$> ConditionCSVMultisigTapscript.decode L script
  | .ConditionMultisig => .conditionMultisig <$> ConditionMultisigTapscript.decode L script
  | .CLTVMultisig => .cltvMultisig <$> CLTVMultisigTapscript.decode L script

def types : List TapscriptType :=
  [.Multisig, .CSVMultisig, .ConditionCSVMultisig, .ConditionMultisig, .CLTVMultisig]

/-- The loop of `decodeTapscript`: an error moves on to the next type. -/
def decodeFirst (hex : HexCodec.Codec) (script : Bytes) :
    List TapscriptType → Except Message Tapscript
  | [] => .error (message
      ("Failed to decode: script " ++ hex.encode script ++ " is not a valid tapscript"))
  | type :: types => match decodeAs L script type with
    | .ok t => .ok t
    | .error _ => decodeFirst hex script types

end Tapscript

def decodeTapscript (hex : HexCodec.Codec) (script : Bytes) : Except Message Tapscript :=
  Tapscript.decodeFirst L hex script Tapscript.types

end ArkadeSdk
