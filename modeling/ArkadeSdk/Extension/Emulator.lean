import ArkadeSdk.Extension.Buffer

namespace ArkadeSdk

open WireFormat JsNumber Buffer

/-- One transaction input, the script it runs and the witness it runs with. -/
structure EmulatorEntry where
  vin : Number
  script : Bytes
  witness : Option Bytes
  deriving DecidableEq

structure EmulatorPacket where
  entries : List EmulatorEntry
  deriving DecidableEq

namespace EmulatorPacket

def PACKET_TYPE : ℕ := 1

def rejectEmptyScripts : List EmulatorEntry → Except Message Unit
  | [] => .ok ()
  | entry :: entries => do
    rejectIf (entry.script.length = 0) [.text "empty script for vin ", .value entry.vin]
    rejectEmptyScripts entries

def rejectDuplicates (seen : List Number) : List EmulatorEntry → Except Message Unit
  | [] => .ok ()
  | entry :: entries => do
    rejectIf (entry.vin ∈ seen) [.text "duplicate vin ", .value entry.vin]
    rejectDuplicates (entry.vin :: seen) entries

def create (entries : List EmulatorEntry) : Except Message EmulatorPacket := do
  rejectIf (entries.length = 0) (message "empty emulator packet")
  rejectEmptyScripts entries
  rejectDuplicates [] entries
  return ⟨entries⟩

def readEntry : Reader EmulatorEntry := do
  let vin ← readUint16LE
  let script ← readCompactSlice
  let witness ← readCompactSlice
  return ⟨.ofNat vin, script, some witness⟩

def fromReader : Reader EmulatorPacket := do
  let entryCount ← readCompactSize
  let entries ← readMany readEntry entryCount
  let left ← remaining
  rejectIf (left > 0) [.text "unexpected ", .value (.ofNat left), .text " trailing bytes"]
  liftM (create entries)

def fromBytes (data : Bytes) : Except Message EmulatorPacket := Prod.fst <$> fromReader.run data

def writeEntries : List EmulatorEntry → Except Message Bytes
  | [] => .ok []
  | entry :: entries => do
    let script ← writeCompactSlice entry.script
    let witness ← writeCompactSlice (entry.witness.getD [])
    let rest ← writeEntries entries
    return writeUint16LE entry.vin ++ (script ++ (witness ++ rest))

def serialize (self : EmulatorPacket) : Except Message Bytes := do
  let count ← writeCompactSize self.entries.length
  let entries ← writeEntries self.entries
  return count ++ entries

end EmulatorPacket

end ArkadeSdk
