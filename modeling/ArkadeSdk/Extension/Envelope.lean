import ArkadeSdk.Extension.Emulator
import ArkadeSdk.Extension.Packet
import ArkadeSdk.Lib.ScriptCoder

namespace ArkadeSdk

open WireFormat JsNumber Buffer BtcScript ScriptCoder

def ARKADE_MAGIC : Bytes := [0x41, 0x52, 0x4b]

/-- A packet is what its `type()` and `serialize()` return; of the classes other than the
two that are parsed nothing else is ever asked. -/
inductive ExtensionPacket
  | asset (packet : Asset.Packet)
  | emulator (packet : EmulatorPacket)
  | unknown (packetType : Number) (data : Bytes)
  deriving DecidableEq

namespace ExtensionPacket

def type : ExtensionPacket → Number
  | .asset _ => .ofNat Asset.Packet.PACKET_TYPE
  | .emulator _ => .ofNat EmulatorPacket.PACKET_TYPE
  | .unknown packetType _ => packetType

def serialize : ExtensionPacket → Except Message Bytes
  | .asset packet => packet.serialize
  | .emulator packet => packet.serialize
  | .unknown _ data => .ok data

end ExtensionPacket

/-- `encodeVarUint(value)`, whose `>>>= 7` works on the low 32 bits. -/
def encodeVarUint (remaining : ℕ) : Bytes :=
  let byte := remaining % 128
  let next := remaining % 2 ^ 32 / 128
  if _h : next > 0 then UInt8.ofNat (byte + 128) :: encodeVarUint next else [UInt8.ofNat byte]
termination_by remaining

/-- `buildOpReturnScript(data)`; `setUint16` and `setUint32` keep the low bits. -/
def buildOpReturnScript (data : Bytes) : Bytes :=
  let n := data.length
  if n ≤ 75 then 0x6a :: UInt8.ofNat n :: data
  else if n ≤ 255 then 0x6a :: 0x4c :: UInt8.ofNat n :: data
  else if n ≤ 65535 then 0x6a :: 0x4d :: (uint16LE n ++ data)
  else 0x6a :: 0x4e :: (uint32LE n ++ data)

def parsePacket (hex : HexCodec.Codec) (packetType : ℕ) (data : Bytes) :
    Except Message ExtensionPacket :=
  if packetType = Asset.Packet.PACKET_TYPE then .asset <$> Asset.Packet.fromBytes hex data
  else if packetType = EmulatorPacket.PACKET_TYPE then .emulator <$> EmulatorPacket.fromBytes data
  else .ok (.unknown (.ofNat packetType) data)

structure Extension where
  packets : List ExtensionPacket
  deriving DecidableEq

namespace Extension

def checkTypes (seen : List Number) : List ExtensionPacket → Except Message Unit
  | [] => .ok ()
  | p :: ps => do
    rejectIf (!p.type.inRange 0xff)
      [.text "invalid packet type ", .value p.type, .text ": must be an integer in [0, 255]"]
    rejectIf (p.type ∈ seen) [.text "duplicate packet type ", .value p.type]
    checkTypes (p.type :: seen) ps

def create (packets : List ExtensionPacket) : Except Message Extension := do
  rejectIf (packets.length = 0) (message "missing packets")
  checkTypes [] packets
  return ⟨packets⟩

/-- The TLV records one after the other. -/
def serializeRecords : List ExtensionPacket → Except Message Bytes
  | [] => .ok []
  | p :: ps => do
    let data ← p.serialize
    let rest ← serializeRecords ps
    return [UInt8.ofNat p.type.toUint8] ++ (encodeVarUint data.length ++ (data ++ rest))

def payload (self : Extension) : Except Message Bytes := do
  let records ← serializeRecords self.packets
  return ARKADE_MAGIC ++ records

def serialize (self : Extension) : Except Message Bytes := do
  let payload ← self.payload
  return buildOpReturnScript payload

def isExtension (OP : OpTable) (script : Bytes) : Bool :=
  match decode OP script with
  | .ok (.op "RETURN" :: .data data :: _) =>
    decide (data.length ≥ ARKADE_MAGIC.length) && data.take ARKADE_MAGIC.length == ARKADE_MAGIC
  | _ => false

/-- One TLV record: its type byte and a length-prefixed slice. -/
def readRecord : Reader (ℕ × Bytes) := do
  let packetType ← readByte
  let data ← orThrow readVarSlice "missing packet data"
  return (packetType.toNat, data)

/-- `while (reader.remaining() > 0)`, with as much fuel as there are bytes. -/
def readPackets (hex : HexCodec.Codec) : ℕ → Bytes → Except Message (List ExtensionPacket)
  | 0, _ => .ok []
  | fuel + 1, s =>
    if s.length = 0 then .ok []
    else do
      let ((packetType, data), rest) ← readRecord.run s
      let packet ← parsePacket hex packetType data
      let packets ← readPackets hex fuel rest
      return packet :: packets

def rejectDuplicates (seen : List Number) : List ExtensionPacket → Except Message Unit
  | [] => .ok ()
  | p :: ps => do
    rejectIf (p.type ∈ seen) [.text "duplicate packet type ", .value p.type]
    rejectDuplicates (p.type :: seen) ps

def dataPushes : List Item → List Bytes
  | [] => []
  | .data b :: xs => b :: dataPushes xs
  | _ :: xs => dataPushes xs

def fromBytes (OP : OpTable) (hex : HexCodec.Codec) (script : Bytes) :
    Except Message Extension := do
  rejectIf (script.length = 0) (message "missing OP_RETURN")
  match decode OP script with
  | .ok (.op "RETURN" :: items) =>
    rejectIf (dataPushes items = []) (message "missing magic prefix: EOF")
    let payload := (dataPushes items).flatten
    rejectIf (payload.take ARKADE_MAGIC.length ≠ ARKADE_MAGIC)
      (message ("expected magic prefix " ++ hex.encode ARKADE_MAGIC ++ ", got " ++
        hex.encode (payload.take ARKADE_MAGIC.length)))
    let records := payload.drop ARKADE_MAGIC.length
    let packets ← readPackets hex records.length records
    rejectIf (packets = []) (message "missing packets")
    rejectDuplicates [] packets
    return ⟨packets⟩
  | _ => throw (message "expected OP_RETURN")

end Extension

end ArkadeSdk
