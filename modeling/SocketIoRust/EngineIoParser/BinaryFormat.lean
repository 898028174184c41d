import SocketIoRust.EngineIoParser.Packet
import SocketIoRust.Library.Utf8

namespace SocketIoRust.EngineIoParser.BinaryFormat

open Library Library.Nom
open Library.Outcome (ok err)

variable (o : Overflow)

def parseBinaryDataPacket (input : Bytes) (dataLength : Option ℕ) :
    Outcome (Err Bytes) (Bytes × Packet) := do
  let (input, packetTypeIndex) ← leU8 input
  let takeAmount := dataLength.getD input.length
  let (input, data) ← take takeAmount input
  let packetType ← PacketType.parseFromU8 packetTypeIndex input
  ok (input, ⟨packetType, .fromBytes data⟩)

def parseStringDataPacket (input : Bytes) (dataLength : ℕ) :
    Outcome (Err Bytes) (Bytes × Packet) := do
  let (input, packetTypeAscii) ← digit1Bytes input
  let (input, data) ← take dataLength input
  match packetTypeAscii with
  | [] => .panic
  | ascii :: _ =>
    let packetTypeIndex ← subtract o 256 ascii.toNat 48
    let packetType ← PacketType.parseFromU8 (UInt8.ofNat packetTypeIndex) input
    if Utf8.IsUtf8 data then ok (input, ⟨packetType, .fromBytes data⟩)
    else err (.failure input .alphaNumeric)

/-- The `while i > 0` loop of `parse_packet_length`, from the last byte to the first. -/
def packetLengthLoop (packetLengthEncoded : Bytes) : ℕ → ℕ → Outcome (Err Bytes) ℕ
  | 0, packetLength => ok packetLength
  | i + 1, packetLength => do
    let power ← fit o u32Size (10 ^ (i % u32Size))
    let term ← fit o u32Size (power * (packetLengthEncoded.getD i 0).toNat)
    let packetLength ← fit o u32Size (packetLength + term)
    packetLengthLoop packetLengthEncoded i packetLength

def parsePacketLength (input : Bytes) : Outcome (Err Bytes) (Bytes × ℕ) := do
  let (input, packetLengthEncoded) ← takeTill1 (· == 255) input
  -- the source indexes the empty slice here
  if packetLengthEncoded.length = 0 then .panic else
  let packetLength ← packetLengthLoop o packetLengthEncoded packetLengthEncoded.length 0
  ok (input, packetLength)

def encodePacketLengthLoop (val : ℕ) (digits : Bytes) : Bytes :=
  if val = 0 then digits else encodePacketLengthLoop (val / 10) (digits ++ [UInt8.ofNat (val % 10)])
termination_by val

def encodePacketLength (input : ℕ) : Bytes :=
  if input = 0 then [0] else encodePacketLengthLoop input []

def parsePacketDataTypeInBinaryPayload (input : Bytes) :
    Outcome (Err Bytes) (Bytes × UInt8) := do
  let (input, packetTypeArr) ← take 1 input
  match packetTypeArr with
  | [] => .panic
  | packetType :: _ =>
    if packetType = 0 ∨ packetType = 1 then ok (input, packetType)
    else err (.failure input .digit)

def parseBinaryPacketInPayload (input : Bytes) : Outcome (Err Bytes) (Bytes × Packet) := do
  let (input, packetDataType) ← parsePacketDataTypeInBinaryPayload input
  let (input, packetLength) ← parsePacketLength o input
  let (input, _) ← take 1 input
  let dataLength ← subtract o usizeSize packetLength 1
  if packetDataType = 0 then parseStringDataPacket o input dataLength
  else parseBinaryDataPacket input (some dataLength)

def parseBinaryPayload (input : Bytes) : Outcome (Err Bytes) (Bytes × List Packet) :=
  foldMany0 (parseBinaryPacketInPayload o) (fun acc item ↦ acc ++ [item]) [] input

def decodePacket (input : Bytes) : Outcome ParsePacketError Packet :=
  match parseBinaryDataPacket input none with
  | ok (_, packet) => ok packet
  | err _ => err ⟨"Unable to decode packet"⟩
  | .panic => .panic

def decodePayload (input : Bytes) : Outcome ParsePacketError (List Packet) :=
  match parseBinaryPayload o input with
  | ok (_, packets) => ok packets
  | err _ => err ⟨"Unable to decode payload"⟩
  | .panic => .panic

def serializePacket (packetType : PacketType) (data : PacketData) : Bytes :=
  match data with
  | .text data => (packetType.toU8 + 48) :: Utf8.asBytes data
  | .binary data => packetType.toU8 :: data
  | .empty => [packetType.toU8 + 48]

def serializePacketInPayload (packetType : PacketType) (data : PacketData) : Bytes :=
  match data with
  | .text data =>
    let data := Utf8.asBytes data
    0 :: (encodePacketLength (data.length + 1) ++ 255 :: (packetType.toU8 + 48) :: data)
  | .binary data =>
    1 :: (encodePacketLength (data.length + 1) ++ 255 :: packetType.toU8 :: data)
  | .empty => [1, 48, 255, packetType.toU8 + 48]

def serializePayload (packets : List Packet) : Bytes :=
  packets.foldl (fun acc packet ↦
    acc ++ serializePacketInPayload packet.packetType packet.data) []

def encodePacket (input : Packet) : Bytes := serializePacket input.packetType input.data

def encodePayload (input : List Packet) : Bytes := serializePayload input

/-- What one packet adds to a payload. -/
def inPayload (packet : Packet) : Bytes := serializePacketInPayload packet.packetType packet.data

theorem encodePayload_eq (packets : List Packet) :
    encodePayload packets = packets.flatMap inPayload := by
  rw [encodePayload, serializePayload, List.foldl_append_eq_append, List.nil_append]
  rfl

theorem encodePayload_cons (packet : Packet) (packets : List Packet) :
    encodePayload (packet :: packets) = inPayload packet ++ encodePayload packets := by
  simp only [encodePayload_eq, List.flatMap_cons]

end SocketIoRust.EngineIoParser.BinaryFormat
