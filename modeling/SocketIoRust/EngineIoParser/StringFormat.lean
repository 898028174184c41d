import SocketIoRust.EngineIoParser.Packet
import SocketIoRust.Library.Base64

namespace SocketIoRust.EngineIoParser.StringFormat

open Library Library.Nom
open Library.Outcome (ok err)

variable (B : Base64.Codec) (o : Overflow)

def takeU8 (input : Str) : Outcome (Err Str) (Str × UInt8) :=
  (Decimal.number 256 input).map (fun x ↦ (x.1, UInt8.ofNat x.2))

def takeUsize (input : Str) : Outcome (Err Str) (Str × ℕ) := Decimal.number usizeSize input

def parseStringPacket (input : Str) (dataLength : Option ℕ) :
    Outcome (Err Str) (Str × Packet) := do
  let (input, packetTypeIndex) ← takeU8 input
  let (input, data) ← (match dataLength with
    | some l => take l input
    | none => ok ([], input))
  let packetType ← PacketType.parseFromU8 packetTypeIndex input
  ok (input, ⟨packetType, .text data⟩)

def parsePlaintextStringPacket (dataLength : ℕ) (input : Str) :
    Outcome (Err Str) (Str × Packet) :=
  parseStringPacket input (some dataLength)

def parseBase64StringPacket (dataLength : ℕ) (input : Str) :
    Outcome (Err Str) (Str × Packet) := do
  let (input, _) ← char 'b' input
  let dataLength ← subtract o usizeSize dataLength 1
  let (input, packetTypeIndex) ← takeU8 input
  let (input, dataB64) ← take dataLength input
  let packetType ← PacketType.parseFromU8 packetTypeIndex input
  match B.decode dataB64 with
  | some vec => ok (input, ⟨packetType, .fromBytes vec⟩)
  | none => err (.failure input .takeWhile1)

def parseStringPacketInPayload (input : Str) : Outcome (Err Str) (Str × Packet) := do
  let (input, packetLength) ← takeUsize input
  let (input, _) ← char ':' input
  let dataLength ← subtract o usizeSize packetLength 1
  alt (parsePlaintextStringPacket dataLength) (parseBase64StringPacket B o dataLength) input

def parseStringPayload (input : Str) : Outcome (Err Str) (Str × List Packet) :=
  foldMany0 (parseStringPacketInPayload B o) (fun acc item ↦ acc ++ [item]) [] input

def decodePacket (input : Str) : Outcome ParsePacketError Packet :=
  match parseStringPacket input none with
  | ok (_, packet) => ok packet
  | err _ => err ⟨"Unable to decode packet"⟩
  | .panic => .panic

def decodePayload (input : Str) : Outcome ParsePacketError (List Packet) :=
  match parseStringPayload B o input with
  | ok (_, packets) => ok packets
  | err _ => err ⟨"Unable to decode payload"⟩
  | .panic => .panic

def serializePacket (packet : Packet) : Str :=
  Decimal.print packet.packetType.toU8.toNat ++
    match packet.data with
    | .text data => data
    | .binary data => B.encode data
    | .empty => []

def serializePayload (packets : List Packet) : Str :=
  packets.foldl (fun acc packet ↦
    let serialized := serializePacket B packet
    acc ++ match packet.data with
      | .binary _ => Decimal.print (serialized.length + 1) ++ ':' :: 'b' :: serialized
      | .text _ => Decimal.print serialized.length ++ ':' :: serialized
      | .empty => []) []

def encodePacket (input : Packet) : Str := serializePacket B input

def encodeBase64Packet (input : Packet) : Str := serializePacket B input

def encodePayload (input : List Packet) : Str := serializePayload B input

/-- What one packet adds to a payload. -/
def inPayload (packet : Packet) : Str := serializePayload B [packet]

theorem encodePayload_eq (packets : List Packet) :
    encodePayload B packets = packets.flatMap (inPayload B) := by
  simp only [encodePayload, serializePayload, List.foldl_append_eq_append, List.nil_append]
  rfl

theorem encodePayload_cons (packet : Packet) (packets : List Packet) :
    encodePayload B (packet :: packets) = inPayload B packet ++ encodePayload B packets := by
  simp only [encodePayload_eq, List.flatMap_cons]

theorem inPayload_text (t : PacketType) (s : Str) :
    inPayload B ⟨t, .text s⟩ = Decimal.print (s.length + 1) ++ ':' :: t.toChar :: s := by
  have hlen : (t.toChar :: s).length = s.length + 1 := rfl
  simp only [inPayload, serializePayload, serializePacket, t.print_toU8, List.foldl_cons,
    List.foldl_nil, List.nil_append, List.singleton_append, hlen]

theorem inPayload_binary (t : PacketType) (d : Bytes) :
    inPayload B ⟨t, .binary d⟩ =
      Decimal.print ((B.encode d).length + 2) ++ ':' :: 'b' :: t.toChar :: B.encode d := by
  have hlen : (t.toChar :: B.encode d).length + 1 = (B.encode d).length + 2 := rfl
  simp only [inPayload, serializePayload, serializePacket, t.print_toU8, List.foldl_cons,
    List.foldl_nil, List.nil_append, List.singleton_append, hlen]

theorem inPayload_empty (t : PacketType) : inPayload B ⟨t, .empty⟩ = [] := rfl

end SocketIoRust.EngineIoParser.StringFormat
