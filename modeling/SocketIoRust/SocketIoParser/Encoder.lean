import SocketIoRust.SocketIoParser.Packet

namespace SocketIoRust.SocketIoParser

open Library

structure EncodedPacket where
  packet : Str
  attachments : List Bytes

/-- `Vec::<EnginePacket>::from`. -/
def EncodedPacket.intoEnginePackets (encoded : EncodedPacket) : List EngineIoParser.Packet :=
  let headerPacket : EngineIoParser.Packet := ⟨.message, .text encoded.packet⟩
  headerPacket :: encoded.attachments.map fun attachment ↦ ⟨.message, .binary attachment⟩

namespace DefaultEncoder

def makePlaceholder (index : ℕ) : JsonValue :=
  .object [(attachmentMarkerKey, .bool true),
    (attachmentIndexKey, .number (.posInt (UInt64.ofNat index)))]

mutual

/-- The JSON of some data and the attachments so far, in the shared list of the source. -/
def deconstructPacketData (packetData : PacketDataValue) (attachments : List Bytes) :
    JsonValue × List Bytes :=
  match packetData with
  | .null => (.null, attachments)
  | .bool value => (.bool value, attachments)
  | .number value => (.number value, attachments)
  | .string value => (.string value, attachments)
  | .array values =>
    let (values, attachments) := deconstructElements values attachments
    (.array values, attachments)
  | .object entries =>
    -- only the values are collected, and they are collected into an array
    let (values, attachments) := deconstructEntries entries attachments
    (.array values, attachments)
  | .binary data => (makePlaceholder attachments.length, attachments ++ [data])

def deconstructElements (values : List PacketDataValue) (attachments : List Bytes) :
    List JsonValue × List Bytes :=
  match values with
  | [] => ([], attachments)
  | value :: values =>
    let (value, attachments) := deconstructPacketData value attachments
    let (values, attachments) := deconstructElements values attachments
    (value :: values, attachments)

def deconstructEntries (entries : List (Str × PacketDataValue)) (attachments : List Bytes) :
    List JsonValue × List Bytes :=
  match entries with
  | [] => ([], attachments)
  | (_, value) :: entries =>
    let (value, attachments) := deconstructPacketData value attachments
    let (values, attachments) := deconstructEntries entries attachments
    (value :: values, attachments)

end

def encodePacket (J : Json.Codec) (packet : Packet) : EncodedPacket :=
  let packetType := Decimal.print packet.packetType.toU8.toNat
  let (header, attachments) := deconstructPacketData packet.data []
  let attachmentsCount := Decimal.print attachments.length
  let count :=
    if packet.packetType = .binaryEvent ∨ packet.packetType = .binaryAck then
      attachmentsCount ++ ['-']
    else []
  let nsp := if packet.nsp ≠ ['/'] then packet.nsp ++ [','] else []
  let id := match packet.id with
    | some id => Decimal.print id.toNat
    | none => []
  let serialized := match header with
    | .null => []
    | header => J.toString header
  ⟨packetType ++ count ++ nsp ++ id ++ serialized, attachments⟩

end DefaultEncoder

end SocketIoRust.SocketIoParser
