import SocketIoRust.SocketIoParser.Packet

namespace SocketIoRust.SocketIoParser

open Library Library.Nom
open Library.Outcome (ok err)

inductive HandleEngineMessageError where
  | invalidPacketType
  | packetParseError
  | invalidPayload
  | tooManyAttachments
deriving DecidableEq, Repr

structure DefaultDecoder where
  header : MultipartPacketHeader
  buffer : List Bytes

namespace DefaultDecoder

/-- The attachments that have not been used yet, by their index. -/
abbrev Attachments := List (ℕ × Bytes)

def Attachments.remove (index : ℕ) (attachments : Attachments) : Option Bytes × Attachments :=
  (IndexMap.get index attachments, attachments.filter (fun e ↦ e.1 ≠ index))

mutual

def reconstructPacketData (protoData : JsonValue) (attachments : Attachments) :
    PacketDataValue × Attachments :=
  match protoData with
  | .null => (.null, attachments)
  | .bool value => (.bool value, attachments)
  | .number value => (.number value, attachments)
  | .string value => (.string value, attachments)
  | .array values =>
    let (values, attachments) := reconstructElements values attachments
    (.array values, attachments)
  | .object entries =>
    match getAttachmentIndexIfPlaceholder entries with
    | some index =>
      match attachments.remove index with
      | (some data, attachments) => (.binary data, attachments)
      | (none, attachments) => (.null, attachments)
    | none =>
      let (entries, attachments) := reconstructEntries entries attachments
      (.object (IndexMap.collect entries), attachments)

def reconstructElements (values : List JsonValue) (attachments : Attachments) :
    List PacketDataValue × Attachments :=
  match values with
  | [] => ([], attachments)
  | value :: values =>
    let (value, attachments) := reconstructPacketData value attachments
    let (values, attachments) := reconstructElements values attachments
    (value :: values, attachments)

def reconstructEntries (entries : List (Str × JsonValue)) (attachments : Attachments) :
    List (Str × PacketDataValue) × Attachments :=
  match entries with
  | [] => ([], attachments)
  | (key, value) :: entries =>
    let (value, attachments) := reconstructPacketData value attachments
    let (entries, attachments) := reconstructEntries entries attachments
    ((key, value) :: entries, attachments)

end

def canCollect (self : DefaultDecoder) : Bool :=
  self.header.attachmentsCount.toNat = self.buffer.length

def new (packetHeader : MultipartPacketHeader) : DefaultDecoder := ⟨packetHeader, []⟩

def decodeBinaryData (self : DefaultDecoder) (data : Bytes) :
    Except HandleEngineMessageError Bool × DefaultDecoder :=
  if self.canCollect then (.error .tooManyAttachments, self) else
  let self := { self with buffer := self.buffer ++ [data] }
  (.ok self.canCollect, self)

def collectPacket (self : DefaultDecoder) : Option Packet :=
  if self.canCollect then
    let map := self.buffer.zipIdx.foldl (fun acc e ↦ IndexMap.insert e.2 e.1 acc) []
    let packetData := (reconstructPacketData self.header.data map).1
    some ⟨self.header.packetType.toPacketType, self.header.id, self.header.nsp.getD ['/'],
      packetData⟩
  else none

end DefaultDecoder

variable (J : Json.Codec) (o : Overflow)

def takeU8 (input : Str) : Outcome (Err Str) (Str × UInt8) :=
  (Decimal.number 256 input).map (fun x ↦ (x.1, UInt8.ofNat x.2))

/-- The fold of `digits_to_u32` from the digit at `order` on, with `acc` so far. -/
def digitsToU32From (digitCount : ℕ) : ℕ → Str → ℕ → Outcome Unit ℕ
  | _, [], acc => ok acc
  | order, ch :: digits, acc => do
    let digit ← (if ch.isDigit then ok (ch.toNat - 48) else err ())
    let exponent ← subtract o u32Size digitCount (order % u32Size)
    let power ← fit o u32Size (10 ^ exponent)
    let term ← fit o u32Size (digit * power)
    let acc ← fit o u32Size (acc + term)
    digitsToU32From digitCount (order + 1) digits acc

def digitsToU32 (digits : Str) : Outcome Unit UInt32 :=
  (digitsToU32From o (digits.length % u32Size) 0 digits 0).map UInt32.ofNat

def digitsToU64 (digits : Str) : Outcome Unit UInt64 := (digitsToU32 o digits).map UInt32.toUInt64

def parseAttachmentsCount (input : Str) : Outcome (Err Str) (Str × UInt32) := do
  let (input, digits) ← digit1 input
  let (input, _) ← char '-' input
  let count ← (digitsToU32 o digits).mapErr (fun _ ↦ .failure input .digit)
  ok (input, count)

def parseNamespace (input : Str) : Outcome (Err Str) (Str × Str) :=
  match char '/' input with
  | ok _ => do
    let (input, nsp) ← takeTill1 (· == ',') input
    let (input, _) ← take 1 input
    ok (input, nsp)
  | err _ => ok (input, ['/'])
  | .panic => .panic

def parseId (input : Str) : Outcome (Err Str) (Str × Option UInt64) :=
  match digit1 input with
  | ok (input, digits) => do
    let (input, _) ← char '-' input
    let id ← (digitsToU64 o digits).mapErr (fun _ ↦ .failure input .digit)
    ok (input, some id)
  | err _ => ok (input, none)
  | .panic => .panic

def isPayloadValid (packetType : PacketType) (payload : JsonValue) : Bool :=
  match packetType with
  | .connect => match payload with
    | .object _ => true
    | _ => false
  | .disconnect => match payload with
    | .null => true
    | _ => false
  | .connectError => match payload with
    | .string _ | .object _ => true
    | _ => false
  | .event | .binaryEvent => match payload with
    | .array (.string _ :: _) => true
    | _ => false
  | .ack | .binaryAck => match payload with
    | .array _ => true
    | _ => false

def parseJsonData (input : Str) (packetType : PacketType) : Outcome (Err Str) (Str × JsonValue) :=
  let payload := (J.fromStr input).getD .null
  if isPayloadValid packetType payload then ok (input, payload)
  else err (.failure input .satisfy)

def parseProtoPacket (input : Str) : Outcome (Err Str) (Str × ProtoPacket) := do
  let (input, packetTypeIndex) ← takeU8 input
  let packetType ← PacketType.parseFromU8 packetTypeIndex input
  let (input, attachmentsCount) ← (match BinaryPacketType.tryFrom packetType with
    | some _ => parseAttachmentsCount o input
    | none => ok (input, 0))
  let (input, nsp) ← parseNamespace input
  let (input, id) ← parseId o input
  let (input, payload) ← parseJsonData J input packetType
  if 0 < attachmentsCount then
    match BinaryPacketType.tryFrom packetType with
    | some packetType =>
      ok (input, .multipart ⟨packetType, id, some nsp, payload, attachmentsCount⟩)
    | none => .panic
  else ok (input, .plain ⟨packetType, id, nsp, .ofJson payload⟩)

def DefaultDecoder.decodeProtoPacket (text : Str) :
    Outcome HandleEngineMessageError ProtoPacket :=
  match parseProtoPacket J o text with
  | ok (_, packet) => ok packet
  | err _ => err .packetParseError
  | .panic => .panic

end SocketIoRust.SocketIoParser
