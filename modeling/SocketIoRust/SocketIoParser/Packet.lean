import SocketIoRust.EngineIoParser.Packet
import SocketIoRust.Library.Json

namespace SocketIoRust.SocketIoParser

open Library Library.Nom
open Library.Outcome (ok err)

export EngineIoParser (Str Bytes)

abbrev JsonValue := Json.Value

def attachmentMarkerKey : Str := "_placeholder".toList
def attachmentIndexKey : Str := "num".toList

inductive PacketType where
  | connect | disconnect | event | ack | connectError | binaryEvent | binaryAck
deriving DecidableEq, Repr

inductive BinaryPacketType where
  | binaryEvent | binaryAck
deriving DecidableEq, Repr

/-- `packet_type as u8`. -/
def PacketType.toU8 : PacketType → UInt8
  | connect => 0
  | disconnect => 1
  | event => 2
  | ack => 3
  | connectError => 4
  | binaryEvent => 5
  | binaryAck => 6

def PacketType.tryFrom (value : UInt8) : Option PacketType :=
  match value with
  | 0 => some connect
  | 1 => some disconnect
  | 2 => some event
  | 3 => some ack
  | 4 => some connectError
  | 5 => some binaryEvent
  | 6 => some binaryAck
  | _ => none

def PacketType.parseFromU8 {ι : Type} (value : UInt8) (originalInput : ι) :
    Outcome (Err ι) PacketType :=
  match PacketType.tryFrom value with
  | some packetType => ok packetType
  | none => err (.failure originalInput .digit)

def BinaryPacketType.toPacketType : BinaryPacketType → PacketType
  | binaryAck => .binaryAck
  | binaryEvent => .binaryEvent

def BinaryPacketType.tryFrom : PacketType → Option BinaryPacketType
  | .binaryAck => some binaryAck
  | .binaryEvent => some binaryEvent
  | _ => none

/-- JSON with binary data that can be nested deep down. -/
inductive PacketDataValue where
  | null : PacketDataValue
  | bool : Bool → PacketDataValue
  | number : Json.Number → PacketDataValue
  | string : Str → PacketDataValue
  | array : List PacketDataValue → PacketDataValue
  | object : List (Str × PacketDataValue) → PacketDataValue
  | binary : Bytes → PacketDataValue

@[elab_as_elim]
theorem PacketDataValue.induct {motive : PacketDataValue → Prop} (null : motive .null)
    (bool : ∀ b, motive (.bool b)) (number : ∀ n, motive (.number n))
    (string : ∀ s, motive (.string s))
    (array : ∀ vs, (∀ v ∈ vs, motive v) → motive (.array vs))
    (object : ∀ es, (∀ e ∈ es, motive e.2) → motive (.object es))
    (binary : ∀ b, motive (.binary b)) : ∀ v, motive v :=
  @PacketDataValue.rec motive (fun vs ↦ ∀ v ∈ vs, motive v) (fun es ↦ ∀ e ∈ es, motive e.2)
    (fun e ↦ motive e.2) null bool number string array object binary
    (fun _ h ↦ nomatch h)
    (fun _ _ hv hvs ↦ List.forall_mem_cons.mpr ⟨hv, hvs⟩)
    (fun _ h ↦ nomatch h)
    (fun _ _ he hes ↦ List.forall_mem_cons.mpr ⟨he, hes⟩)
    (fun _ _ hv ↦ hv)

namespace PacketDataValue

mutual

/-- `From<JsonValue>`. -/
def ofJson : JsonValue → PacketDataValue
  | .null => null
  | .bool value => bool value
  | .number value => number value
  | .string value => string value
  | .array values => array (ofJsonElements values)
  | .object entries => object (IndexMap.collect (ofJsonEntries entries))

def ofJsonElements : List JsonValue → List PacketDataValue
  | [] => []
  | value :: values => ofJson value :: ofJsonElements values

def ofJsonEntries : List (Str × JsonValue) → List (Str × PacketDataValue)
  | [] => []
  | (key, value) :: entries => (key, ofJson value) :: ofJsonEntries entries

end

theorem ofJsonElements_eq (values : List JsonValue) : ofJsonElements values = values.map ofJson := by
  induction values with
  | nil => rfl
  | cons value values ih => rw [ofJsonElements, ih, List.map_cons]

end PacketDataValue

def getAttachmentIndexIfPlaceholder (obj : List (Str × JsonValue)) : Option ℕ :=
  match IndexMap.get attachmentMarkerKey obj, IndexMap.get attachmentIndexKey obj with
  | some (.bool marker), some (.number index) =>
    if marker then index.asU64.map UInt64.toNat else none
  | _, _ => none

structure Packet where
  packetType : PacketType
  id : Option UInt64
  nsp : Str
  data : PacketDataValue

structure MultipartPacketHeader where
  packetType : BinaryPacketType
  id : Option UInt64
  nsp : Option Str
  data : JsonValue
  attachmentsCount : UInt32

def MultipartPacketHeader.hasAttachments (header : MultipartPacketHeader) : Bool :=
  0 < header.attachmentsCount

inductive ProtoPacket where
  | multipart : MultipartPacketHeader → ProtoPacket
  | plain : Packet → ProtoPacket

theorem PacketType.tryFrom_toU8 (t : PacketType) : tryFrom t.toU8 = some t := by
  cases t <;> rfl

theorem PacketType.toU8_lt (t : PacketType) : t.toU8.toNat < 7 := by
  cases t <;> decide

theorem PacketType.parseFromU8_toU8 {ι : Type} (t : PacketType) (i : ι) :
    parseFromU8 t.toU8 i = ok t := by
  rw [parseFromU8, tryFrom_toU8]

theorem PacketType.tryFrom_eq_some {v : UInt8} {t : PacketType} (h : tryFrom v = some t) :
    v = t.toU8 := by
  unfold tryFrom at h
  split at h <;> cases h <;> rfl

theorem PacketType.parseFromU8_cases {ι : Type} (v : UInt8) (i : ι) :
    (∃ t, v = toU8 t ∧ parseFromU8 v i = ok t) ∨ parseFromU8 v i = err (.failure i .digit) := by
  unfold parseFromU8
  cases h : tryFrom v with
  | some t => exact .inl ⟨t, tryFrom_eq_some h, rfl⟩
  | none => exact .inr rfl

/-- The digit that stands for a packet type in a text. -/
def PacketType.toChar (t : PacketType) : Char := t.toU8.toNat.digitChar

theorem PacketType.print_toU8 (t : PacketType) : Decimal.print t.toU8.toNat = [t.toChar] :=
  Decimal.print_of_lt_ten (lt_trans t.toU8_lt (by decide))

theorem PacketType.isDigit_toChar (t : PacketType) : t.toChar.isDigit = true :=
  Decimal.isDigit_digitChar (lt_trans t.toU8_lt (by decide))

theorem PacketType.value_toChar_cons (t : PacketType) (ds : Str) :
    Decimal.value (t.toChar :: ds) = t.toU8.toNat * 10 ^ ds.length + Decimal.value ds :=
  Decimal.value_digitChar_cons (lt_trans t.toU8_lt (by decide)) ds

end SocketIoRust.SocketIoParser
