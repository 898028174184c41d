import SocketIoRust.Library.Serde
import SocketIoRust.Library.Outcome
import SocketIoRust.SocketIoParser.Packet

namespace SocketIoRust.SocketIoParser

open Library Library.Serde
open Library.Outcome (ok err)

namespace Ser

structure Error where
deriving DecidableEq, Repr

/-- The message is dropped. -/
def Error.custom (_msg : Str) : Error := ⟨⟩

abbrev Value := PacketDataValue

structure SerializeVec where
  vec : List Value

structure SerializeTupleVariant where
  name : Str
  vec : List Value

structure SerializeMap where
  map : List (Str × Value)
  nextKey : Option Str

structure SerializeStructVariant where
  name : Str
  map : List (Str × Value)

namespace Serializer

def serializeBool (value : Bool) : Outcome Error Value := ok (.bool value)
def serializeI64 (value : Int64) : Outcome Error Value := ok (.number (Json.Number.fromI64 value))
def serializeI8 (value : Int8) : Outcome Error Value := serializeI64 value.toInt64
def serializeI16 (value : Int16) : Outcome Error Value := serializeI64 value.toInt64
def serializeI32 (value : Int32) : Outcome Error Value := serializeI64 value.toInt64
def serializeU64 (value : UInt64) : Outcome Error Value := ok (.number (.posInt value))
def serializeU8 (value : UInt8) : Outcome Error Value := serializeU64 value.toUInt64
def serializeU16 (value : UInt16) : Outcome Error Value := serializeU64 value.toUInt64
def serializeU32 (value : UInt32) : Outcome Error Value := serializeU64 value.toUInt64

/-- Serde's own definition, like the next one: the serializer has none. -/
def serializeI128 (_v : BitVec 128) : Outcome Error Value :=
  err (.custom "i128 is not supported".toList)

def serializeU128 (_v : BitVec 128) : Outcome Error Value :=
  err (.custom "u128 is not supported".toList)

def serializeF64 (value : F64) : Outcome Error Value :=
  ok (match Json.Number.fromF64 value with
    | some number => .number number
    | none => .null)

def serializeF32 (value : F64) : Outcome Error Value := serializeF64 value
def serializeChar (value : Char) : Outcome Error Value := ok (.string [value])
def serializeStr (value : Str) : Outcome Error Value := ok (.string value)
def serializeBytes (value : Bytes) : Outcome Error Value := ok (.binary value)
def serializeUnit : Outcome Error Value := ok .null
def serializeUnitStruct (_name : Str) : Outcome Error Value := serializeUnit

def serializeUnitVariant (_name : Str) (_variantIndex : UInt32) (variant : Str) :
    Outcome Error Value := serializeStr variant

/-- The value comes with what `to_value` makes of it, here and below. -/
def serializeNewtypeVariant (_name : Str) (_variantIndex : UInt32) (variant : Str)
    (value : Outcome Error Value) : Outcome Error Value := do
  let value ← value
  ok (.object (IndexMap.insert variant value []))

def serializeNone : Outcome Error Value := serializeUnit

/-- There is room for `len` elements, which are those that follow. -/
def serializeSeq (_len : Option ℕ) : SerializeVec := ⟨[]⟩

def serializeTuple (len : ℕ) : SerializeVec := serializeSeq (some len)
def serializeTupleStruct (_name : Str) (len : ℕ) : SerializeVec := serializeSeq (some len)

def serializeTupleVariant (_name : Str) (_variantIndex : UInt32) (variant : Str) (_len : ℕ) :
    SerializeTupleVariant := ⟨variant, []⟩

def serializeMap (_len : Option ℕ) : SerializeMap := ⟨[], none⟩
def serializeStruct (_name : Str) (len : ℕ) : SerializeMap := serializeMap (some len)

def serializeStructVariant (_name : Str) (_variantIndex : UInt32) (variant : Str) (_len : ℕ) :
    SerializeStructVariant := ⟨variant, []⟩

def collectStr (value : Str) : Outcome Error Value := ok (.string value)

end Serializer

def SerializeVec.serializeElement (self : SerializeVec) (value : Outcome Error Value) :
    Outcome Error SerializeVec := do
  let value ← value
  ok ⟨self.vec ++ [value]⟩

def SerializeVec.end (self : SerializeVec) : Value := .array self.vec

def SerializeTupleVariant.serializeField (self : SerializeTupleVariant)
    (value : Outcome Error Value) : Outcome Error SerializeTupleVariant := do
  let value ← value
  ok { self with vec := self.vec ++ [value] }

def SerializeTupleVariant.end (self : SerializeTupleVariant) : Value :=
  .object (IndexMap.insert self.name (.array self.vec) [])

/-- The key comes with what `MapKeySerializer` makes of it. -/
def SerializeMap.serializeKey (self : SerializeMap) (key : Outcome Error Str) :
    Outcome Error SerializeMap := do
  let key ← key
  ok { self with nextKey := some key }

def SerializeMap.serializeValue (self : SerializeMap) (value : Outcome Error Value) :
    Outcome Error SerializeMap :=
  match self.nextKey with
  | none => .panic
  | some key => do
    let value ← value
    ok ⟨IndexMap.insert key value self.map, none⟩

def SerializeMap.end (self : SerializeMap) : Value := .object self.map

def SerializeStructVariant.serializeField (self : SerializeStructVariant) (key : Str)
    (value : Outcome Error Value) : Outcome Error SerializeStructVariant := do
  let value ← value
  ok { self with map := IndexMap.insert key value self.map }

def SerializeStructVariant.end (self : SerializeStructVariant) : Value :=
  .object (IndexMap.insert self.name (.object self.map) [])

def keyMustBeAString : Error := ⟨⟩

namespace MapKeySerializer

def serializeUnitVariant (_name : Str) (_variantIndex : UInt32) (variant : Str) :
    Outcome Error Str := ok variant

/-- `serialize_i8` to `serialize_i64`. -/
def serializeInt (value : ℤ) : Outcome Error Str :=
  ok (if value < 0 then '-' :: Decimal.print value.natAbs else Decimal.print value.natAbs)

/-- `serialize_u8` to `serialize_u64`. -/
def serializeNat (value : ℕ) : Outcome Error Str := ok (Decimal.print value)

def serializeI128 (_v : BitVec 128) : Outcome Error Str :=
  err (.custom "i128 is not supported".toList)

def serializeU128 (_v : BitVec 128) : Outcome Error Str :=
  err (.custom "u128 is not supported".toList)

def serializeChar (value : Char) : Outcome Error Str := ok [value]
def serializeStr (value : Str) : Outcome Error Str := ok value
def collectStr (value : Str) : Outcome Error Str := ok value

end MapKeySerializer

/-- The `Serialize` of a value run with a `MapKeySerializer`. -/
def toKey : Data → Outcome Error Str
  | .i8 value => MapKeySerializer.serializeInt value.toInt
  | .i16 value => MapKeySerializer.serializeInt value.toInt
  | .i32 value => MapKeySerializer.serializeInt value.toInt
  | .i64 value => MapKeySerializer.serializeInt value.toInt
  | .i128 value => MapKeySerializer.serializeI128 value
  | .u8 value => MapKeySerializer.serializeNat value.toNat
  | .u16 value => MapKeySerializer.serializeNat value.toNat
  | .u32 value => MapKeySerializer.serializeNat value.toNat
  | .u64 value => MapKeySerializer.serializeNat value.toNat
  | .u128 value => MapKeySerializer.serializeU128 value
  | .char value => MapKeySerializer.serializeChar value
  | .str value => MapKeySerializer.serializeStr value
  | .collectStr value => MapKeySerializer.collectStr value
  | .unitVariant name variantIndex variant =>
    MapKeySerializer.serializeUnitVariant name variantIndex variant
  | .newtypeStruct _ value => toKey value
  | .bool _ | .f32 _ | .f64 _ | .bytes _ | .unit | .unitStruct _ | .newtypeVariant .. | .none
  | .some _ | .seq .. | .tuple .. | .tupleStruct .. | .tupleVariant .. | .map .. | .struct ..
  | .structVariant .. => err keyMustBeAString

mutual

/-- `to_value`: the `Serialize` of a value run with a `Serializer`. -/
def toValue : Data → Outcome Error Value
  | .bool value => Serializer.serializeBool value
  | .i8 value => Serializer.serializeI8 value
  | .i16 value => Serializer.serializeI16 value
  | .i32 value => Serializer.serializeI32 value
  | .i64 value => Serializer.serializeI64 value
  | .i128 value => Serializer.serializeI128 value
  | .u8 value => Serializer.serializeU8 value
  | .u16 value => Serializer.serializeU16 value
  | .u32 value => Serializer.serializeU32 value
  | .u64 value => Serializer.serializeU64 value
  | .u128 value => Serializer.serializeU128 value
  | .f32 value => Serializer.serializeF32 value
  | .f64 value => Serializer.serializeF64 value
  | .char value => Serializer.serializeChar value
  | .str value => Serializer.serializeStr value
  | .collectStr value => Serializer.collectStr value
  | .bytes value => Serializer.serializeBytes value
  | .unit => Serializer.serializeUnit
  | .unitStruct name => Serializer.serializeUnitStruct name
  | .unitVariant name variantIndex variant =>
    Serializer.serializeUnitVariant name variantIndex variant
  | .newtypeStruct _ value => toValue value
  | .newtypeVariant name variantIndex variant value =>
    Serializer.serializeNewtypeVariant name variantIndex variant (toValue value)
  | .none => Serializer.serializeNone
  | .some value => toValue value
  | .seq hasLen elements =>
    let len := if hasLen then some elements.length else none
    (serializeElements elements (Serializer.serializeSeq len)).map SerializeVec.end
  | .tuple elements =>
    (serializeElements elements (Serializer.serializeTuple elements.length)).map SerializeVec.end
  | .tupleStruct name fields =>
    (serializeElements fields (Serializer.serializeTupleStruct name fields.length)).map
      SerializeVec.end
  | .tupleVariant name variantIndex variant fields =>
    (serializeVariantFields fields
      (Serializer.serializeTupleVariant name variantIndex variant fields.length)).map
      SerializeTupleVariant.end
  | .map len calls =>
    (serializeCalls calls (Serializer.serializeMap len)).map SerializeMap.end
  | .struct name len fields =>
    (serializeFields fields (Serializer.serializeStruct name len)).map SerializeMap.end
  | .structVariant name variantIndex variant len fields =>
    (serializeStructVariantFields fields
      (Serializer.serializeStructVariant name variantIndex variant len)).map
      SerializeStructVariant.end

def serializeElements : List Data → SerializeVec → Outcome Error SerializeVec
  | [], self => ok self
  | value :: values, self => do
    let self ← self.serializeElement (toValue value)
    serializeElements values self

def serializeVariantFields : List Data → SerializeTupleVariant →
    Outcome Error SerializeTupleVariant
  | [], self => ok self
  | value :: values, self => do
    let self ← self.serializeField (toValue value)
    serializeVariantFields values self

def serializeCall : MapCall → SerializeMap → Outcome Error SerializeMap
  | .key key, self => self.serializeKey (toKey key)
  | .value value, self => self.serializeValue (toValue value)

def serializeCalls : List MapCall → SerializeMap → Outcome Error SerializeMap
  | [], self => ok self
  | call :: calls, self => do
    let self ← serializeCall call self
    serializeCalls calls self

/-- The fields of a struct, each given to the map as an entry. -/
def serializeFields : List (Str × Data) → SerializeMap → Outcome Error SerializeMap
  | [], self => ok self
  | (key, value) :: fields, self => do
    let self ← self.serializeKey (MapKeySerializer.serializeStr key)
    let self ← self.serializeValue (toValue value)
    serializeFields fields self

def serializeStructVariantFields : List (Str × Data) → SerializeStructVariant →
    Outcome Error SerializeStructVariant
  | [], self => ok self
  | (key, value) :: fields, self => do
    let self ← self.serializeField key (toValue value)
    serializeStructVariantFields fields self

end

theorem serializeCalls_append (calls calls' : List MapCall) (self : SerializeMap) :
    serializeCalls (calls ++ calls') self =
      (serializeCalls calls self >>= serializeCalls calls') := by
  induction calls generalizing self with
  | nil => rfl
  | cons call calls ih =>
    rw [List.cons_append, serializeCalls, serializeCalls]
    cases serializeCall call self with
    | ok self => exact ih self
    | err e => rfl
    | panic => rfl

/-- An entry of a map is inserted, and no key is left pending. -/
theorem serializeCalls_entry {value : Data} {v : Value} (h : toValue value = ok v) (key : Str)
    (self : SerializeMap) :
    serializeCalls (entry (.str key) value) self = ok ⟨IndexMap.insert key v self.map, none⟩ := by
  simp only [entry, serializeCalls, serializeCall, toKey, MapKeySerializer.serializeStr,
    SerializeMap.serializeKey, SerializeMap.serializeValue, h, Outcome.ok_bind]

theorem serializeElements_of_forall {values : List Json.Value}
    (h : ∀ v ∈ values, toValue v.serialize = ok (.ofJson v)) (vec : List Value) :
    serializeElements (Json.Value.serializeElements values) ⟨vec⟩ =
      ok ⟨vec ++ PacketDataValue.ofJsonElements values⟩ := by
  induction values generalizing vec with
  | nil => rw [Json.Value.serializeElements, serializeElements, PacketDataValue.ofJsonElements,
      List.append_nil]
  | cons v values ih =>
    obtain ⟨hv, hvs⟩ := List.forall_mem_cons.mp h
    rw [Json.Value.serializeElements, serializeElements, hv, SerializeVec.serializeElement,
      Outcome.ok_bind, Outcome.ok_bind, ih hvs, PacketDataValue.ofJsonElements, List.append_assoc,
      List.singleton_append]

theorem serializeCalls_of_forall {entries : List (Str × Json.Value)}
    (h : ∀ e ∈ entries, toValue e.2.serialize = ok (.ofJson e.2)) (map : List (Str × Value)) :
    serializeCalls (Json.Value.serializeEntries entries) ⟨map, none⟩ =
      ok ⟨(PacketDataValue.ofJsonEntries entries).foldl
        (fun map e ↦ IndexMap.insert e.1 e.2 map) map, none⟩ := by
  induction entries generalizing map with
  | nil => rfl
  | cons e entries ih =>
    obtain ⟨key, value⟩ := e
    obtain ⟨hv, hes⟩ := List.forall_mem_cons.mp h
    rw [Json.Value.serializeEntries, serializeCalls_append, serializeCalls_entry hv,
      Outcome.ok_bind, ih hes, PacketDataValue.ofJsonEntries, List.foldl_cons]

theorem toValue_number (n : Json.Number) : toValue n.serialize = ok (.number n) := by
  cases n with
  | posInt n => rfl
  | negInt n =>
    rw [Json.Number.serialize, toValue, Serializer.serializeI64, Json.Number.fromI64_negInt]
  | float x => rfl

theorem toValue_serialize (v : JsonValue) : toValue v.serialize = ok (PacketDataValue.ofJson v) := by
  induction v using Json.Value.induct with
  | null => rfl
  | bool b => rfl
  | number n => exact toValue_number n
  | string s => rfl
  | array vs ih =>
    rw [Json.Value.serialize, toValue, Serializer.serializeSeq, serializeElements_of_forall ih]
    rfl
  | object es ih =>
    rw [Json.Value.serialize, toValue, Serializer.serializeMap, serializeCalls_of_forall ih]
    rfl

end Ser

end SocketIoRust.SocketIoParser
