import SocketIoRust.Library.Json

namespace SocketIoRust.Library

namespace Serde

open Json (Str)

inductive F64 where
  | finite : Json.Double → F64
  | infinite : (negative : Bool) → F64
  | nan : F64
deriving DecidableEq, Repr

mutual

/-- What a value tells the serializer that it is given, with what the serializer is handed
to serialize in turn. A float is given by the double of the same value. The length that is
told for a tuple, and for a sequence if it is told at all, is that of the list. -/
inductive Data where
  | bool : Bool → Data
  | i8 : Int8 → Data
  | i16 : Int16 → Data
  | i32 : Int32 → Data
  | i64 : Int64 → Data
  | i128 : BitVec 128 → Data
  | u8 : UInt8 → Data
  | u16 : UInt16 → Data
  | u32 : UInt32 → Data
  | u64 : UInt64 → Data
  | u128 : BitVec 128 → Data
  | f32 : F64 → Data
  | f64 : F64 → Data
  | char : Char → Data
  | str : Str → Data
  | collectStr : Str → Data
  | bytes : List UInt8 → Data
  | unit : Data
  | unitStruct : (name : Str) → Data
  | unitVariant : (name : Str) → (variantIndex : UInt32) → (variant : Str) → Data
  | newtypeStruct : (name : Str) → Data → Data
  | newtypeVariant : (name : Str) → (variantIndex : UInt32) → (variant : Str) → Data → Data
  | none : Data
  | some : Data → Data
  | seq : (hasLen : Bool) → List Data → Data
  | tuple : List Data → Data
  | tupleStruct : (name : Str) → List Data → Data
  | tupleVariant : (name : Str) → (variantIndex : UInt32) → (variant : Str) → List Data → Data
  | map : (len : Option ℕ) → List MapCall → Data
  | struct : (name : Str) → (len : ℕ) → List (Str × Data) → Data
  | structVariant : (name : Str) → (variantIndex : UInt32) → (variant : Str) → (len : ℕ) →
      List (Str × Data) → Data

/-- The calls for a map; nothing makes their keys and values alternate. -/
inductive MapCall where
  | key : Data → MapCall
  | value : Data → MapCall

end

/-- `serialize_entry`. -/
def entry (key value : Data) : List MapCall := [.key key, .value value]

/-- What the serializer is handed to serialize, the keys of maps apart. -/
def Data.parts : Data → List Data
  | .newtypeStruct _ value => [value]
  | .newtypeVariant _ _ _ value => [value]
  | .some value => [value]
  | .seq _ elements => elements
  | .tuple elements => elements
  | .tupleStruct _ fields => fields
  | .tupleVariant _ _ _ fields => fields
  | .map _ calls => calls.filterMap fun
    | .value value => Option.some value
    | .key _ => Option.none
  | .struct _ _ fields => fields.map Prod.snd
  | .structVariant _ _ _ _ fields => fields.map Prod.snd
  | _ => []

def Data.keys : Data → List Data
  | .map _ calls => calls.filterMap fun
    | .key key => Option.some key
    | .value _ => Option.none
  | _ => []

/-- The calls for a map come in pairs of a key and a value. -/
def Data.Alternates : Data → Prop
  | .map _ calls => ∃ entries : List (Data × Data), calls = entries.flatMap fun e ↦ entry e.1 e.2
  | _ => True

theorem Data.sizeOf_part {d c : Data} (h : c ∈ d.parts) : sizeOf c < sizeOf d := by
  have hfields {fields : List (Str × Data)} (hc : c ∈ fields.map Prod.snd) :
      sizeOf c < sizeOf fields := by
    obtain ⟨⟨key, value⟩, hmem, rfl⟩ := List.mem_map.mp hc
    have hlt := List.sizeOf_lt_of_mem hmem
    simp only [Prod.mk.sizeOf_spec] at hlt ⊢
    omega
  cases d with
  | newtypeStruct | newtypeVariant | some =>
    simp only [Data.parts, List.mem_singleton] at h
    subst h
    simp only [newtypeStruct.sizeOf_spec, newtypeVariant.sizeOf_spec, some.sizeOf_spec]
    omega
  | seq | tuple | tupleStruct | tupleVariant =>
    simp only [Data.parts] at h
    have hlt := List.sizeOf_lt_of_mem h
    simp only [seq.sizeOf_spec, tuple.sizeOf_spec, tupleStruct.sizeOf_spec,
      tupleVariant.sizeOf_spec]
    omega
  | map len calls =>
    obtain ⟨call, hmem, hcall⟩ := List.mem_filterMap.mp h
    cases call with
    | key => cases hcall
    | value value =>
      cases hcall
      have hlt := List.sizeOf_lt_of_mem hmem
      simp only [map.sizeOf_spec, MapCall.value.sizeOf_spec] at hlt ⊢
      omega
  | struct name len fields =>
    have hlt := hfields h
    simp only [struct.sizeOf_spec]
    omega
  | structVariant name variantIndex variant len fields =>
    have hlt := hfields h
    simp only [structVariant.sizeOf_spec]
    omega
  | _ => cases h

theorem Data.induct {motive : Data → Prop}
    (step : ∀ d, (∀ c ∈ d.parts, motive c) → motive d) (d : Data) : motive d :=
  step d fun c hc ↦
    have := Data.sizeOf_part hc
    Data.induct step c
termination_by sizeOf d

end Serde

namespace Json

open Serde (Data F64 MapCall)

def Number.fromI64 (value : Int64) : Number :=
  if value.toInt < 0 then negInt (Fin.ofNat (2 ^ 63) (-value.toInt - 1).toNat)
  else posInt (UInt64.ofNat value.toInt.toNat)

def Number.fromF64 : F64 → Option Number
  | .finite x => some (float x)
  | .infinite _ => none
  | .nan => none

def Number.serialize : Number → Data
  | posInt n => .u64 n
  | negInt n => .i64 (Int64.ofInt (Int.negSucc n))
  | float x => .f64 (.finite x)

mutual

def Value.serialize : Value → Data
  | .null => .unit
  | .bool b => .bool b
  | .number n => n.serialize
  | .string s => .str s
  | .array vs => .seq true (serializeElements vs)
  | .object es => .map (some es.length) (serializeEntries es)

def Value.serializeElements : List Value → List Data
  | [] => []
  | v :: vs => v.serialize :: serializeElements vs

def Value.serializeEntries : List (Str × Value) → List MapCall
  | [] => []
  | (k, v) :: es => Serde.entry (.str k) v.serialize ++ serializeEntries es

end

theorem Number.fromI64_negInt (n : Fin (2 ^ 63)) :
    fromI64 (Int64.ofInt (Int.negSucc n)) = negInt n := by
  have hlt := n.isLt
  have hint : (Int64.ofInt (Int.negSucc n)).toInt = Int.negSucc n := by
    rw [Int64.toInt_ofInt_of_le]
    · omega
    · omega
  have hnat : (-Int.negSucc n - 1).toNat = n := by omega
  rw [fromI64, hint, if_pos (Int.negSucc_lt_zero _), hnat]
  exact congrArg negInt (Fin.ext (Nat.mod_eq_of_lt hlt))

end Json

end SocketIoRust.Library
