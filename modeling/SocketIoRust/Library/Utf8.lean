import Mathlib.Data.List.Basic

namespace SocketIoRust.Library.Utf8

/-- The UTF-8 bytes of a string. -/
def asBytes (s : List Char) : List UInt8 := s.flatMap String.utf8EncodeChar

def IsUtf8 (b : List UInt8) : Prop := b.toByteArray.IsValidUTF8

instance (b : List UInt8) : Decidable (IsUtf8 b) :=
  inferInstanceAs (Decidable b.toByteArray.IsValidUTF8)

theorem toByteArray_asBytes (s : List Char) : (asBytes s).toByteArray = s.utf8Encode := rfl

theorem isUtf8_asBytes (s : List Char) : IsUtf8 (asBytes s) := by
  rw [IsUtf8, toByteArray_asBytes]
  exact ByteArray.isValidUTF8_utf8Encode

/-- The string with these bytes, if there is one. -/
def fromUtf8 (b : List UInt8) : Option (List Char) := b.toByteArray.utf8Decode?.map Array.toList

theorem fromUtf8_asBytes (s : List Char) : fromUtf8 (asBytes s) = some s := by
  rw [fromUtf8, toByteArray_asBytes, List.utf8Decode?_utf8Encode]
  rfl

theorem asBytes_injective : Function.Injective asBytes := fun s s' h ↦ by
  have hd : s.utf8Encode.utf8Decode? = s'.utf8Encode.utf8Decode? := by
    rw [← toByteArray_asBytes, h, toByteArray_asBytes]
  rw [List.utf8Decode?_utf8Encode, List.utf8Decode?_utf8Encode] at hd
  exact Array.toList_inj.mpr (Option.some.inj hd)

theorem asBytes_nil : asBytes [] = [] := rfl

theorem asBytes_ne_nil {s : List Char} (h : s ≠ []) : asBytes s ≠ [] := fun hs ↦
  h (asBytes_injective (hs.trans asBytes_nil.symm))

end SocketIoRust.Library.Utf8
