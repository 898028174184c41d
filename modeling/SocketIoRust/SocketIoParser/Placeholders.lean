import SocketIoRust.SocketIoParser.PacketData
import Mathlib.Data.List.Range

namespace SocketIoRust.SocketIoParser

open Library PacketDataValue DefaultEncoder

mutual

/-- The indices that the placeholders of some JSON name, depth first and from left to
right. -/
def placeholders : JsonValue → List ℕ
  | .array values => placeholdersOfElements values
  | .object entries =>
    match getAttachmentIndexIfPlaceholder entries with
    | some index => [index]
    | none => placeholdersOfEntries entries
  | _ => []

def placeholdersOfElements : List JsonValue → List ℕ
  | [] => []
  | value :: values => placeholders value ++ placeholdersOfElements values

def placeholdersOfEntries : List (Str × JsonValue) → List ℕ
  | [] => []
  | (_, value) :: entries => placeholders value ++ placeholdersOfEntries entries

end

theorem placeholders_makePlaceholder {index : ℕ} (h : index < usizeSize) :
    placeholders (makePlaceholder index) = [index] := by
  have hnat : (UInt64.ofNat index).toNat = index := UInt64.toNat_ofNat_of_lt' h
  have hindex : getAttachmentIndexIfPlaceholder [(attachmentMarkerKey, .bool true),
      (attachmentIndexKey, .number (.posInt (UInt64.ofNat index)))] =
        some (UInt64.ofNat index).toNat := rfl
  rw [makePlaceholder, placeholders, hindex, hnat]

/-- The placeholders of some deconstructed data are numbered on from the attachments that
were there before. -/
def NumbersOn (v : PacketDataValue) : Prop :=
  ∀ a : List Bytes, (a ++ binaryLeaves v).length ≤ usizeSize →
    placeholders (deconstructPacketData v a).1 = List.range' a.length (binaryLeaves v).length

theorem numbersOn_array {values : List PacketDataValue} (h : ∀ v ∈ values, NumbersOn v) :
    NumbersOn (.array values) := by
  intro a hsize
  rw [binaryLeaves] at hsize ⊢
  rw [deconstructPacketData, placeholders]
  induction values generalizing a with
  | nil => rfl
  | cons value values ih =>
    rw [List.forall_mem_cons] at h
    rw [leavesOfElements, ← List.append_assoc] at hsize
    have hfirst : (a ++ binaryLeaves value).length ≤ usizeSize := by
      rw [List.length_append] at hsize
      omega
    have hlater := ih h.2 (a ++ binaryLeaves value) hsize
    simp only [deconstructElements, placeholdersOfElements, leavesOfElements]
    rw [h.1 a hfirst, deconstruct_attachments, hlater, List.length_append, List.length_append,
      List.range'_append_1]

theorem numbersOn (v : PacketDataValue) : NumbersOn v := by
  induction v using PacketDataValue.induct with
  | null => exact fun _ _ ↦ rfl
  | bool b => exact fun _ _ ↦ rfl
  | number n => exact fun _ _ ↦ rfl
  | string s => exact fun _ _ ↦ rfl
  | array values ih => exact numbersOn_array ih
  | object entries ih =>
    have h := numbersOn_array (List.forall_mem_map.mpr ih)
    intro a hsize
    rw [binaryLeaves_object] at hsize ⊢
    rw [deconstruct_object]
    exact h a hsize
  | binary data =>
    intro a hsize
    rw [List.length_append] at hsize
    exact placeholders_makePlaceholder (Nat.lt_of_lt_of_le (Nat.lt_succ_self _) hsize)

/-- The encoder collects the binary leaves in their order and numbers their placeholders
in the same order, from the number of attachments that it starts with. -/
theorem deconstructPacketData_numbers (v : PacketDataValue) (a : List Bytes)
    (h : (a ++ binaryLeaves v).length ≤ usizeSize) :
    (deconstructPacketData v a).2 = a ++ binaryLeaves v ∧
      placeholders (deconstructPacketData v a).1 =
        List.range' a.length (binaryLeaves v).length :=
  ⟨deconstruct_attachments v a, numbersOn v a h⟩

/-- Binary data in an array and in an object. -/
def nested : PacketDataValue :=
  .array [.binary [1], .object [(['k'], .null), (['l'], .binary [2])], .binary []]

theorem deconstructPacketData_numbers_nested :
    (deconstructPacketData nested [[0]]).2 = [[0]] ++ binaryLeaves nested ∧
      placeholders (deconstructPacketData nested [[0]]).1 =
        List.range' 1 (binaryLeaves nested).length :=
  deconstructPacketData_numbers nested [[0]] (by decide)

end SocketIoRust.SocketIoParser
