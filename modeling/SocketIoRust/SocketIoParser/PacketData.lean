import SocketIoRust.SocketIoParser.Encoder
import SocketIoRust.SocketIoParser.Decoder

namespace SocketIoRust.SocketIoParser

open Library

namespace PacketDataValue

mutual

/-- The binary leaves, depth first and from left to right. -/
def binaryLeaves : PacketDataValue → List Bytes
  | .array values => leavesOfElements values
  | .object entries => leavesOfEntries entries
  | .binary data => [data]
  | _ => []

def leavesOfElements : List PacketDataValue → List Bytes
  | [] => []
  | value :: values => binaryLeaves value ++ leavesOfElements values

def leavesOfEntries : List (Str × PacketDataValue) → List Bytes
  | [] => []
  | (_, value) :: entries => binaryLeaves value ++ leavesOfEntries entries

end

inductive ObjectFree : PacketDataValue → Prop
  | null : ObjectFree .null
  | bool (b : Bool) : ObjectFree (.bool b)
  | number (n : Json.Number) : ObjectFree (.number n)
  | string (s : Str) : ObjectFree (.string s)
  | array {values : List PacketDataValue} : (∀ v ∈ values, ObjectFree v) →
      ObjectFree (.array values)
  | binary (data : Bytes) : ObjectFree (.binary data)

/-- The shape that `is_payload_valid` requires of the JSON, required of the data. -/
def validShape (packetType : PacketType) (data : PacketDataValue) : Bool :=
  match packetType with
  | .connect => match data with
    | .object _ => true
    | _ => false
  | .disconnect => match data with
    | .null => true
    | _ => false
  | .connectError => match data with
    | .string _ | .object _ => true
    | _ => false
  | .event | .binaryEvent => match data with
    | .array (.string _ :: _) => true
    | _ => false
  | .ack | .binaryAck => match data with
    | .array _ => true
    | _ => false

theorem isPayloadValid_eq (t : PacketType) (j : JsonValue) :
    isPayloadValid t j = validShape t (ofJson j) := by
  cases j with
  | array values =>
    cases values with
    | nil => cases t <;> rfl
    | cons value values => cases t <;> cases value <;> rfl
  | _ => cases t <;> rfl

end PacketDataValue

open PacketDataValue DefaultEncoder

theorem leavesOfElements_eq_nil {values : List PacketDataValue} :
    leavesOfElements values = [] ↔ ∀ v ∈ values, binaryLeaves v = [] := by
  induction values with
  | nil => simp [leavesOfElements]
  | cons value values ih =>
    rw [leavesOfElements, List.append_eq_nil_iff, ih, List.forall_mem_cons]

theorem leavesOfEntries_eq (entries : List (Str × PacketDataValue)) :
    leavesOfEntries entries = leavesOfElements (entries.map Prod.snd) := by
  induction entries with
  | nil => rfl
  | cons e entries ih => rw [leavesOfEntries, ih, List.map_cons, leavesOfElements]

/-- The keys of an object play no part. -/
theorem deconstructEntries_eq (entries : List (Str × PacketDataValue)) (a : List Bytes) :
    deconstructEntries entries a = deconstructElements (entries.map Prod.snd) a := by
  induction entries generalizing a with
  | nil => rfl
  | cons e entries ih =>
    simp only [deconstructEntries, List.map_cons, deconstructElements]
    rw [ih]

theorem deconstruct_object (entries : List (Str × PacketDataValue)) (a : List Bytes) :
    deconstructPacketData (.object entries) a =
      deconstructPacketData (.array (entries.map Prod.snd)) a := by
  simp only [deconstructPacketData, deconstructEntries_eq]

theorem binaryLeaves_object (entries : List (Str × PacketDataValue)) :
    binaryLeaves (.object entries) = binaryLeaves (.array (entries.map Prod.snd)) := by
  rw [binaryLeaves, binaryLeaves, leavesOfEntries_eq]

theorem deconstructElements_attachments {values : List PacketDataValue}
    (h : ∀ v ∈ values, ∀ a, (deconstructPacketData v a).2 = a ++ binaryLeaves v)
    (a : List Bytes) : (deconstructElements values a).2 = a ++ leavesOfElements values := by
  induction values generalizing a with
  | nil => simp [deconstructElements, leavesOfElements]
  | cons value values ih =>
    rw [List.forall_mem_cons] at h
    simp only [deconstructElements, leavesOfElements]
    rw [ih h.2, h.1, List.append_assoc]

/-- The encoder appends exactly the binary leaves to the attachments. -/
theorem deconstruct_attachments (v : PacketDataValue) (attachments : List Bytes) :
    (deconstructPacketData v attachments).2 = attachments ++ binaryLeaves v := by
  induction v using PacketDataValue.induct generalizing attachments with
  | null => simp [deconstructPacketData, binaryLeaves]
  | bool b => simp [deconstructPacketData, binaryLeaves]
  | number n => simp [deconstructPacketData, binaryLeaves]
  | string s => simp [deconstructPacketData, binaryLeaves]
  | binary data => simp [deconstructPacketData, binaryLeaves]
  | array values ih => exact deconstructElements_attachments ih attachments
  | object entries ih =>
    rw [deconstruct_object, binaryLeaves_object]
    exact deconstructElements_attachments (List.forall_mem_map.mpr ih) attachments

/-- Of the elements of a deconstructed list, what holds of each deconstructed element. -/
theorem forall_deconstructElements {P : JsonValue → Prop} {values : List PacketDataValue}
    (h : ∀ v ∈ values, ∀ a, P (deconstructPacketData v a).1) (a : List Bytes) :
    ∀ j ∈ (deconstructElements values a).1, P j := by
  induction values generalizing a with
  | nil => simp [deconstructElements]
  | cons value values ih =>
    simp only [deconstructElements, List.forall_mem_cons]
    exact ⟨h value (by simp) a, ih (fun v hv ↦ h v (by simp [hv])) _⟩

theorem makePlaceholder_wellFormed (index : ℕ) : (makePlaceholder index).WellFormed := by
  have hkeys : [attachmentMarkerKey, attachmentIndexKey].Nodup := by decide
  refine .object hkeys ?_
  intro e he
  rcases List.mem_cons.mp he with rfl | he
  · exact .bool true
  · rw [List.mem_singleton.mp he]
    exact .number _

theorem deconstruct_wellFormed (v : PacketDataValue) (a : List Bytes) :
    (deconstructPacketData v a).1.WellFormed := by
  induction v using PacketDataValue.induct generalizing a with
  | null => exact .null
  | bool b => exact .bool b
  | number n => exact .number n
  | string s => exact .string s
  | binary data => exact makePlaceholder_wellFormed a.length
  | array values ih => exact .array (forall_deconstructElements ih a)
  | object entries ih =>
    rw [deconstruct_object]
    exact .array (forall_deconstructElements (List.forall_mem_map.mpr ih) a)

theorem deconstruct_array_objectFree {values : List PacketDataValue}
    (h : ∀ v ∈ values, binaryLeaves v = [] →
      ∀ a, ObjectFree (ofJson (deconstructPacketData v a).1))
    (hv : binaryLeaves (.array values) = []) (a : List Bytes) :
    ObjectFree (ofJson (deconstructPacketData (.array values) a).1) := by
  rw [binaryLeaves, leavesOfElements_eq_nil] at hv
  have helements := forall_deconstructElements (P := fun j ↦ ObjectFree (ofJson j))
    (fun v hm ↦ h v hm (hv v hm)) a
  rw [deconstructPacketData, ofJson, ofJsonElements_eq]
  exact .array (by simpa using helements)

/-- Without binary data no object is left in the JSON. -/
theorem deconstruct_objectFree {v : PacketDataValue} (hv : binaryLeaves v = [])
    (a : List Bytes) : ObjectFree (ofJson (deconstructPacketData v a).1) := by
  induction v using PacketDataValue.induct generalizing a with
  | null => exact .null
  | bool b => exact .bool b
  | number n => exact .number n
  | string s => exact .string s
  | binary data => cases hv
  | array values ih => exact deconstruct_array_objectFree ih hv a
  | object entries ih =>
    rw [binaryLeaves_object] at hv
    rw [deconstruct_object]
    exact deconstruct_array_objectFree (List.forall_mem_map.mpr ih) hv a

theorem ofJson_deconstruct {v : PacketDataValue} (hv : binaryLeaves v = [])
    (ho : ObjectFree v) (a : List Bytes) : ofJson (deconstructPacketData v a).1 = v := by
  induction v using PacketDataValue.induct generalizing a with
  | null => rfl
  | bool b => rfl
  | number n => rfl
  | string s => rfl
  | binary data => cases hv
  | object entries => cases ho
  | array values ih =>
    cases ho with
    | array ho =>
    rw [binaryLeaves, leavesOfElements_eq_nil] at hv
    have h : ofJsonElements (deconstructElements values a).1 = values := by
      induction values generalizing a with
      | nil => rfl
      | cons value values ihs =>
        simp only [deconstructElements, ofJsonElements]
        rw [ih value (by simp) (hv value (by simp)) (ho value (by simp)),
          ihs (fun v hm ↦ ih v (by simp [hm])) (fun v hm ↦ hv v (by simp [hm])) _
            (fun v hm ↦ ho v (by simp [hm]))]
    rw [deconstructPacketData, ofJson]
    exact congrArg _ h

end SocketIoRust.SocketIoParser
