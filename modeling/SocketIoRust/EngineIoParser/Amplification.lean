import SocketIoRust.EngineIoParser.StringFrames
import SocketIoRust.EngineIoParser.BinaryFrames

namespace SocketIoRust.EngineIoParser

open Library Library.Nom Library.Framing
open Library.Outcome (ok err)

/-- The characters of a text, the bytes of binary data. -/
def PacketData.size : PacketData → ℕ
  | .text s => s.length
  | .binary d => d.length
  | .empty => 0

def dataSize (packets : List Packet) : ℕ := (packets.map (fun p ↦ p.data.size)).sum

theorem sum_cost (c : ℕ) (packets : List Packet) :
    (packets.map (fun p ↦ c + p.data.size)).sum = c * packets.length + dataSize packets := by
  induction packets with
  | nil => rfl
  | cons p packets ih =>
    simp only [dataSize, List.map_cons, List.sum_cons, List.length_cons] at ih ⊢
    rw [ih, Nat.mul_succ]
    omega

namespace BinaryFormat

variable {o : Overflow} {input rest : Bytes} {p : Packet}

def bytesOf : PacketData → Bytes
  | .binary d => d
  | _ => []

/-- A packet takes its data and at least four more bytes: marker, length, separator, type. -/
theorem accepts_cost (h : Accepts o input p rest) :
    4 + p.data.size + rest.length ≤ input.length := by
  cases h with
  | string hd hn hr hu =>
    have hne := List.length_pos_of_ne_nil hd.ne_nil
    simp only [PacketData.size, List.length_append, List.length_cons]
    omega
  | binary hd hn =>
    have hne := List.length_pos_of_ne_nil hd.ne_nil
    simp only [PacketData.size, List.length_append, List.length_cons]
    omega

/-- The data of a packet stand in the input right before what is left of it. -/
theorem accepts_slice (h : Accepts o input p rest) :
    ∃ gap, input = gap ++ (bytesOf p.data ++ rest) := by
  cases h with
  | @string ds es data rest t hd hn hr hu =>
    exact ⟨0 :: (ds ++ 255 :: (t.toU8 + 48) :: es), by simp [bytesOf]⟩
  | @binary ds data rest t hd hn => exact ⟨1 :: (ds ++ [255, t.toU8]), by simp [bytesOf]⟩

theorem accepts_binary (h : Accepts o input p rest) : p.data = .binary (bytesOf p.data) := by
  cases h <;> rfl

theorem decodePayload_cost {packets : List Packet} (h : decodePayload o input = ok packets) :
    4 * packets.length + dataSize packets ≤ input.length := by
  rw [decodePayload_eq] at h
  obtain ⟨rest, hr, -⟩ := reads_of_decodeAll (parse_consuming o) h
  rw [(parse_spec o).yields_eq] at hr
  have hle := hr.cost_le (fun p ↦ 4 + p.data.size) (fun _ _ _ ↦ accepts_cost)
  rw [sum_cost] at hle
  omega

theorem decodePayload_slices {packets : List Packet} (h : decodePayload o input = ok packets) :
    ∃ ds, packets.map Packet.data = ds.map PacketData.binary ∧ Slices ds input := by
  rw [decodePayload_eq] at h
  obtain ⟨rest, hr, -⟩ := reads_of_decodeAll (parse_consuming o) h
  rw [(parse_spec o).yields_eq] at hr
  have hbinary : ∀ p ∈ packets, p.data = .binary (bytesOf p.data) :=
    hr.forall (P := fun p ↦ p.data = .binary (bytesOf p.data)) (fun _ _ _ ↦ accepts_binary)
  refine ⟨_, ?_, hr.slices (fun p ↦ bytesOf p.data) (fun _ _ _ ↦ accepts_slice)⟩
  rw [List.map_map]
  exact List.map_congr_left hbinary

end BinaryFormat

namespace StringFormat

variable {B : Base64.Codec} {o : Overflow} {input rest : Str} {p : Packet}

/-- A packet takes at least as many characters as its data have, and three more: length,
separator, type. -/
theorem accepts_cost (hB : B.Compact) (h : Accepts B o input p rest) :
    3 + p.data.size + rest.length ≤ input.length := by
  cases h with
  | text hd hv hn hr ht =>
    have hds := List.length_pos_of_ne_nil hd.ne_nil
    have hes := List.length_pos_of_ne_nil hr.ne_nil
    simp only [PacketData.size, List.length_append, List.length_cons]
    omega
  | base64 hd hv hn hk hr ht hx =>
    have hds := List.length_pos_of_ne_nil hd.ne_nil
    have hes := List.length_pos_of_ne_nil hr.ne_nil
    have hdata := hB.length_le hx
    simp only [PacketData.size, List.length_append, List.length_cons]
    omega

theorem decodePayload_cost (hB : B.Compact) {packets : List Packet}
    (h : decodePayload B o input = ok packets) :
    3 * packets.length + dataSize packets ≤ input.length := by
  rw [decodePayload_eq] at h
  obtain ⟨rest, hr, -⟩ := reads_of_decodeAll (parse_consuming B o) h
  rw [(parse_spec B o).yields_eq] at hr
  have hle := hr.cost_le (fun p ↦ 3 + p.data.size) (fun _ _ _ ↦ accepts_cost hB)
  rw [sum_cost] at hle
  omega

end StringFormat

namespace Amplification

/-- Whatever is decoded, with or without wrapped lengths, is no larger than the input; the
binary format's data are parts of it. -/
theorem decodePayload_bounded {B : Base64.Codec} (hB : B.Compact) (o : Overflow) (bytes : Bytes)
    (str : Str) :
    (∀ packets, BinaryFormat.decodePayload o bytes = ok packets →
      4 * packets.length + dataSize packets ≤ bytes.length ∧
        ∃ ds, packets.map Packet.data = ds.map PacketData.binary ∧ Slices ds bytes) ∧
    ∀ packets, StringFormat.decodePayload B o str = ok packets →
      3 * packets.length + dataSize packets ≤ str.length := by
  constructor
  · intro packets h
    exact ⟨BinaryFormat.decodePayload_cost h, BinaryFormat.decodePayload_slices h⟩
  · intro packets h
    exact StringFormat.decodePayload_cost hB h

theorem decodePayload_bounded_wrapped :
    (∀ packets, BinaryFormat.decodePayload .wrapping [1, 1, 255, 4, 1, 0, 255] = ok packets →
      4 * packets.length + dataSize packets ≤ 7 ∧
        ∃ ds, packets.map Packet.data = ds.map PacketData.binary ∧
          Slices ds [1, 1, 255, 4, 1, 0, 255]) ∧
    ∀ packets, StringFormat.decodePayload Base64.standard .wrapping
        ['2', ':', '4', 'a', '0', ':'] = ok packets →
      3 * packets.length + dataSize packets ≤ 6 :=
  decodePayload_bounded Base64.standard_compact .wrapping [1, 1, 255, 4, 1, 0, 255]
    ['2', ':', '4', 'a', '0', ':']

end Amplification

end SocketIoRust.EngineIoParser
