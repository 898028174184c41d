import SocketIoRust.EngineIoParser.StringFrames
import SocketIoRust.EngineIoParser.BinaryReading

namespace SocketIoRust.EngineIoParser

open Library Library.Nom
open Library.Outcome (ok err)

/-- The format of a whole encoded packet. -/
inductive Encoded where
  | text : Str → Encoded
  | binary : Bytes → Encoded
deriving DecidableEq, Repr

def decodePacket : Encoded → Outcome ParsePacketError Packet
  | .text text => StringFormat.decodePacket text
  | .binary binary => BinaryFormat.decodePacket binary

namespace StringFormat

theorem decodePacket_run {es rest : Str} {t : PacketType} (hr : MaximalRun Char.isDigit es rest)
    (ht : Decimal.value es = t.toU8.toNat) : decodePacket (es ++ rest) = ok ⟨t, .text rest⟩ := by
  simp only [decodePacket, parseStringPacket, takeU8_packetType hr ht, Outcome.ok_bind,
    PacketType.parseFromU8_toU8]

theorem decodePacket_cases (input : Str) :
    (∃ es rest t, input = es ++ rest ∧ MaximalRun Char.isDigit es rest ∧
        decodePacket input = ok ⟨t, .text rest⟩) ∨
      decodePacket input = err ⟨"Unable to decode packet"⟩ := by
  rcases starts_or_run Char.isDigit input with hs | ⟨es, rest, rfl, hr⟩
  · apply Or.inr
    rw [decodePacket, parseStringPacket, takeU8_of_not_starts hs, Outcome.err_bind]
  by_cases hv : Decimal.value es < 256
  swap
  · apply Or.inr
    rw [decodePacket, parseStringPacket, takeU8_overflow hr (Nat.not_lt.mp hv), Outcome.err_bind]
  rcases PacketType.exists_of_toNat_lt hv ([] : Str) with ⟨t, ht⟩ | he
  · exact .inl ⟨es, rest, t, rfl, hr, decodePacket_run hr ht⟩
  · apply Or.inr
    simp only [decodePacket, parseStringPacket, takeU8_run hr hv, Outcome.ok_bind, he,
      Outcome.err_bind]

theorem encodePacket_eq (B : Base64.Codec) (p : Packet) :
    encodePacket B p = p.packetType.toChar :: (encodePacket B p).tail := by
  rw [encodePacket, serializePacket, p.packetType.print_toU8]
  rfl

/-- A text frame gives back its packet only if that holds text which no digit begins. -/
theorem decodePacket_encodePacket_iff (B : Base64.Codec) (p : Packet) :
    decodePacket (encodePacket B p) = ok p ↔
      ∃ s, p.data = .text s ∧ starts Char.isDigit s = false := by
  constructor
  · intro h
    rcases decodePacket_cases (encodePacket B p) with ⟨es, rest, t, he, hr, hd⟩ | hd
    · rw [hd] at h
      cases h
      rw [encodePacket_eq] at he
      have hlen : es.length = 1 := by
        have h := congrArg List.length he
        simp [encodePacket, serializePacket, PacketType.print_toU8] at h
        omega
      exact ⟨rest, rfl, hr.stop⟩
    · rw [hd] at h
      cases h
  · intro hx
    obtain ⟨s, hdata, hs⟩ := hx
    obtain ⟨t, data⟩ := p
    cases hdata
    have hencode : encodePacket B ⟨t, .text s⟩ = [t.toChar] ++ s := by
      simp [encodePacket, serializePacket, PacketType.print_toU8]
    rw [hencode]
    exact decodePacket_run (typeRun hs) (value_toChar t)

end StringFormat

namespace BinaryFormat

theorem decodePacket_toU8 (t : PacketType) (d : Bytes) :
    decodePacket (t.toU8 :: d) = ok ⟨t, .binary d⟩ := by
  have h := binaryData_append t d []
  rw [List.append_nil] at h
  have hnone : parseBinaryDataPacket (t.toU8 :: d) none =
      parseBinaryDataPacket (t.toU8 :: d) (some d.length) := rfl
  rw [decodePacket, hnone, h]

theorem decodePacket_cases (input : Bytes) :
    (∃ t d, input = PacketType.toU8 t :: d ∧ decodePacket input = ok ⟨t, .binary d⟩) ∨
      decodePacket input = err ⟨"Unable to decode packet"⟩ := by
  cases input with
  | nil => exact .inr rfl
  | cons b d =>
    rcases PacketType.parseFromU8_cases b ([] : Bytes) with ⟨t, rfl, -⟩ | he
    · exact .inl ⟨t, d, rfl, decodePacket_toU8 t d⟩
    · apply Or.inr
      have htake : take d.length d = ok ([], d) := by simp [take]
      simp only [decodePacket, parseBinaryDataPacket, leU8, Outcome.ok_bind, Option.getD_none,
        htake, he, Outcome.err_bind]

/-- A binary frame gives back its packet only if that holds binary data. -/
theorem decodePacket_encodePacket_iff (p : Packet) :
    decodePacket (encodePacket p) = ok p ↔ ∃ d, p.data = .binary d := by
  constructor
  · intro h
    rcases decodePacket_cases (encodePacket p) with ⟨t, d, -, hd⟩ | hd
    · rw [hd] at h
      cases h
      exact ⟨d, rfl⟩
    · rw [hd] at h
      cases h
  · intro hx
    obtain ⟨d, hdata⟩ := hx
    obtain ⟨t, data⟩ := p
    cases hdata
    exact decodePacket_toU8 t d

end BinaryFormat

end SocketIoRust.EngineIoParser
