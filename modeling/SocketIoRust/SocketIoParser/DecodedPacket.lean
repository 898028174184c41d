import SocketIoRust.SocketIoParser.PacketData

namespace SocketIoRust.SocketIoParser

open Library Library.Nom
open Library.Outcome (ok err bind_ne_panic map_ne_panic mapErr_ne_panic)

/-- A namespace as the decoder reads it. -/
def IsNamespace (nsp : Str) : Prop := (∃ name, nsp = '/' :: name) ∧ ',' ∉ nsp

/-- What the users of a packet can rely on. -/
structure WellFormed (packet : Packet) : Prop where
  nsp : IsNamespace packet.nsp
  data : PacketDataValue.validShape packet.packetType packet.data = true

/-- What `parse_proto_packet` has checked of a header. -/
structure Announces (header : MultipartPacketHeader) : Prop where
  nsp : ∀ nsp, header.nsp = some nsp → IsNamespace nsp
  data : isPayloadValid header.packetType.toPacketType header.data = true
  attachments : 0 < header.attachmentsCount

def Shaped : ProtoPacket → Prop
  | .plain packet => WellFormed packet
  | .multipart header => Announces header

variable {J : Json.Codec} {o : Overflow}

theorem parseNamespace_isNamespace {input rest nsp : Str}
    (h : parseNamespace input = ok (rest, nsp)) : IsNamespace nsp := by
  have hroot : IsNamespace ['/'] := ⟨⟨[], rfl⟩, by decide⟩
  rw [parseNamespace] at h
  cases input with
  | nil =>
    cases h
    exact hroot
  | cons c input =>
    by_cases hc : c = '/'
    swap
    · simp only [char, hc, if_false] at h
      cases h
      exact hroot
    subst hc
    simp only [char, if_true] at h
    obtain ⟨⟨r, n⟩, htill, htake⟩ := Outcome.bind_eq_ok.mp h
    obtain ⟨x, -, hok⟩ := Outcome.bind_eq_ok.mp htake
    cases hok
    rw [takeTill1, takeWhile1] at htill
    have hfirst : ('/' :: input).takeWhile (fun a ↦ !(a == ',')) =
        '/' :: input.takeWhile (fun a ↦ !(a == ',')) := List.takeWhile_cons_of_pos (by rfl)
    rw [hfirst] at htill
    cases htill
    refine ⟨⟨_, rfl⟩, ?_⟩
    intro hmem
    rw [← hfirst] at hmem
    exact absurd (List.mem_takeWhile_imp hmem) (by decide)

theorem parseJsonData_valid {input rest : Str} {t : PacketType} {payload : JsonValue}
    (h : parseJsonData J input t = ok (rest, payload)) : isPayloadValid t payload = true := by
  simp only [parseJsonData] at h
  split at h
  · cases h
    assumption
  · cases h

theorem tryFrom_toPacketType {t : PacketType} {b : BinaryPacketType}
    (h : BinaryPacketType.tryFrom t = some b) : b.toPacketType = t := by
  cases t <;> cases h <;> rfl

/-- Attachments are counted for the binary types only, so that the conversion that
`parse_proto_packet` unwraps cannot fail. -/
theorem tryFrom_of_counted {t : PacketType} {input rest : Str} {count : UInt32}
    (h : (match BinaryPacketType.tryFrom t with
      | some _ => parseAttachmentsCount o input
      | none => ok (input, 0)) = ok (rest, count)) (hpos : 0 < count) :
    ∃ b, BinaryPacketType.tryFrom t = some b := by
  cases hb : BinaryPacketType.tryFrom t with
  | some b => exact ⟨b, rfl⟩
  | none =>
    rw [hb] at h
    cases h
    exact absurd hpos (by decide)

theorem parseProtoPacket_shape {input rest : Str} {packet : ProtoPacket}
    (h : parseProtoPacket J o input = ok (rest, packet)) : Shaped packet := by
  rw [parseProtoPacket] at h
  obtain ⟨⟨i, v⟩, -, h⟩ := Outcome.bind_eq_ok.mp h
  obtain ⟨t, -, h⟩ := Outcome.bind_eq_ok.mp h
  obtain ⟨⟨i, count⟩, hcount, h⟩ := Outcome.bind_eq_ok.mp h
  obtain ⟨⟨i, nsp⟩, hnsp, h⟩ := Outcome.bind_eq_ok.mp h
  obtain ⟨⟨i, id⟩, -, h⟩ := Outcome.bind_eq_ok.mp h
  obtain ⟨⟨i, payload⟩, hpayload, h⟩ := Outcome.bind_eq_ok.mp h
  have hvalid := parseJsonData_valid hpayload
  have hname := parseNamespace_isNamespace hnsp
  dsimp only at h hvalid hname
  by_cases hpos : 0 < count
  · obtain ⟨b, hb⟩ := tryFrom_of_counted hcount hpos
    rw [if_pos hpos, hb] at h
    cases h
    refine ⟨?_, ?_, hpos⟩
    · intro nsp he
      cases he
      exact hname
    · rwa [tryFrom_toPacketType hb]
  · rw [if_neg hpos] at h
    cases h
    refine ⟨hname, ?_⟩
    rwa [← PacketDataValue.isPayloadValid_eq]

theorem digitsToU32From_ne_panic (n order acc : ℕ) (digits : Str) :
    digitsToU32From .wrapping n order digits acc ≠ .panic := by
  induction digits generalizing order acc with
  | nil =>
    intro h
    cases h
  | cons ch digits ih =>
    rw [digitsToU32From]
    apply bind_ne_panic
    · split <;> simp
    intro digit _
    rcases subtract_cases (ε := Unit) .wrapping u32Size n (order % u32Size) with ⟨e, he⟩ | ⟨ho, -⟩
    swap
    · cases ho
    rw [he, Outcome.ok_bind, fit_wrapping, Outcome.ok_bind, fit_wrapping, Outcome.ok_bind,
      fit_wrapping, Outcome.ok_bind]
    exact ih _ _

theorem digitsToU32_ne_panic (digits : Str) : digitsToU32 .wrapping digits ≠ .panic :=
  map_ne_panic (digitsToU32From_ne_panic _ _ _ digits) _

theorem parseAttachmentsCount_ne_panic (input : Str) :
    parseAttachmentsCount .wrapping input ≠ .panic := by
  rw [parseAttachmentsCount]
  apply bind_ne_panic (takeWhile1_ne_panic _ _ _)
  intro x _
  apply bind_ne_panic (char_ne_panic _ _)
  intro y _
  apply bind_ne_panic (mapErr_ne_panic (digitsToU32_ne_panic _) _)
  intro count _
  simp

theorem parseId_ne_panic (input : Str) : parseId .wrapping input ≠ .panic := by
  rw [parseId]
  split
  · apply bind_ne_panic (char_ne_panic _ _)
    intro y _
    apply bind_ne_panic (mapErr_ne_panic (map_ne_panic (digitsToU32_ne_panic _) _) _)
    intro id _
    simp
  · simp
  · rename_i h
    exact absurd h (takeWhile1_ne_panic _ _ _)

theorem parseNamespace_ne_panic (input : Str) : parseNamespace input ≠ .panic := by
  rw [parseNamespace]
  split
  · apply bind_ne_panic (takeWhile1_ne_panic _ _ _)
    intro x _
    apply bind_ne_panic (take_ne_panic _ _)
    intro y _
    simp
  · simp
  · rename_i h
    exact absurd h (char_ne_panic _ _)

/-- Only the arithmetic of the numbers in a text could panic, and without overflow checks
nothing does. -/
theorem parseProtoPacket_ne_panic (input : Str) : parseProtoPacket J .wrapping input ≠ .panic := by
  rw [parseProtoPacket]
  apply bind_ne_panic (map_ne_panic (Decimal.number_ne_panic _ _) _)
  intro x _
  apply bind_ne_panic
  · rw [PacketType.parseFromU8]
    split <;> simp
  intro t _
  apply bind_ne_panic
  · split
    · exact parseAttachmentsCount_ne_panic x.1
    · simp
  intro y hcount
  apply bind_ne_panic (parseNamespace_ne_panic _)
  intro nsp _
  apply bind_ne_panic (parseId_ne_panic _)
  intro id _
  apply bind_ne_panic
  · simp only [parseJsonData]
    split <;> simp
  intro payload _
  dsimp only
  split
  · rename_i hpos
    obtain ⟨b, hb⟩ := tryFrom_of_counted hcount hpos
    rw [hb]
    simp
  · simp

end SocketIoRust.SocketIoParser
