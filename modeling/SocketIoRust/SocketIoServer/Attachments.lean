import SocketIoRust.SocketIoParser.MultipartPacket
import SocketIoRust.SocketIoServer.FilteredNamespace

namespace SocketIoRust.SocketIoServer

open Library SocketIoParser SocketIoParser.DefaultEncoder SocketIoParser.PacketDataValue

variable {J : Json.Codec}

theorem attachments_eq_binaryLeaves (J : Json.Codec) (p : Packet) :
    (encodePacket J p).attachments = binaryLeaves p.data :=
  deconstruct_attachments p.data []

variable (J) in
/-- If there are attachments, the text begins with the digit of a binary type, their
number and a minus. -/
def AttachmentsAnnounced (p : Packet) : Prop :=
  0 < (encodePacket J p).attachments.length →
    ∃ t : PacketType, (t = .binaryEvent ∨ t = .binaryAck) ∧
      t.toChar :: (Decimal.print (encodePacket J p).attachments.length ++ ['-']) <+:
        (encodePacket J p).packet

theorem toChar_injective : Function.Injective PacketType.toChar := by
  intro t u h
  cases t <;> cases u <;> first | rfl | exact absurd h (by decide)

/-- Every text begins with the digit of the packet's own type. -/
theorem packetType_of_isPrefix {p : Packet} {t : PacketType} {s : Str}
    (h : t.toChar :: s <+: (encodePacket J p).packet) : t = p.packetType := by
  obtain ⟨rest, h⟩ := h
  rw [encodePacket, p.packetType.print_toU8, List.cons_append] at h
  dsimp only at h
  rw [List.append_assoc, List.append_assoc, List.append_assoc, List.singleton_append] at h
  exact toChar_injective (List.cons.inj h).1

/-- The announcement goes by the type alone, the attachments by the data alone. -/
theorem attachmentsAnnounced_iff (J : Json.Codec) (p : Packet) :
    AttachmentsAnnounced J p ↔
      (p.packetType = .binaryEvent ∨ p.packetType = .binaryAck) ∨ binaryLeaves p.data = [] := by
  rw [AttachmentsAnnounced, attachments_eq_binaryLeaves]
  constructor
  · intro h
    by_cases hleaves : binaryLeaves p.data = []
    · exact .inr hleaves
    · obtain ⟨t, ht, hprefix⟩ := h (List.length_pos_of_ne_nil hleaves)
      rw [packetType_of_isPrefix hprefix] at ht
      exact .inl ht
  · rintro (htype | hleaves) hpos
    · obtain ⟨rest, htext⟩ := encodePacket_binary J htype
      rw [attachments_eq_binaryLeaves] at htext
      refine ⟨p.packetType, htype, rest, ?_⟩
      rw [htext]
      simp
    · rw [hleaves] at hpos
      cases hpos

/-- Every emission is an event, whatever its data holds. -/
theorem attachmentsAnnounced_makePacketForEvent_iff (eventName : Str) (data : PacketDataValue)
    (namespaceName : Str) :
    AttachmentsAnnounced J (makePacketForEvent eventName data namespaceName) ↔
      binaryLeaves data = [] := by
  rw [attachmentsAnnounced_iff]
  simp [makePacketForEvent, binaryLeaves, leavesOfElements]

theorem not_attachmentsAnnounced_hi :
    (encodePacket Json.standard (makePacketForEvent ['h', 'i'] (.binary [1]) ['/'])).packet =
        "2[\"hi\",\x7b\"_placeholder\":true,\"num\":0\x7d]".toList ∧
      (encodePacket Json.standard (makePacketForEvent ['h', 'i'] (.binary [1]) ['/'])).attachments =
        [[1]] ∧
      ¬ ∀ p, AttachmentsAnnounced Json.standard p := by
  refine ⟨rfl, rfl, ?_⟩
  intro h
  obtain ⟨t, ht, hprefix⟩ := h (makePacketForEvent ['h', 'i'] (.binary [1]) ['/']) (by decide)
  rw [packetType_of_isPrefix hprefix] at ht
  exact absurd ht (by decide)

end SocketIoRust.SocketIoServer
