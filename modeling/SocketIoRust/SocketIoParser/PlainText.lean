import SocketIoRust.SocketIoParser.PlainPacket

namespace SocketIoRust.SocketIoParser

open Library Library.Nom PacketDataValue DefaultDecoder
open Library.Outcome (ok err)

variable {J : Json.Codec}

theorem toString_plainStart (hJ : J.Lawful) (hnull : J.toString .null = "null".toList)
    {t : PacketType} {j : JsonValue} (hj : isPayloadValid t j = true) :
    PlainStart (J.toString j) := by
  cases j with
  | null =>
    rw [hnull]
    rfl
  | string s =>
    obtain ⟨r, hr⟩ := hJ.string_text s
    rw [hr]
    rfl
  | array values =>
    obtain ⟨r, hr⟩ := hJ.array_text values
    rw [hr]
    rfl
  | object entries =>
    obtain ⟨r, hr⟩ := hJ.object_text entries
    rw [hr]
    rfl
  | bool b => cases t <;> cases hj
  | number n => cases t <;> cases hj

/-- A client's text of a packet without an id and without attachments is read as that
packet, with `null` or nothing at all as the payload of a disconnect. -/
theorem decodeProtoPacket_plainText (hJ : J.Lawful) (hnull : J.toString .null = "null".toList)
    (o : Overflow) (t : PacketType) (ht : t ≠ .binaryEvent ∧ t ≠ .binaryAck) (nsp : Str)
    (hslash : ∃ n, nsp = '/' :: n) (hcomma : ',' ∉ nsp) :
    (∀ j : JsonValue, j.WellFormed → isPayloadValid t j = true →
      decodeProtoPacket J o (t.toChar :: (nspText nsp ++ J.toString j)) =
        ok (.plain ⟨t, none, nsp, ofJson j⟩)) ∧
    (t = .disconnect →
      decodeProtoPacket J o (t.toChar :: nspText nsp) = ok (.plain ⟨t, none, nsp, .null⟩)) := by
  have hplain : BinaryPacketType.tryFrom t = none := by
    cases t with
    | binaryEvent => exact absurd rfl ht.1
    | binaryAck => exact absurd rfl ht.2
    | _ => rfl
  constructor
  · intro j hj hvalid
    have hpayload : (J.fromStr (J.toString j)).getD .null = j := by
      rw [hJ.fromStr_toString j hj, Option.getD_some]
    rw [decodeProtoPacket_eq_ok, parseProtoPacket_of_no_id hplain hslash hcomma
      (toString_plainStart hJ hnull hvalid) hpayload, if_pos hvalid]
    exact ⟨_, rfl⟩
  · intro hdisconnect
    subst hdisconnect
    have hpayload : (J.fromStr []).getD .null = .null := by rw [hJ.fromStr_nil, Option.getD_none]
    have hparse := parseProtoPacket_of_no_id (o := o) hplain hslash hcomma (by rfl) hpayload
    rw [List.append_nil] at hparse
    rw [decodeProtoPacket_eq_ok, hparse]
    exact ⟨_, rfl⟩

theorem decodeProtoPacket_plainText_disconnect :
    (∀ j : JsonValue, j.WellFormed → isPayloadValid .disconnect j = true →
      decodeProtoPacket Json.standard .checked
          (PacketType.disconnect.toChar :: (nspText ['/', 'a'] ++ Json.standard.toString j)) =
        ok (.plain ⟨.disconnect, none, ['/', 'a'], ofJson j⟩)) ∧
    (PacketType.disconnect = .disconnect →
      decodeProtoPacket Json.standard .checked
          (PacketType.disconnect.toChar :: nspText ['/', 'a']) =
        ok (.plain ⟨.disconnect, none, ['/', 'a'], .null⟩)) :=
  decodeProtoPacket_plainText Json.standard_lawful rfl .checked .disconnect (by decide) ['/', 'a']
    ⟨['a'], rfl⟩ (by decide)

end SocketIoRust.SocketIoParser
