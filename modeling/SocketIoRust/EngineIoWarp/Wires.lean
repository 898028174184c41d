import SocketIoRust.EngineIoParser.BinaryRoundTrip
import SocketIoRust.EngineIoWarp.Websocket

namespace SocketIoRust.EngineIoWarp.Wires

open Library Library.Nom Library.Framing EngineIoParser Websocket
open Library.Outcome (ok err)

/-- A text and the attachments that follow it. -/
def headed (text : Str) (attachments : List Bytes) : List Packet :=
  ⟨.message, .text text⟩ :: attachments.map fun attachment ↦ ⟨.message, .binary attachment⟩

variable {B : Base64.Codec} {o : Overflow} {text : Str}

/-- The digits of a text continue the digit of the packet type in front of it. -/
theorem exists_run (h : starts Char.isDigit text = true) :
    ∃ es rest, '4' :: text = es ++ rest ∧ MaximalRun Char.isDigit es rest ∧
      40 ≤ Decimal.value es := by
  rcases starts_or_run Char.isDigit text with hs | ⟨es, rest, rfl, hr⟩
  · rw [h] at hs
    cases hs
  refine ⟨'4' :: es, rest, rfl, ⟨List.cons_ne_nil _ _, ?_, hr.stop⟩, ?_⟩
  · exact List.forall_mem_cons.mpr ⟨rfl, hr.all⟩
  · have hlen : 1 ≤ es.length := List.length_pos_iff.mpr hr.ne_nil
    have hpow : 10 ^ 1 ≤ 10 ^ es.length := Nat.pow_le_pow_right (by decide) hlen
    have hdigit : '4'.toNat - 48 = 4 := rfl
    rw [Decimal.value_cons, hdigit]
    omega

theorem decodePacket_of_digit (h : starts Char.isDigit text = true) :
    StringFormat.decodePacket ('4' :: text) = err ⟨"Unable to decode packet"⟩ := by
  obtain ⟨es, rest, htext, hr, hvalue⟩ := exists_run h
  rw [htext, StringFormat.decodePacket, StringFormat.parseStringPacket]
  by_cases hv : Decimal.value es < 256
  · rw [StringFormat.takeU8_run hr hv, Outcome.ok_bind]
    rcases PacketType.exists_of_toNat_lt hv ([] : Str) with ⟨t, ht⟩ | he
    · have hlt := t.toU8_lt
      omega
    · simp only [Outcome.ok_bind, he, Outcome.err_bind]
  · rw [StringFormat.takeU8_overflow hr (Nat.not_lt.mp hv), Outcome.err_bind]

theorem decodePacket_of_not_digit (h : starts Char.isDigit text = false) :
    StringFormat.decodePacket ('4' :: text) = ok ⟨.message, .text text⟩ :=
  StringFormat.decodePacket_run (StringFormat.typeRun (t := .message) h)
    (StringFormat.value_toChar .message)

/-- Of the messages with text, those arrive that no digit begins. -/
theorem subscribe_texts {ε : Type} (texts : List Str) :
    subscribeToWebsocketMessages (texts.map fun text ↦ Except.ok (ε := ε) (.text ('4' :: text))) =
      ((texts.filter fun text ↦ !starts Char.isDigit text).map fun text ↦
        .packet ⟨.message, .text text⟩) ++ [.close] := by
  induction texts with
  | nil => rfl
  | cons text texts ih =>
    rw [List.map_cons]
    cases h : starts Char.isDigit text with
    | false =>
      rw [receives_cons (receives_text.mpr (decodePacket_of_not_digit h)), ih,
        List.filter_cons_of_pos (by rw [h]; rfl)]
      rfl
    | true =>
      simp only [subscribeToWebsocketMessages, encoded, decodePacket, decodePacket_of_digit h, ih]
      rw [List.filter_cons_of_neg (by rw [h]; decide)]

/-- Over a websocket for text the attachments become text themselves. -/
theorem subscribe_headed_text {ε : Type} (h : starts Char.isDigit text = true)
    (attachments : List Bytes) :
    subscribeToWebsocketMessages
        ((sendPackets B (headed text attachments) ⟨false⟩).map (Except.ok (ε := ε))) =
      (((attachments.map B.encode).filter fun text ↦ !starts Char.isDigit text).map fun text ↦
        .packet ⟨.message, .text text⟩) ++ [.close] := by
  have hsent : (sendPackets B (headed text attachments) ⟨false⟩).map (Except.ok (ε := ε)) =
      (text :: attachments.map B.encode).map fun text ↦ .ok (.text ('4' :: text)) := by
    have htext : StringFormat.encodePacket B ⟨.message, .text text⟩ = '4' :: text := by
      rw [StringFormat.encodePacket, StringFormat.serializePacket, PacketType.print_toU8]
      rfl
    have hbinary (attachment : Bytes) :
        StringFormat.encodePacket B ⟨.message, .binary attachment⟩ = '4' :: B.encode attachment := by
      rw [StringFormat.encodePacket, StringFormat.serializePacket, PacketType.print_toU8]
      rfl
    simp only [sendPackets, Bool.false_eq_true, if_false, headed, List.map_cons, List.map_map,
      Function.comp_def, htext, hbinary]
  rw [hsent, subscribe_texts, List.filter_cons_of_neg (by rw [h]; decide)]

/-- Over a websocket for binary data the text gets a type that is none. -/
theorem subscribe_headed_binary {ε : Type} (text : Str) (attachments : List Bytes) :
    subscribeToWebsocketMessages
        ((sendPackets B (headed text attachments) ⟨true⟩).map (Except.ok (ε := ε))) =
      (attachments.map fun attachment ↦ .packet ⟨.message, .binary attachment⟩) ++ [.close] := by
  have hsent : sendPackets B (headed text attachments) ⟨true⟩ =
      .binary (52 :: Utf8.asBytes text) ::
        sendPackets B (attachments.map fun attachment ↦ ⟨.message, .binary attachment⟩) ⟨true⟩ := by
    rw [sendPackets, sendPackets, if_pos rfl, if_pos rfl, headed, List.map_cons]
    rfl
  have hdecode : BinaryFormat.decodePacket (52 :: Utf8.asBytes text) =
      err ⟨"Unable to decode packet"⟩ := by
    rcases BinaryFormat.decodePacket_cases (52 :: Utf8.asBytes text) with ⟨t, d, he, -⟩ | hd
    · cases t <;> cases he
    · exact hd
  have hattachments := subscribe_sendPackets (ε := ε) B ⟨true⟩
    (attachments.map fun attachment ↦ (⟨.message, .binary attachment⟩ : Packet))
    (List.forall_mem_map.mpr fun attachment _ ↦ ⟨attachment, rfl⟩)
  rw [hsent, List.map_cons]
  simp only [subscribeToWebsocketMessages, encoded, decodePacket, hdecode]
  rw [hattachments, List.map_map]
  rfl

theorem starts_append (h : starts Char.isDigit text = true) (rest : Str) :
    starts Char.isDigit (text ++ rest) = true := by
  cases text with
  | nil => cases h
  | cons c text => exact h

/-- No packet is read of a string payload that such a text begins. -/
theorem decodePayload_headed_text (h : starts Char.isDigit text = true) (attachments : List Bytes)
    {ps : List Packet}
    (hd : StringFormat.decodePayload B o (StringFormat.encodePayload B (headed text attachments)) =
      ok ps) : ps = [] := by
  rw [StringFormat.decodePayload_eq] at hd
  obtain ⟨rest, hreads, -⟩ := reads_of_decodeAll (StringFormat.parse_consuming B o) hd
  rw [(StringFormat.parse_spec B o).yields_eq] at hreads
  generalize hinput : StringFormat.encodePayload B (headed text attachments) = input at hreads
  cases hreads with
  | nil => rfl
  | cons ha _ =>
    rw [headed, StringFormat.encodePayload_cons, StringFormat.inPayload_text] at hinput
    generalize StringFormat.encodePayload B _ = tail at hinput
    rw [List.append_assoc, List.cons_append, List.cons_append] at hinput
    obtain ⟨es, rest, htext, hr, hvalue⟩ := exists_run (starts_append h tail)
    have hlength : MaximalRun Char.isDigit (Decimal.print (text.length + 1))
        (':' :: '4' :: (text ++ tail)) := Decimal.print_run (text.length + 1) rfl
    cases ha with
    | @text ds es' s rest' t hds _ _ hes ht =>
      obtain ⟨-, hrest⟩ := hlength.unique hds hinput
      rw [htext] at hrest
      obtain ⟨rfl, -⟩ := hr.unique hes (List.cons.inj hrest).2
      have hlt := t.toU8_lt
      omega
    | base64 hds =>
      obtain ⟨-, hrest⟩ := hlength.unique hds hinput
      cases hrest

theorem exists_digit (h : starts Char.isDigit text = true) :
    ∃ b bytes, Utf8.asBytes text = b :: bytes ∧ isDecDigit b = true := by
  cases text with
  | nil => cases h
  | cons c text =>
    rw [starts_cons, Char.isDigit, Bool.and_eq_true, decide_eq_true_eq, decide_eq_true_eq] at h
    have hsize : c.utf8Size = 1 :=
      Char.utf8Size_eq_one_iff.mpr (UInt32.le_trans h.2 (by decide))
    refine ⟨c.val.toUInt8, Utf8.asBytes text, ?_, ?_⟩
    · rw [Utf8.asBytes, List.flatMap_cons, String.utf8EncodeChar_eq_singleton hsize]
      rfl
    · have hlow : 48 ≤ c.val.toNat := h.1
      have hhigh : c.val.toNat ≤ 57 := h.2
      have hbyte : c.val.toUInt8.toNat = c.val.toNat := by
        rw [UInt32.toNat_toUInt8]
        omega
      rw [isDecDigit, Bool.and_eq_true, decide_eq_true_eq, decide_eq_true_eq,
        UInt8.le_iff_toNat_le, UInt8.le_iff_toNat_le, hbyte]
      exact ⟨hlow, hhigh⟩

theorem lengthBytes_run (n : ℕ) (rest : Bytes) :
    MaximalRun BinaryFormat.isLengthByte (BinaryFormat.encodePacketLength n) (255 :: rest) := by
  refine ⟨BinaryFormat.encodePacketLength_ne_nil n, ?_, rfl⟩
  intro b hb
  have hlt := BinaryFormat.mem_encodePacketLength hb
  have hne : b ≠ 255 := by
    rintro rfl
    exact absurd hlt (by decide)
  simpa [BinaryFormat.isLengthByte] using hne

theorem announced_length {n m : ℕ} (hn : n + 1 < u32Size)
    (h : BinaryFormat.Announces o (BinaryFormat.encodePacketLength (n + 1)) m) : m = n := by
  obtain ⟨l, hl, hs⟩ := h
  rw [BinaryFormat.packetLengthLoop_of_fits (BinaryFormat.encodePacketLength_fits hn o),
    BinaryFormat.lengthValue_encodePacketLength] at hl
  cases hl
  rw [subtract_of_le (by omega)] at hs
  cases hs
  rfl

/-- No packet is read of a binary payload with nothing but such a text. -/
theorem decodePayload_headed_binary (h : starts Char.isDigit text = true)
    (hlen : (Utf8.asBytes text).length + 1 < u32Size) {ps : List Packet}
    (hd : BinaryFormat.decodePayload o (BinaryFormat.encodePayload (headed text [])) = ok ps) :
    ps = [] := by
  rw [BinaryFormat.decodePayload_eq] at hd
  obtain ⟨rest, hreads, -⟩ := reads_of_decodeAll (BinaryFormat.parse_consuming o) hd
  rw [(BinaryFormat.parse_spec o).yields_eq] at hreads
  generalize hinput : BinaryFormat.encodePayload (headed text []) = input at hreads
  cases hreads with
  | nil => rfl
  | cons ha _ =>
    obtain ⟨b, bytes, hbytes, hb⟩ := exists_digit h
    have hframe : BinaryFormat.encodePayload (headed text []) =
        0 :: (BinaryFormat.encodePacketLength ((Utf8.asBytes text).length + 1) ++
          255 :: 52 :: Utf8.asBytes text) := rfl
    have hlength := lengthBytes_run ((Utf8.asBytes text).length + 1) (52 :: Utf8.asBytes text)
    rw [hframe] at hinput
    cases ha with
    | @string ds es data rest t hds hn hes =>
      obtain ⟨rfl, hrest⟩ := hlength.unique hds (List.cons.inj hinput).2
      have htext := (List.cons.inj (List.cons.inj hrest).2).2
      have hdata : data.length = (Utf8.asBytes text).length :=
        announced_length hlen hn
      have hlen' := congrArg List.length htext
      rw [List.length_append, List.length_append] at hlen'
      obtain rfl : es = [] := List.eq_nil_of_length_eq_zero (by omega)
      have hstop := hes.stop
      rw [List.nil_append] at htext
      rw [← htext, hbytes, starts_cons, hb] at hstop
      cases hstop
    | binary => cases hinput

end SocketIoRust.EngineIoWarp.Wires
