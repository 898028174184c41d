import SocketIoRust.SocketIoServer.HandlerOrder
import SocketIoRust.SocketIoParser.DecodedPacket

namespace SocketIoRust.SocketIoServer.DeliveredPackets

open Library Library.Refinement SocketIoParser
open Library.Outcome (ok err)

/-- Attachments take the place of objects, never of the elements that the shape is about. -/
theorem reconstructPacketData_shape (t : BinaryPacketType) {data : JsonValue}
    (h : isPayloadValid t.toPacketType data = true) (attachments : DefaultDecoder.Attachments) :
    PacketDataValue.validShape t.toPacketType
      (DefaultDecoder.reconstructPacketData data attachments).1 = true := by
  cases t with
  | binaryAck =>
    cases data with
    | array values => rfl
    | _ => cases h
  | binaryEvent =>
    cases data with
    | array values =>
      cases values with
      | nil => cases h
      | cons value values =>
        cases value with
        | string s => rfl
        | _ => cases h
    | _ => cases h

theorem collectPacket_wellFormed {decoder : DefaultDecoder} (h : Announces decoder.header)
    {packet : Packet} (hp : decoder.collectPacket = some packet) : WellFormed packet := by
  rw [DefaultDecoder.collectPacket] at hp
  split at hp
  swap
  · cases hp
  cases hp
  refine ⟨?_, reconstructPacketData_shape _ h.data _⟩
  dsimp only
  cases hn : decoder.header.nsp with
  | none => exact ⟨⟨[], rfl⟩, by decide⟩
  | some nsp => exact h.nsp nsp hn

/-- A decoder keeps the header that it was made for. -/
theorem decodeBinaryData_header (decoder : DefaultDecoder) (buffer : Bytes) :
    (decoder.decodeBinaryData buffer).2.header = decoder.header := by
  rw [DefaultDecoder.decodeBinaryData]
  split <;> rfl

/-- The header of a pending packet is one that `parse_proto_packet` has checked. -/
def Checked (state : ConnectionState DefaultDecoder) : Prop :=
  ∀ decoder, state.decoder = some decoder → Announces decoder.header

theorem decodeBinaryData_checked {state : ConnectionState DefaultDecoder} (h : Checked state)
    (buffer : Bytes) :
    Checked (Connection.decodeBinaryData state buffer).1 ∧
      ∀ packet, (Connection.decodeBinaryData state buffer).2 = ok (.done packet) →
        WellFormed packet := by
  have hnone : Checked { state with decoder := none } := by
    intro decoder hd
    cases hd
  cases hs : state.decoder with
  | none =>
    simp only [Connection.decodeBinaryData, hs]
    refine ⟨h, ?_⟩
    intro packet hp
    cases hp
  | some decoder =>
    have hheader : Announces (decoder.decodeBinaryData buffer).2.header := by
      rw [decodeBinaryData_header]
      exact h decoder hs
    simp only [Connection.decodeBinaryData, hs, Connection.Decoder.decodeBinaryData,
      Connection.Decoder.collectPacket]
    cases hdecode : decoder.decodeBinaryData buffer with
    | mk result decoder' =>
      rw [hdecode] at hheader
      cases result with
      | error e =>
        refine ⟨hnone, ?_⟩
        intro packet hp
        cases hp
      | ok done =>
        dsimp only
        split
        · split
          · rename_i packet hcollect
            refine ⟨hnone, ?_⟩
            intro packet' hp
            cases hp
            exact collectPacket_wellFormed hheader hcollect
          · refine ⟨hnone, ?_⟩
            intro packet hp
            cases hp
        · constructor
          · intro d hd
            cases hd
            exact hheader
          · intro packet hp
            cases hp

/-- So it is for every connection of the server. -/
def AllChecked (shared : Shared DefaultDecoder) : Prop :=
  ∀ e decoder, shared.decoderOf e = some (some decoder) → Announces decoder.header

theorem AllChecked.checked {shared : Shared DefaultDecoder} (h : AllChecked shared) {e : Str}
    {connection : Connection DefaultDecoder}
    (hget : IndexMap.get e shared.connections = some connection) : Checked connection.state := by
  intro decoder hd
  exact h e decoder (Shared.decoderOf_eq_some.mpr ⟨connection, hget, hd⟩)

theorem AllChecked.keeps {shared shared' : Shared DefaultDecoder} (h : AllChecked shared)
    (hk : Shared.KeepsDecoders shared shared') : AllChecked shared' := by
  intro e decoder hd
  exact h e decoder (hk.some_some hd)

theorem AllChecked.setState {shared : Shared DefaultDecoder} (h : AllChecked shared)
    (connection : Connection DefaultDecoder) (e : Str) {state : ConnectionState DefaultDecoder}
    (hs : Checked state) : AllChecked (shared.setState connection e state) := by
  intro e' decoder hd
  rw [Shared.decoderOf_setState] at hd
  split at hd
  · exact hs decoder (Option.some.inj hd)
  · exact h e' decoder hd

variable {J : Json.Codec} {o : Overflow}

theorem decodeProtoPacket_shape {text : Str} {packet : ProtoPacket}
    (h : DefaultDecoder.decodeProtoPacket J o text = ok packet) : Shaped packet := by
  rw [DefaultDecoder.decodeProtoPacket] at h
  split at h
  · rename_i heq
    cases h
    exact parseProtoPacket_shape heq
  · cases h
  · cases h

theorem setDecoder_checked {state : ConnectionState DefaultDecoder} (h : Checked state)
    {header : MultipartPacketHeader} (ha : Announces header) :
    Checked (Connection.setDecoder state (Connection.Decoder.new header)).1 := by
  rw [Connection.setDecoder]
  split
  · intro decoder hd
    cases hd
    exact ha
  · exact h

/-- One message keeps what is known of the pending headers, and delivers a packet that is
as it should be. -/
theorem handleNewMessage_checked {shared : Shared DefaultDecoder} (message : Message)
    (h : AllChecked shared) :
    AllChecked
        (shared.handleNewMessage (DefaultDecoder.decodeProtoPacket J o) message).1 ∧
      ∀ delivery ∈ (shared.handleNewMessage (DefaultDecoder.decodeProtoPacket J o) message).2,
        WellFormed delivery.packet := by
  have hno : ∀ delivery ∈ (none : Option Delivery), WellFormed delivery.packet := by simp
  have hhandles :=
    Shared.handleNewMessage_handles (DefaultDecoder.decodeProtoPacket J o) shared message
  generalize shared.handleNewMessage (DefaultDecoder.decodeProtoPacket J o) message = result
    at hhandles ⊢
  cases hhandles with
  | ignored => exact ⟨h, hno⟩
  | failed error => exact ⟨h.keeps (.of_connections rfl), hno⟩
  | @announced text header connection state hdecode hget hstate =>
    have hset := setDecoder_checked (h.checked hget) (decodeProtoPacket_shape hdecode)
    rw [hstate] at hset
    exact ⟨h.setState connection _ hset, hno⟩
  | @decoded text packet hdecode =>
    refine ⟨h.keeps (Shared.handlePacketFromClient_keepsDecoders _ message packet), ?_⟩
    intro delivery hd
    cases hd
    exact decodeProtoPacket_shape hdecode
  | @collected connection buffer hget =>
    have hstate := (decodeBinaryData_checked (h.checked hget) buffer).1
    exact ⟨h.setState connection _ hstate, hno⟩
  | @reassembled connection buffer packet hget hdone =>
    obtain ⟨hstate, hpacket⟩ := decodeBinaryData_checked (h.checked hget) buffer
    refine ⟨(h.setState connection message.connectionId hstate).keeps
      (Shared.handlePacketFromClient_keepsDecoders _ message packet), ?_⟩
    intro delivery hd
    cases hd
    exact hpacket packet hdone

/-- Whatever frames a client sends, the packets that are handled have a namespace and data
of the shape of their type, and the conversion of a counted type never fails. -/
theorem deliveries_wellFormed (J : Json.Codec) (o : Overflow) (shared : Shared DefaultDecoder)
    (h : ∀ e decoder, shared.decoderOf e ≠ some (some decoder)) (arrived : List Message) :
    (∀ delivery ∈ shared.deliveries (DefaultDecoder.decodeProtoPacket J o) arrived,
      WellFormed delivery.packet) ∧
    (∀ text header, DefaultDecoder.decodeProtoPacket J o text = ok (.multipart header) →
      (header.packetType.toPacketType = .binaryEvent ∨
        header.packetType.toPacketType = .binaryAck) ∧ 0 < header.attachmentsCount) ∧
    (∀ t input rest count, (match BinaryPacketType.tryFrom t with
        | some _ => parseAttachmentsCount o input
        | none => ok (input, 0)) = ok (rest, count) → 0 < count →
      ∃ b, BinaryPacketType.tryFrom t = some b) ∧
    ∀ text, parseProtoPacket J .wrapping text ≠ .panic := by
  refine ⟨?_, ?_, fun t input rest count ↦ tryFrom_of_counted, parseProtoPacket_ne_panic⟩
  · have hstart : AllChecked shared := by
      intro e decoder hd
      exact absurd hd (h e decoder)
    intro delivery hd
    obtain ⟨-, hall⟩ := (Shared.messages (DefaultDecoder.decodeProtoPacket J o)).run_invariant
      (I := AllChecked) (P := fun answer ↦ ∀ delivery ∈ answer, WellFormed delivery.packet)
      (fun s message hs ↦ handleNewMessage_checked message hs) hstart arrived
    rw [Shared.deliveries, List.reduceOption_mem_iff] at hd
    exact hall _ hd delivery rfl
  · intro text header hdecode
    have hshape : Announces header := decodeProtoPacket_shape hdecode
    refine ⟨?_, hshape.attachments⟩
    cases header.packetType with
    | binaryEvent => exact .inl rfl
    | binaryAck => exact .inr rfl

/-- Text and binary frames of the connection `e`, two of them events. -/
def framesOfEvents : List Message :=
  [HandlerOrder.messageOf (.text "2[\"a\"]".toList), HandlerOrder.messageOf (.binary [1]),
    HandlerOrder.messageOf (.text "51-[\"b\"]".toList), HandlerOrder.messageOf (.binary [2]),
    HandlerOrder.messageOf (.text "2[\"c\"]".toList)]

theorem deliveries_wellFormed_events :
    (HandlerOrder.connected.deliveries
        (DefaultDecoder.decodeProtoPacket Json.standard .checked) framesOfEvents).length = 2 ∧
    (∀ delivery ∈ HandlerOrder.connected.deliveries
        (DefaultDecoder.decodeProtoPacket Json.standard .checked) framesOfEvents,
      WellFormed delivery.packet) ∧
    (∀ text header, DefaultDecoder.decodeProtoPacket Json.standard .checked text =
        ok (.multipart header) →
      (header.packetType.toPacketType = .binaryEvent ∨
        header.packetType.toPacketType = .binaryAck) ∧ 0 < header.attachmentsCount) ∧
    (∀ t input rest count, (match BinaryPacketType.tryFrom t with
        | some _ => parseAttachmentsCount .checked input
        | none => ok (input, 0)) = ok (rest, count) → 0 < count →
      ∃ b, BinaryPacketType.tryFrom t = some b) ∧
    ∀ text, parseProtoPacket Json.standard .wrapping text ≠ .panic :=
  ⟨by decide +kernel, deliveries_wellFormed Json.standard .checked HandlerOrder.connected (by
    intro e decoder h
    simp only [HandlerOrder.connected, HandlerOrder.serverWith, Shared.decoderOf, IndexMap.get,
      Option.map_none] at h
    split at h
    · cases h
    · cases h) framesOfEvents⟩

end SocketIoRust.SocketIoServer.DeliveredPackets
