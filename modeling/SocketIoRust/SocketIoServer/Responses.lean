import SocketIoRust.EngineIoWarp.Wires
import SocketIoRust.SocketIoServer.ClientConnect
import SocketIoRust.SocketIoServer.Sessions

namespace SocketIoRust.SocketIoServer

open Library Library.Nom SocketIoParser DefaultEncoder DefaultDecoder Sessions
open EngineIoServer (RequestContext)
open EngineIoParser (StringFormat.decodePayload StringFormat.encodePayload
  BinaryFormat.decodePayload BinaryFormat.encodePayload BinaryFormat.binary_of_decodePayload)
open EngineIoWarp
open EngineIoWarp.Websocket (sendPackets subscribeToWebsocketMessages)
open Library.Outcome (ok err)

section Wires

variable {J : Json.Codec} {B : Base64.Codec} {o : Overflow}

theorem starts_encodePacket (packet : Packet) :
    starts Char.isDigit (encodePacket J packet).packet = true := by
  rw [encodePacket, packet.packetType.print_toU8]
  exact packet.packetType.isDigit_toChar

/-- What an encoded packet becomes on its way: its text, which a digit begins, is never
read, and of its attachments no more than what a websocket takes. -/
theorem intoEnginePackets_lost (ε : Type) (J : Json.Codec) (B : Base64.Codec) (o : Overflow)
    (packet : Packet) :
    let encoded := encodePacket J packet
    let packets := encoded.intoEnginePackets
    subscribeToWebsocketMessages ((sendPackets B packets ⟨true⟩).map (Except.ok (ε := ε))) =
        (encoded.attachments.map fun attachment ↦ .packet ⟨.message, .binary attachment⟩) ++
          [.close] ∧
      subscribeToWebsocketMessages ((sendPackets B packets ⟨false⟩).map (Except.ok (ε := ε))) =
        (((encoded.attachments.map B.encode).filter fun text ↦ !starts Char.isDigit text).map
          fun text ↦ .packet ⟨.message, .text text⟩) ++ [.close] ∧
      (∀ ps, StringFormat.decodePayload B o
        (StringFormat.encodePayload B packets) = ok ps → ps = []) ∧
      ∀ ps, BinaryFormat.decodePayload o
          (BinaryFormat.encodePayload packets) = ok ps →
        (∀ p ∈ ps, ∃ d, p.data = .binary d) ∧
          (encoded.attachments = [] → (Utf8.asBytes encoded.packet).length + 1 < u32Size →
            ps = []) := by
  intro encoded packets
  have hdigit : starts Char.isDigit encoded.packet = true := starts_encodePacket packet
  refine ⟨Wires.subscribe_headed_binary encoded.packet encoded.attachments,
    Wires.subscribe_headed_text hdigit encoded.attachments, ?_, ?_⟩
  · intro ps hps
    exact Wires.decodePayload_headed_text hdigit encoded.attachments hps
  · intro ps hps
    refine ⟨BinaryFormat.binary_of_decodePayload hps, ?_⟩
    intro hnone hlen
    have hpackets : packets = Wires.headed encoded.packet [] := by
      simp only [packets, EncodedPacket.intoEnginePackets, hnone]
      rfl
    rw [hpackets] at hps
    exact Wires.decodePayload_headed_binary hdigit hlen hps

end Wires

def Reaction.response (J : Json.Codec) : Reaction → Option (List EngineIoParser.Packet)
  | .respond connectPacket => some (encodePacket J connectPacket).intoEnginePackets
  | .handled _ => none

namespace Shared

section Responder

variable {D : Type} [Connection.Decoder D]
variable (decodeProtoPacket : Str → Outcome HandleEngineMessageError ProtoPacket)

/-- What the responder of a message gets in `handle_new_message`, if it gets anything. -/
def newMessageResponse (J : Json.Codec) (shared : Shared D) (message : Message) :
    Option (List EngineIoParser.Packet) :=
  match message.data with
  | .text text =>
    match decodeProtoPacket text with
    | ok (.plain packet) => (shared.handlePacketFromClient message packet).2.response J
    | _ => none
  | .binary buffer =>
    match IndexMap.get message.connectionId shared.connections with
    | some connection =>
      let (state, result) := Connection.decodeBinaryData connection.state buffer
      let shared := shared.setState connection message.connectionId state
      match result with
      | ok (.done packet) => (shared.handlePacketFromClient message packet).2.response J
      | _ => none
    | none => none
  | .empty => none

end Responder

variable {J : Json.Codec} {o : Overflow} {shared : Shared DefaultDecoder}

theorem response_of_ne (message : Message) {packet : Packet} (h : packet.packetType ≠ .connect) :
    (shared.handlePacketFromClient message packet).2.response J = none := by
  rw [handlePacketFromClient]
  split
  · rename_i hconnect
    exact absurd hconnect h
  · split <;> rfl

theorem response_of_connect (message : Message) {packet : Packet}
    (h : packet.packetType = .connect) :
    (shared.handlePacketFromClient message packet).2.response J =
      some (encodePacket J (shared.handleClientConnect message.context packet.nsp
        message.connectionId packet.data message.environment).2).intoEnginePackets := by
  rw [handlePacketFromClient, h]
  rfl

/-- The texts of the answers: the object that they are to hold is an array. -/
theorem encodePacket_single {t : PacketType} (ht : t = .connect ∨ t = .connectError) (nsp : Str)
    (key value : Str) :
    encodePacket J ⟨t, none, nsp, .object [(key, .string value)]⟩ =
      ⟨t.toChar :: (nspText nsp ++ J.toString (.array [.string value])), []⟩ := by
  have hplain : BinaryPacketType.tryFrom t = none := by
    rcases ht with rfl | rfl <;> rfl
  have hpacket := encodePacket_plain (J := J)
    (p := ⟨t, none, nsp, .object [(key, .string value)]⟩) hplain
  have hattachments : (encodePacket J ⟨t, none, nsp, .object [(key, .string value)]⟩).attachments =
      [] := rfl
  generalize encodePacket J ⟨t, none, nsp, .object [(key, .string value)]⟩ = encoded at *
  obtain ⟨text, attachments⟩ := encoded
  rw [EncodedPacket.mk.injEq]
  exact ⟨hpacket, hattachments⟩

/-- That array is not what a client may get. -/
theorem decodeProtoPacket_single (hJ : J.Lawful) {t : PacketType}
    (ht : t = .connect ∨ t = .connectError) {nsp : Str} (hnsp : IsNamespace nsp) (value : Str) :
    decodeProtoPacket J o (t.toChar :: (nspText nsp ++ J.toString (.array [.string value]))) =
      err .packetParseError := by
  have hplain : BinaryPacketType.tryFrom t = none := by
    rcases ht with rfl | rfl <;> rfl
  have hstart : PlainStart (J.toString (.array [.string value])) := by
    obtain ⟨rest, hrest⟩ := hJ.array_text [.string value]
    rw [hrest]
    rfl
  have hpayload : (J.fromStr (J.toString (.array [.string value]))).getD .null =
      .array [.string value] := by
    rw [hJ.fromStr_toString, Option.getD_some]
    exact .array (List.forall_mem_singleton.mpr (.string value))
  have hinvalid : isPayloadValid t (.array [.string value]) = false := by
    rcases ht with rfl | rfl <;> rfl
  have hparse := parseProtoPacket_of_no_id (o := o) hplain hnsp.1 hnsp.2 hstart hpayload
  rw [hinvalid, if_neg Bool.false_ne_true] at hparse
  rw [decodeProtoPacket, hparse]

theorem newMessageResponse_eq (h : NoDecoder shared) (message : Message) :
    shared.newMessageResponse (decodeProtoPacket J o) J message =
      (shared.completedPacket (decodeProtoPacket J o) message).bind fun packet ↦
        (shared.handlePacketFromClient message packet).2.response J := by
  rw [newMessageResponse, completedPacket]
  cases message.data with
  | empty => rfl
  | text text =>
    dsimp only
    cases decodeProtoPacket J o text with
    | ok packet => cases packet <;> rfl
    | err e => rfl
    | panic => rfl
  | binary buffer =>
    dsimp only
    cases hget : IndexMap.get message.connectionId shared.connections with
    | none => rfl
    | some connection =>
      dsimp only
      rw [decodeBinaryData_of_none (h.decoder_eq_none hget)]
      rfl

theorem completedPacket_isNamespace (h : NoDecoder shared) {message : Message} {packet : Packet}
    (hpacket : shared.completedPacket (decodeProtoPacket J o) message = some packet) :
    IsNamespace packet.nsp := by
  rw [completedPacket_eq] at hpacket
  obtain ⟨d, hd, rfl⟩ := Option.map_eq_some_iff.mp hpacket
  have hhandles := handleNewMessage_handles (decodeProtoPacket J o) shared message
  have hnone := (handleNewMessage_noDecoder (J := J) (o := o) h message).2 d hd
  generalize shared.handleNewMessage _ message = result at hhandles hd
  cases hhandles with
  | @decoded text packet hdecode =>
    cases hd
    obtain ⟨rest, hparse⟩ := decodeProtoPacket_eq_ok.mp hdecode
    exact (parseProtoPacket_shape hparse).nsp
  | reassembled hget hdone =>
    cases hd
    obtain ⟨p, hp, -⟩ := hnone
    cases hp
  | _ => cases hd

theorem reached_noDecoder (J : Json.Codec) (o : Overflow) (operations : List Operation) :
    NoDecoder (reached DefaultDecoder (decodeProtoPacket J o) operations) := by
  rw [reached, ← operations_run]
  exact ((Sessions.operations (decodeProtoPacket J o)).run_invariant (I := NoDecoder)
    (P := fun _ ↦ True) (fun _ operation h ↦ ⟨(perform_noDecoder h operation).1, trivial⟩)
    noDecoder_new operations).1

/-- A client that is let in is told the id of its socket, and another that it is not. -/
theorem handleClientConnect_reply (operations : List Operation) (context : RequestContext)
    {name : Str} (hslash : ∃ rest, name = '/' :: rest) (e : Str) (auth : PacketDataValue)
    (environment : Environment) :
    let shared := reached DefaultDecoder (decodeProtoPacket J o) operations
    (shared.Admits name auth →
      (shared.handleClientConnect context name e auth environment).2 =
        ⟨.connect, none, name, .object [("sid".toList, .string environment.generatedId)]⟩) ∧
    (¬ shared.Admits name auth →
      (shared.handleClientConnect context name e auth environment).2 =
        ⟨.connectError, none, name,
          .object [("message".toList, .string "Invalid namespace".toList)]⟩) := by
  intro shared
  obtain ⟨directory, h⟩ := reached_represents DefaultDecoder (decodeProtoPacket J o) operations
  constructor
  · intro hadmits
    obtain ⟨directory', entry, hfound, -, hentry⟩ := h.lookFor hadmits
    have hunrecorded : Unrecorded shared := unrecorded_run (decodeProtoPacket J o) operations
    have hrecords := (hunrecorded.of_connections
      (lookFor_connections shared name auth)).connectionOf e
    rw [hfound.handleClientConnect_eq hentry hadmits context e environment]
    dsimp only
    rw [addConnection_eq hrecords, normalized_of_slash hslash]
  · intro hadmits
    rw [handleClientConnect_of_not_admits hadmits]

/-- Whatever has happened to a server, it answers the connect requests and nothing else,
and no client can read an answer: what is to be an object is written as an array. -/
theorem newMessageResponse_exact (hJ : J.Lawful) (o : Overflow) (operations : List Operation)
    (message : Message) :
    let decode := decodeProtoPacket J o
    let shared := reached DefaultDecoder decode operations
    (shared.connectRequest decode message = none →
      shared.newMessageResponse decode J message = none) ∧
    ∀ packet, shared.connectRequest decode message = some packet → ∃ text,
      shared.newMessageResponse decode J message = some [⟨.message, .text text⟩] ∧
      (shared.Admits packet.nsp packet.data → text = '0' :: (nspText packet.nsp ++
        J.toString (.array [.string message.environment.generatedId]))) ∧
      (¬ shared.Admits packet.nsp packet.data → text = '4' :: (nspText packet.nsp ++
        J.toString (.array [.string "Invalid namespace".toList]))) ∧
      decode text = err .packetParseError := by
  intro decode shared
  have hnone : NoDecoder shared := reached_noDecoder J o operations
  rw [newMessageResponse_eq hnone]
  constructor
  · intro h
    cases hpacket : shared.completedPacket decode message with
    | none => rfl
    | some packet =>
      rw [connectRequest, hpacket, Option.filter_eq_none_iff] at h
      exact response_of_ne message (by simpa using h packet rfl)
  · intro packet h
    rw [connectRequest, Option.filter_eq_some_iff, decide_eq_true_eq] at h
    obtain ⟨hpacket, hconnect⟩ := h
    have hnsp := completedPacket_isNamespace hnone hpacket
    obtain ⟨hin, hout⟩ := handleClientConnect_reply (J := J) (o := o) operations message.context
      hnsp.1 message.connectionId packet.data message.environment
    rw [hpacket, Option.bind_some, response_of_connect message hconnect]
    by_cases hadmits : shared.Admits packet.nsp packet.data
    · rw [hin hadmits, encodePacket_single (.inl rfl)]
      exact ⟨_, rfl, fun _ ↦ rfl, fun hnot ↦ absurd hadmits hnot,
        decodeProtoPacket_single hJ (.inl rfl) hnsp _⟩
    · rw [hout hadmits, encodePacket_single (.inr rfl)]
      exact ⟨_, rfl, fun hyes ↦ absurd hyes hadmits, fun _ ↦ rfl,
        decodeProtoPacket_single hJ (.inr rfl) hnsp _⟩

/-- The request of a client for the root namespace. -/
theorem newMessageResponse_exact_root :
    let decode := decodeProtoPacket Json.standard .checked
    let shared := reached DefaultDecoder decode [.getNamespace ['/']]
    ∃ text, shared.newMessageResponse decode Json.standard
        (HandlerOrder.messageOf (.text "0{}".toList)) = some [⟨.message, .text text⟩] ∧
      decode text = err .packetParseError := by
  intro decode shared
  obtain ⟨text, hresponse, -, -, hdecode⟩ :=
    (newMessageResponse_exact Json.standard_lawful .checked [.getNamespace ['/']]
      (HandlerOrder.messageOf (.text "0{}".toList))).2 ⟨.connect, none, ['/'], .object []⟩ rfl
  exact ⟨text, hresponse, hdecode⟩

end Shared

end SocketIoRust.SocketIoServer
