import SocketIoRust.SocketIoServer.Shared
import SocketIoRust.SocketIoParser.PacketData
import Mathlib.Data.List.ReduceOption

namespace SocketIoRust.SocketIoServer

open Library Library.Refinement SocketIoParser
open Library.Outcome (ok err)
open EngineIoServer (RequestContext)

/-- A packet that reaches `handle_packet_from_client`, by the place it comes from. -/
inductive Delivery where
  | decoded : Packet → Delivery
  | reassembled : Packet → Delivery

def Delivery.packet : Delivery → Packet
  | decoded packet => packet
  | reassembled packet => packet

/-- An `EngineEvent::Message`, with the surroundings in which it is handled. -/
structure Message where
  context : RequestContext
  connectionId : Str
  data : EngineIoParser.PacketData
  environment : Environment

/-- What comes of a packet: an answer to the client, or a socket that is handed it. -/
inductive Reaction where
  | respond : Packet → Reaction
  | handled : Option Socket → Reaction

namespace Shared

variable {D : Type}

def emit (shared : Shared D) (message : String) : Shared D :=
  { shared with events := shared.events ++ [.error message.toList] }

def setState (shared : Shared D) (connection : Connection D) (engineConnectionId : Str)
    (state : ConnectionState D) : Shared D :=
  { shared with
    connections := IndexMap.insert engineConnectionId { connection with state := state }
      shared.connections }

def handlePacketFromClient (shared : Shared D) (message : Message) (packet : Packet) :
    Shared D × Reaction :=
  match packet.packetType with
  | .connect =>
    let (shared, connectPacket) := shared.handleClientConnect message.context packet.nsp
      message.connectionId packet.data message.environment
    (shared, .respond connectPacket)
  | _ =>
    match IndexMap.get message.connectionId shared.connections with
    | some connection => (shared, .handled (Connection.handlePacket connection.state packet))
    | none => (shared, .handled none)

variable [Connection.Decoder D]
variable (decodeProtoPacket : Str → Outcome HandleEngineMessageError ProtoPacket)

/-- `handle_new_message` with the text decoder of a parser, and the packet that it passes
to `handle_packet_from_client`. -/
def handleNewMessage (shared : Shared D) (message : Message) : Shared D × Option Delivery :=
  match message.data with
  | .text text =>
    match decodeProtoPacket text with
    | err _ => (shared.emit "Bad packet", none)
    | .panic => (shared, none)
    | ok (.multipart header) =>
      if header.hasAttachments then
        match IndexMap.get message.connectionId shared.connections with
        | some connection =>
          match Connection.setDecoder connection.state (Connection.Decoder.new header) with
          | (state, ok ()) => (shared.setState connection message.connectionId state, none)
          | (_, err _) => (shared.emit "sequence error", none)
          | (_, .panic) => (shared, none)
        | none => (shared, none)
      else (shared, none)
    | ok (.plain packet) => ((shared.handlePacketFromClient message packet).1, some (.decoded packet))
  | .binary buffer =>
    match IndexMap.get message.connectionId shared.connections with
    | some connection =>
      let (state, result) := Connection.decodeBinaryData connection.state buffer
      let shared := shared.setState connection message.connectionId state
      match result with
      | ok (.done packet) =>
        ((shared.handlePacketFromClient message packet).1, some (.reassembled packet))
      | _ => (shared, none)
    | none => (shared, none)
  | .empty => (shared, none)

/-- What can come of a message: the server, and the packet that is passed on. -/
inductive Handles (shared : Shared D) (message : Message) : Shared D × Option Delivery → Prop
  | ignored : Handles shared message (shared, none)
  | failed (error : String) : Handles shared message (shared.emit error, none)
  | announced {text : Str} {header : MultipartPacketHeader} {connection : Connection D}
      {state : ConnectionState D} : decodeProtoPacket text = ok (.multipart header) →
      IndexMap.get message.connectionId shared.connections = some connection →
      Connection.setDecoder connection.state (Connection.Decoder.new header) = (state, ok ()) →
      Handles shared message (shared.setState connection message.connectionId state, none)
  | decoded {text : Str} {packet : Packet} : decodeProtoPacket text = ok (.plain packet) →
      Handles shared message
        ((shared.handlePacketFromClient message packet).1, some (.decoded packet))
  | collected {connection : Connection D} (buffer : Bytes) :
      IndexMap.get message.connectionId shared.connections = some connection →
      Handles shared message (shared.setState connection message.connectionId
        (Connection.decodeBinaryData connection.state buffer).1, none)
  | reassembled {connection : Connection D} {buffer : Bytes} {packet : Packet} :
      IndexMap.get message.connectionId shared.connections = some connection →
      (Connection.decodeBinaryData connection.state buffer).2 = ok (.done packet) →
      Handles shared message
        (((shared.setState connection message.connectionId
          (Connection.decodeBinaryData connection.state buffer).1).handlePacketFromClient message
            packet).1, some (.reassembled packet))

theorem handleNewMessage_handles (shared : Shared D) (message : Message) :
    Handles decodeProtoPacket shared message
      (shared.handleNewMessage decodeProtoPacket message) := by
  rw [handleNewMessage]
  cases message.data with
  | empty => exact .ignored
  | text text =>
    dsimp only
    cases hdecode : decodeProtoPacket text with
    | err e => exact .failed "Bad packet"
    | panic => exact .ignored
    | ok packet =>
      cases packet with
      | plain packet => exact .decoded hdecode
      | multipart header =>
        dsimp only
        split
        swap
        · exact .ignored
        cases hget : IndexMap.get message.connectionId shared.connections with
        | none => exact .ignored
        | some connection =>
          dsimp only
          split
          · rename_i hset
            exact .announced hdecode hget hset
          · exact .failed "sequence error"
          · exact .ignored
  | binary buffer =>
    dsimp only
    cases hget : IndexMap.get message.connectionId shared.connections with
    | none => exact .ignored
    | some connection =>
      dsimp only
      split
      · rename_i packet hdone
        exact .reassembled hget hdone
      · exact .collected buffer hget

def messages : Machine (Shared D) Message (Option Delivery) where
  step := handleNewMessage decodeProtoPacket

/-- The packets that reach `handle_packet_from_client` when the messages are handled one
after another. -/
def deliveries (shared : Shared D) (arrived : List Message) : List Delivery :=
  ((messages decodeProtoPacket).run shared arrived).2.reduceOption

end Shared

end SocketIoRust.SocketIoServer
