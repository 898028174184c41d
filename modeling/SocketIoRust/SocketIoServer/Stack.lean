import SocketIoRust.EngineIoWarp.ClientData
import SocketIoRust.SocketIoServer.Sessions

namespace SocketIoRust.SocketIoServer.Stack

open Library Library.Nom Library.Refinement SocketIoParser HandlerOrder Sessions
open EngineIoWarp.ClientData (FromClient)
open Library.Outcome (ok err)

variable {B : Base64.Codec} {o : Overflow} {J : Json.Codec} {shared : Shared DefaultDecoder}

/-- No text of a client is one of Socket.IO, which begins with the digit of its type. -/
theorem decodeProtoPacket_of_fromClient {text : Str} (h : FromClient B o (.text text)) :
    DefaultDecoder.decodeProtoPacket J o text = err .packetParseError := by
  have htype : takeU8 text = err (.error text .digit) := by
    rw [takeU8, Decimal.number_of_not_starts h.undigited, Outcome.map_err]
  have hparse : parseProtoPacket J o text = err (.error text .digit) := by
    rw [parseProtoPacket, htype, Outcome.err_bind]
  rw [DefaultDecoder.decodeProtoPacket, hparse]

/-- No packet of a client is let in, and no connection is made for one. -/
theorem handleNewMessage_of_fromClient (h : NoDecoder shared) {message : Message}
    (hm : FromClient B o message.data) :
    (shared.handleNewMessage (DefaultDecoder.decodeProtoPacket J o) message).2 = none ∧
      (shared.handleNewMessage (DefaultDecoder.decodeProtoPacket J o) message).1.connections =
        shared.connections := by
  obtain ⟨context, e, data, environment⟩ := message
  rw [Shared.handleNewMessage]
  cases data with
  | empty => exact ⟨rfl, rfl⟩
  | text text =>
    dsimp only
    rw [decodeProtoPacket_of_fromClient hm]
    exact ⟨rfl, rfl⟩
  | binary buffer =>
    dsimp only
    cases hget : IndexMap.get e shared.connections with
    | none => exact ⟨rfl, rfl⟩
    | some connection =>
      dsimp only
      rw [decodeBinaryData_of_none (h.decoder_eq_none hget), setState_self hget]
      exact ⟨rfl, rfl⟩

/-- Messages come from clients. -/
def Arrives (B : Base64.Codec) (o : Overflow) : Operation → Prop
  | .engineEvent (.message message) => FromClient B o message.data
  | _ => True

def Connects : Operation → Prop
  | .clientConnect _ _ _ _ _ => True
  | _ => False

/-- A server at which nothing arrives. -/
def silent : Machine Unit Operation (Option Delivery) where
  step _ _ := ((), none)

theorem silent_run (ops : List Operation) : (silent.run () ops).2.reduceOption = [] := by
  induction ops with
  | nil => rfl
  | cons operation ops ih => exact ih

theorem perform_silent (h : NoDecoder shared) {operation : Operation}
    (ha : Arrives B o operation) :
    delivered (DefaultDecoder.decodeProtoPacket J o) shared operation = none := by
  cases operation with
  | engineEvent event =>
    cases event with
    | message message => exact (handleNewMessage_of_fromClient h ha).1
    | _ => rfl
  | _ => rfl

theorem perform_connections (h : shared.connections = []) {operation : Operation}
    (ha : Arrives B o operation) (hc : ¬ Connects operation) :
    (shared.perform (DefaultDecoder.decodeProtoPacket J o) operation).connections = [] := by
  cases operation with
  | getNamespace name => exact (Shared.getOrCreateNamespace_connections shared name).trans h
  | makeDynamicNamespace descriptor => exact h
  | clientConnect context name e auth environment => exact absurd trivial hc
  | «of» descriptor =>
    cases descriptor with
    | text name => exact (Shared.getOrCreateNamespace_connections shared name).trans h
    | regex regex => exact h
    | function f => exact h
  | engineEvent event =>
    cases event with
    | connection connectionId | flush connectionId | drain connectionId | error connectionId =>
      exact h
    | message message =>
      have hnone : NoDecoder shared := by
        intro e decoder hd
        rw [Shared.decoderOf, h] at hd
        cases hd
      exact (handleNewMessage_of_fromClient hnone ha).2.trans h
    | close e reason =>
      have hget : IndexMap.get e shared.connections = none := by
        rw [h]
        rfl
      rw [Shared.perform, Shared.handleEngineEvent, Shared.handleEngineSocketClose,
        Shared.removeConnection, hget]
      exact h

/-- Over this engine a server never gets a packet: of all that clients send, by whatever
transport, nothing is let in. As `handle_client_connect` is only called for a packet, no
client is ever connected. -/
theorem nothing_delivered (J : Json.Codec) (B : Base64.Codec) (o : Overflow)
    (ops : List Operation) (ha : ∀ operation ∈ ops, Arrives B o operation) :
    let server : Machine (Shared DefaultDecoder) Operation (Option Delivery) :=
      operations (DefaultDecoder.decodeProtoPacket J o)
    (server.run Shared.new ops).2.reduceOption = [] ∧
      ((∀ operation ∈ ops, ¬ Connects operation) →
        (server.run Shared.new ops).1.connections = []) := by
  intro server
  constructor
  · have hstep : ∀ (shared : Shared DefaultDecoder) (t : Unit) (operation : Operation),
        Arrives B o operation → NoDecoder shared →
        NoDecoder (server.step shared operation).1 ∧
          (server.step shared operation).2 = (silent.step t operation).2 :=
      fun _ _ operation ha h ↦ ⟨(perform_noDecoder h operation).1, perform_silent h ha⟩
    rw [(Machine.run_simulation hstep noDecoder_new ha).2, silent_run]
  · intro hc
    have hempty : (Shared.new : Shared DefaultDecoder).connections = [] := rfl
    induction ops using List.reverseRecOn with
    | nil => exact hempty
    | append_singleton ops operation ih =>
      rw [List.forall_mem_append] at ha hc
      rw [operations_run, Shared.run, List.foldl_append]
      rw [operations_run] at ih
      exact perform_connections (ih ha.1 hc.1) (ha.2 operation (List.mem_singleton_self _))
        (hc.2 operation (List.mem_singleton_self _))

/-- A frame that can be read at all, and the event that comes of it. -/
def greeting : List Operation := [.engineEvent (.message (messageOf (.text "[\"hello\"]".toList)))]

theorem greeting_arrives :
    ∀ operation ∈ greeting, Arrives Base64.standard .wrapping operation := by
  intro operation h
  rw [List.mem_singleton.mp h]
  have hframe : .packet ⟨.message, .text "[\"hello\"]".toList⟩ ∈
      EngineIoWarp.Websocket.subscribeToWebsocketMessages (ε := Unit)
        [.ok (.text "4[\"hello\"]".toList)] := by
    have hreceives : EngineIoWarp.Websocket.Receives (.text "4[\"hello\"]".toList)
        ⟨.message, .text "[\"hello\"]".toList⟩ := ⟨_, rfl, by decide +kernel⟩
    rw [EngineIoWarp.Websocket.receives_cons hreceives]
    exact List.mem_cons_self ..
  exact FromClient.frames hframe

theorem nothing_delivered_greeting :
    let server : Machine (Shared DefaultDecoder) Operation (Option Delivery) :=
      operations (DefaultDecoder.decodeProtoPacket Json.standard .wrapping)
    (server.run Shared.new greeting).2.reduceOption = [] ∧
      ((∀ operation ∈ greeting, ¬ Connects operation) →
        (server.run Shared.new greeting).1.connections = []) :=
  nothing_delivered Json.standard Base64.standard .wrapping greeting greeting_arrives

end SocketIoRust.SocketIoServer.Stack
