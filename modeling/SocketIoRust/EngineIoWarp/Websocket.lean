import SocketIoRust.EngineIoParser.SinglePacket

namespace SocketIoRust.EngineIoWarp.Websocket

open Library Library.Nom EngineIoParser
open Library.Outcome (ok err)

inductive Message where
  | text : Str → Message
  | binary : Bytes → Message
  | ping : Bytes → Message
  | pong : Bytes → Message
  | close : Message
deriving DecidableEq, Repr

structure WebsocketTransportOptions where
  supportsBinary : Bool

inductive TransportEvent where
  | packet : Packet → TransportEvent
  | close : TransportEvent
deriving DecidableEq, Repr

/-- The frames that are decoded: WebSocket pings and pongs are ignored. -/
def encoded : Message → Option Encoded
  | .binary bytes => some (.binary bytes)
  | .text text => some (.text text)
  | _ => none

def isClose : Message → Bool
  | .close => true
  | _ => false

/-- The events sent while the stream of messages lasts, an error or a close frame ending
it; a panic would end the task before its last event. -/
def subscribeToWebsocketMessages {ε : Type} : List (Except ε Message) → List TransportEvent
  | [] => [.close]
  | .error _ :: _ => [.close]
  | .ok message :: results =>
    match encoded message with
    | some input =>
      match decodePacket input with
      | ok packet => .packet packet :: subscribeToWebsocketMessages results
      | err _ => subscribeToWebsocketMessages results
      | .panic => []
    | none => if isClose message then [.close] else subscribeToWebsocketMessages results

/-- The sending half of a websocket: the messages that it has taken, and whether it has been
closed, with a close frame behind them. -/
structure Sink where
  sent : List Message
  closed : Bool

def Sink.new : Sink := ⟨[], false⟩

/-- The sink is closed at the end of the messages. A closed one takes no message. -/
def Sink.forward (sink : Sink) (messages : List Message) : Sink :=
  if sink.closed then sink else ⟨sink.sent ++ messages, true⟩

/-- The messages that `send_packets` forwards to the sink. -/
def sendPackets (B : Base64.Codec) (packets : List Packet) (options : WebsocketTransportOptions) :
    List Message :=
  if options.supportsBinary then
    packets.map (fun packet ↦ .binary (BinaryFormat.encodePacket packet))
  else packets.map (fun packet ↦ .text (StringFormat.encodePacket B packet))

/-- Only the first messages arrive. -/
theorem Sink.foldl_forward (batches : List (List Message)) :
    (batches.foldl forward new).sent = (batches.take 1).flatten := by
  have hclosed (messages : List Message) (batches : List (List Message)) :
      batches.foldl forward ⟨messages, true⟩ = ⟨messages, true⟩ := by
    induction batches with
    | nil => rfl
    | cons batch batches ih => exact ih
  cases batches with
  | nil => rfl
  | cons batch batches =>
    have hfirst : new.forward batch = ⟨batch, true⟩ := rfl
    rw [List.foldl_cons, hfirst, hclosed]
    exact (List.append_nil batch).symm

theorem length_sendPackets (B : Base64.Codec) (packets : List Packet)
    (options : WebsocketTransportOptions) :
    (sendPackets B packets options).length = packets.length := by
  unfold sendPackets
  split <;> exact List.length_map ..

/-- The receiver decodes the message to the packet. -/
def Receives (message : Message) (packet : Packet) : Prop :=
  ∃ input, encoded message = some input ∧ decodePacket input = ok packet

/-- The kind of data for which the connection's codec was written, without the digits that
the decoder would take for the packet type. -/
def Suits (options : WebsocketTransportOptions) (data : PacketData) : Prop :=
  if options.supportsBinary then ∃ d, data = .binary d
  else ∃ s, data = .text s ∧ starts Char.isDigit s = false

theorem receives_text {text : Str} {packet : Packet} :
    Receives (.text text) packet ↔ StringFormat.decodePacket text = ok packet := by
  simp [Receives, encoded, decodePacket]

theorem receives_binary {bytes : Bytes} {packet : Packet} :
    Receives (.binary bytes) packet ↔ BinaryFormat.decodePacket bytes = ok packet := by
  simp [Receives, encoded, decodePacket]

theorem receives_cons {ε : Type} {message : Message} {packet : Packet}
    (h : Receives message packet) (results : List (Except ε Message)) :
    subscribeToWebsocketMessages (.ok message :: results) =
      .packet packet :: subscribeToWebsocketMessages results := by
  obtain ⟨input, hinput, hdecode⟩ := h
  simp only [subscribeToWebsocketMessages, hinput, hdecode]

theorem sendPackets_singleton (B : Base64.Codec) (options : WebsocketTransportOptions)
    (packet : Packet) :
    ∃ message, sendPackets B [packet] options = [message] ∧
      (Receives message packet ↔ Suits options packet.data) := by
  unfold sendPackets Suits
  cases options.supportsBinary with
  | true =>
    simp only [if_true]
    exact ⟨_, rfl, receives_binary.trans (BinaryFormat.decodePacket_encodePacket_iff packet)⟩
  | false =>
    simp only [Bool.false_eq_true, if_false]
    exact ⟨_, rfl, receives_text.trans (StringFormat.decodePacket_encodePacket_iff B packet)⟩

/-- Packets that suit the connection arrive, in order, and nothing else does. -/
theorem subscribe_sendPackets {ε : Type} (B : Base64.Codec) (options : WebsocketTransportOptions)
    (packets : List Packet) (h : ∀ packet ∈ packets, Suits options packet.data) :
    subscribeToWebsocketMessages ((sendPackets B packets options).map (Except.ok (ε := ε))) =
      packets.map TransportEvent.packet ++ [.close] := by
  induction packets with
  | nil => cases hs : options.supportsBinary <;> simp [sendPackets, hs, subscribeToWebsocketMessages]
  | cons packet packets ih =>
    have hcons : sendPackets B (packet :: packets) options =
        sendPackets B [packet] options ++ sendPackets B packets options := by
      unfold sendPackets
      split <;> rfl
    obtain ⟨message, hmessage, hreceives⟩ := sendPackets_singleton B options packet
    rw [hcons, hmessage, List.singleton_append, List.map_cons,
      receives_cons (hreceives.mpr (h packet (by simp))), ih (fun q hq ↦ h q (by simp [hq])),
      List.map_cons, List.cons_append]

/-- Sender and receiver agree on a packet only if its data suit the connection. -/
theorem sendPackets_received_iff (B : Base64.Codec) (options : WebsocketTransportOptions)
    (packet : Packet) :
    (∀ message ∈ sendPackets B [packet] options,
        ∃ input, encoded message = some input ∧ decodePacket input = ok packet) ↔
      Suits options packet.data := by
  obtain ⟨message, hmessage, hreceives⟩ := sendPackets_singleton B options packet
  rw [hmessage, List.forall_mem_singleton]
  exact hreceives

theorem sendPackets_hello :
    ¬ ∀ (packet : Packet) (options : WebsocketTransportOptions), packet.data ≠ .empty →
      ∀ message ∈ sendPackets Base64.standard [packet] options,
        ∃ input, encoded message = some input ∧ decodePacket input = ok packet := by
  intro h
  obtain ⟨input, hinput, hdecode⟩ := h ⟨.message, .text ['h', 'e', 'l', 'l', 'o']⟩ ⟨true⟩
    (by simp) _ (List.mem_singleton_self _)
  cases hinput
  revert hdecode
  decide +kernel

end SocketIoRust.EngineIoWarp.Websocket
