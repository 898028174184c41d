import SocketIoRust.EngineIoWarp.AdapterWarp
import SocketIoRust.Library.Broadcast

namespace SocketIoRust.EngineIoWarp.TransportEvents

open Library Library.Broadcast EngineIoParser EngineIoServer

variable {B : Base64.Codec} {o : Overflow} {κ : Type}

/-- Where a transport sends its events. -/
def eventSender : Transport (StandaloneAdapter B o) → Sender
  | .webSocket transport => WarpWebsocketTransport.eventSender transport
  | .polling transport => Polling.WarpPollingTransport.eventSender transport

/-- A socket, the channels of transport events, and the task that receives them for it. -/
structure Subscription (B : Base64.Codec) (o : Overflow) (κ : Type) where
  socket : Socket (StandaloneAdapter B o) κ
  channels : Bus TransportEvent
  receiver : Receiver
  loop : Loop TransportEvent

/-- No channel has a receiver at first. -/
def noReceivers : Bus TransportEvent := fun _ ↦ ⟨128, [], 0⟩

def subscribeSocketToTransportEvents (socket : Socket (StandaloneAdapter B o) κ) :
    Subscription B o κ :=
  let (channels, next) := noReceivers.subscribe socket.senders.transport.channel
  ⟨socket, channels, ⟨socket.senders.transport.channel⟩, .start next⟩

/-- What happens to an open socket: the transport emits a packet of the client, or it is
the turn of the subscriber. -/
inductive Turn where
  | emit : RequestContext → Packet → Turn
  | recv

namespace Subscription

def emit (s : Subscription B o κ) (event : TransportEvent) : Subscription B o κ :=
  match s.socket.state.transport with
  | some transport =>
    { s with channels := s.channels.send (eventSender transport).channel event }
  | none => s

def recv (s : Subscription B o κ) : Subscription B o κ :=
  let loop := s.loop.recv (s.channels s.receiver.channel)
  let events := loop.received.drop s.loop.received.length
  { s with loop := loop, socket := events.foldl Socket.handleTransportEvent s.socket }

def turn (s : Subscription B o κ) : Turn → Subscription B o κ
  | .emit context packet => s.emit (.packet context packet)
  | .recv => s.recv

def run (s : Subscription B o κ) (turns : List Turn) : Subscription B o κ := turns.foldl turn s

/-- The packets that have been passed to `on_packet`. -/
def passed (s : Subscription B o κ) : List (RequestContext × Packet) :=
  s.loop.received.filterMap (fun event ↦ match event with
    | .packet context packet => some (context, packet)
    | _ => none)

end Subscription

/-- The packets that the transport emits. -/
def emitted (turns : List Turn) : List (RequestContext × Packet) :=
  turns.filterMap (fun turn ↦ match turn with
    | .emit context packet => some (context, packet)
    | .recv => none)

/-- The subscriber listens to a channel on which the transport does not send. -/
structure Deaf (s : Subscription B o κ) : Prop where
  nothing : (s.channels s.receiver.channel).sent = []
  received : s.loop.received = []
  apart : ∀ transport ∈ s.socket.state.transport,
    (eventSender transport).channel ≠ s.receiver.channel

theorem Deaf.turn {s : Subscription B o κ} (h : Deaf s) (turn : Turn) : Deaf (s.turn turn) := by
  cases turn with
  | emit context packet =>
    rw [Subscription.turn, Subscription.emit]
    split
    · rename_i transport ht
      have hne := (h.apart transport ht).symm
      have hsame := Bus.send_of_ne hne s.channels (.packet context packet)
      exact ⟨(congrArg Channel.sent hsame).trans h.nothing, h.received, h.apart⟩
    · exact h
  | recv =>
    have hdrop : (s.channels s.receiver.channel).sent.drop s.loop.next = [] := by
      rw [h.nothing, List.drop_nil]
    have hrecv : s.recv = s := by
      rw [Subscription.recv, Loop.recv_empty hdrop, h.received]
      rfl
    rw [Subscription.turn, hrecv]
    exact h

theorem Deaf.run {s : Subscription B o κ} (h : Deaf s) (turns : List Turn) :
    Deaf (s.run turns) := by
  induction turns generalizing s with
  | nil => exact h
  | cons turn turns ih => exact ih (h.turn turn)

theorem Deaf.passed {s : Subscription B o κ} (h : Deaf s) : s.passed = [] := by
  rw [Subscription.passed, h.received]
  rfl

/-- The sender of a socket and that of its transport belong to different channels. -/
theorem open_apart (J : Json.Codec) (serverOptions : ServerOptions) (id : Str)
    (context : RequestContext) (data : TransportCreateData (StandaloneAdapter B o)) (next : ℕ) :
    let socket := (Socket.new κ id context data next).open J serverOptions
    ∀ transport ∈ socket.state.transport,
      (eventSender transport).channel ≠ socket.senders.transport.channel := by
  intro socket transport ht
  cases data with
  | polling jsonp =>
    obtain rfl := Option.some.inj ht
    exact Nat.succ_ne_self (next + 1)
  | webSocket supportsBinary handle =>
    obtain rfl := Option.some.inj ht
    exact Nat.succ_ne_self (next + 1)

theorem subscribe_deaf {socket : Socket (StandaloneAdapter B o) κ}
    (h : ∀ transport ∈ socket.state.transport,
      (eventSender transport).channel ≠ socket.senders.transport.channel) :
    Deaf (subscribeSocketToTransportEvents socket) where
  nothing := by
    simp [subscribeSocketToTransportEvents, Bus.subscribe, Channel.subscribe, noReceivers]
  received := rfl
  apart := h

/-- The packets of a client all reach `on_packet` exactly if there are none. -/
theorem passed_iff (κ : Type) (J : Json.Codec) (serverOptions : ServerOptions) (id : Str)
    (context : RequestContext) (data : TransportCreateData (StandaloneAdapter B o)) (next : ℕ)
    (turns : List Turn) :
    (∃ n, ((subscribeSocketToTransportEvents
        (Lifecycle.opened κ J serverOptions id context data next)).run
          (turns ++ List.replicate n .recv)).passed = emitted turns) ↔
      emitted turns = [] := by
  have hdeaf : Deaf (subscribeSocketToTransportEvents
      (Lifecycle.opened κ J serverOptions id context data next)) :=
    subscribe_deaf (open_apart J serverOptions id context data next)
  constructor
  · intro h
    obtain ⟨n, hn⟩ := h
    rw [← hn, (hdeaf.run _).passed]
  · intro h
    exact ⟨0, by rw [(hdeaf.run _).passed, h]⟩

theorem passed_ping :
    ¬ ∀ turns : List Turn, ∃ n, ((subscribeSocketToTransportEvents
      (opened Base64.standard .wrapping Unit (.polling false))).run
        (turns ++ List.replicate n .recv)).passed = emitted turns := by
  intro h
  obtain ⟨n, hn⟩ := h [.emit .poll ⟨.ping, .empty⟩]
  have hdeaf : Deaf (subscribeSocketToTransportEvents
      (opened Base64.standard .wrapping Unit (.polling false))) :=
    subscribe_deaf (open_apart _ _ _ _ _ _)
  rw [(hdeaf.run _).passed] at hn
  cases hn

end SocketIoRust.EngineIoWarp.TransportEvents
