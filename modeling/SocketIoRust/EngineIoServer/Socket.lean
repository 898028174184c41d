import SocketIoRust.EngineIoServer.Transport
import SocketIoRust.Library.Json

namespace SocketIoRust.EngineIoServer

open Library EngineIoParser

inductive UpgradeState where
  | initial | upgrading | upgraded
deriving DecidableEq, Repr

inductive ReadyState where
  | opening
  | «open»
  | closing : (withDiscard : Bool) → ReadyState
  | closed
deriving DecidableEq, Repr

inductive SocketError where
  | transportError | packetParseError
deriving DecidableEq, Repr

inductive SocketCloseReason where
  | error : SocketError → SocketCloseReason
  | transportClosed
  | terminatedByServer
deriving DecidableEq, Repr

inductive SocketEvent where
  | «open» : Str → SocketEvent
  | close : Str → SocketCloseReason → SocketEvent
  | flush : Str → SocketEvent
  | drain : Str → SocketEvent
  | upgrade : Str → RequestContext → SocketEvent
  | heartbeat : Str → SocketEvent
  | message : Str → RequestContext → PacketData → SocketEvent
  | error : Str → SocketEvent
deriving DecidableEq, Repr

inductive CallbackBatch (κ : Type) where
  | nonFramed : List κ → CallbackBatch κ
  | framed : κ → CallbackBatch κ

def CallbackBatch.callbacks {κ : Type} : CallbackBatch κ → List κ
  | nonFramed callbacks => callbacks
  | framed callback => [callback]

structure SocketState (A κ : Type) [Adapter A] where
  upgrade : UpgradeState
  ready : ReadyState
  transport : Option (Transport A)
  writeBuffer : List Packet
  pendingCallbacks : List κ
  flushedCallbacks : List (CallbackBatch κ)

/-- The channels of a socket; its events go to its server. -/
structure Senders where
  transportCmd : Sender
  transport : Sender
deriving DecidableEq, Repr

/-- What a socket has done so far: the events and commands that it has sent, and the
callbacks that it has executed. -/
structure Trace (κ : Type) where
  events : List SocketEvent
  commands : List TransportCmd
  executed : List κ

structure Socket (A κ : Type) [Adapter A] where
  id : Str
  remoteAddress : Str
  senders : Senders
  state : SocketState A κ
  trace : Trace κ

/-- The options of a server that its sockets use. -/
structure ServerOptions where
  pingTimeout : UInt32
  pingInterval : UInt32
deriving DecidableEq, Repr

variable {A κ : Type} [Adapter A]

namespace SocketState

-- the sections of a socket's operations that hold the lock

def pushPacket (state : SocketState A κ) (packet : Packet) (callback : Option κ) :
    SocketState A κ :=
  { state with
    writeBuffer := state.writeBuffer ++ [packet]
    pendingCallbacks := state.pendingCallbacks ++ callback.toList }

def takeWriteBuffer (state : SocketState A κ) : SocketState A κ := { state with writeBuffer := [] }

def takeCallbacks (state : SocketState A κ) : SocketState A κ :=
  { state with pendingCallbacks := [] }

def extendFlushed (state : SocketState A κ) (batches : List (CallbackBatch κ)) :
    SocketState A κ :=
  { state with flushedCallbacks := state.flushedCallbacks ++ batches }

def dropTransport (state : SocketState A κ) : SocketState A κ := { state with transport := none }

def clear (state : SocketState A κ) : SocketState A κ :=
  { state with ready := .closed, writeBuffer := [], pendingCallbacks := [] }

/-- The first batch of `on_drain`, and the rest. -/
def removeFlushed (state : SocketState A κ) : List κ × SocketState A κ :=
  match state.flushedCallbacks with
  | [] => ([], state)
  | batch :: batches => (batch.callbacks, { state with flushedCallbacks := batches })

/-- Only the flushed callbacks change, by those that are removed. -/
theorem removeFlushed_spec (state : SocketState A κ) :
    ∃ batches, state.removeFlushed.2 = { state with flushedCallbacks := batches } ∧
      state.flushedCallbacks.flatMap CallbackBatch.callbacks =
        state.removeFlushed.1 ++ batches.flatMap CallbackBatch.callbacks := by
  obtain ⟨upgrade, ready, transport, writeBuffer, pending, flushed⟩ := state
  cases flushed with
  | nil => exact ⟨[], rfl, rfl⟩
  | cons batch batches => exact ⟨batches, rfl, rfl⟩

def isWritable (state : SocketState A κ) : Bool :=
  match state.transport with
  | some transport => transport.isWritable
  | none => false

def supportsFraming (state : SocketState A κ) : Bool :=
  match state.transport with
  | some transport => transport.supportsFraming
  | none => false

end SocketState

/-- How `flush` batches the callbacks that it has taken. -/
def batch (supportsFraming : Bool) (callbacks : List κ) : List (CallbackBatch κ) :=
  if supportsFraming then callbacks.map .framed else [.nonFramed callbacks]

namespace Trace

def emit (trace : Trace κ) (event : SocketEvent) : Trace κ :=
  { trace with events := trace.events ++ [event] }

def send (trace : Trace κ) (cmd : TransportCmd) : Trace κ :=
  { trace with commands := trace.commands ++ [cmd] }

def execute (trace : Trace κ) (callbacks : List κ) : Trace κ :=
  { trace with executed := trace.executed ++ callbacks }

end Trace

namespace Socket

variable (κ) in
/-- `next` and its two successors are channels that are not in use yet. -/
def new (id : Str) (context : RequestContext) (transportCreateData : TransportCreateData A)
    (next : ℕ) : Socket A κ where
  id := id
  remoteAddress := context.remoteAddress
  senders := ⟨⟨next⟩, ⟨next + 1⟩⟩
  state :=
    { upgrade := .initial
      ready := .opening
      transport := some (.create context transportCreateData ⟨next⟩ (next + 2))
      writeBuffer := []
      pendingCallbacks := []
      flushedCallbacks := [] }
  trace := ⟨[], [], []⟩

def emit (socket : Socket A κ) (event : SocketEvent) : Socket A κ :=
  { socket with trace := socket.trace.emit event }

def closeTransport (socket : Socket A κ) : Socket A κ :=
  { socket with state := socket.state.dropTransport }

def flush (socket : Socket A κ) : Socket A κ × Option (List Packet) :=
  if socket.state.ready ≠ .closed ∧ 0 < socket.state.writeBuffer.length ∧
      socket.state.isWritable then
    let socket := socket.emit (.flush socket.id)
    let packets := socket.state.writeBuffer
    let socket := { socket with state := socket.state.takeWriteBuffer }
    -- `buffer.take()` leaves nothing to be returned
    let buffer : Option (List Packet) := none
    let socket := { socket with trace := socket.trace.send (.send packets) }
    let callbacks := socket.state.pendingCallbacks
    let socket := { socket with state := socket.state.takeCallbacks }
    let batches := batch socket.state.supportsFraming callbacks
    let socket := { socket with state := socket.state.extendFlushed batches }
    let socket := socket.emit (.drain socket.id)
    let socket := match socket.state.ready with
      | .closing _ => socket.closeTransport
      | _ => socket
    match buffer with
    | some buffer => (socket, some buffer)
    | none => (socket, none)
  else (socket, none)

def sendPacket (socket : Socket A κ) (packet : Packet) (callback : Option κ) : Socket A κ :=
  let ready := socket.state.ready
  if ready = .opening ∨ ready = .open then
    ({ socket with state := socket.state.pushPacket packet callback }).flush.1
  else socket

/-- The stub for the upgrades. -/
def getAvailableUpgrades (_socket : Socket A κ) : List Str := []

/-- The entries stand in the order in which they are given, as with the `preserve_order` of
the JSON library. -/
def openPacket (socket : Socket A κ) (J : Json.Codec) (serverOptions : ServerOptions) : Packet :=
  let openPacketData : Json.Value := .object
    [("sid".toList, .string socket.id),
      ("upgrades".toList, .array (socket.getAvailableUpgrades.map .string)),
      ("ping_interval".toList, .number (.posInt serverOptions.pingInterval.toUInt64)),
      ("ping_timeout".toList, .number (.posInt serverOptions.pingTimeout.toUInt64))]
  ⟨.open, .text (J.toString openPacketData)⟩

def sendOpenPacket (socket : Socket A κ) (J : Json.Codec) (serverOptions : ServerOptions) :
    Socket A κ := socket.sendPacket (socket.openPacket J serverOptions) none

def «open» (socket : Socket A κ) (J : Json.Codec) (serverOptions : ServerOptions) :
    Socket A κ :=
  let socket := { socket with state := { socket.state with ready := .open } }
  let socket := socket.sendOpenPacket J serverOptions
  socket.emit (.open socket.id)

def close (socket : Socket A κ) (discard : Bool) : Socket A κ :=
  if socket.state.ready = .open then
    let state := { socket.state with ready := .closing discard }
    if state.writeBuffer.isEmpty then { socket with state := state.dropTransport }
    else { socket with state := state }
  else socket

def onClose (socket : Socket A κ) (reason : SocketCloseReason) : Socket A κ :=
  if socket.state.ready ≠ .closed then
    let socket := { socket with state := socket.state.clear }
    let socket := socket.closeTransport
    socket.emit (.close socket.id reason)
  else socket

/-- The error event is a future that is never awaited, so that it is not sent. -/
def onTransportError (socket : Socket A κ) (error : TransportError) : Socket A κ :=
  let ready := socket.state.ready
  if ready = .opening ∨ ready = .open then
    match error with
    | .packetParseError => socket.onClose (.error .packetParseError)
    | _ => socket.onClose (.error .transportError)
  else socket

def onPacket (socket : Socket A κ) (context : RequestContext) (packet : Packet) : Socket A κ :=
  let ready := socket.state.ready
  let upgrade := socket.state.upgrade
  if ready = .open then
    match packet.packetType with
    | .ping =>
      let socket := socket.sendPacket ⟨.pong, .empty⟩ none
      socket.emit (.heartbeat socket.id)
    | .upgrade =>
      if ready ≠ .closed ∧ upgrade = .upgrading then
        let socket := socket.closeTransport
        let socket := socket.emit (.upgrade socket.id context)
        socket.flush.1
      else socket
    | .message => socket.emit (.message socket.id context packet.data)
    -- the other types are not written yet: the task panics
    | _ => socket
  else socket

def onFlush (socket : Socket A κ) : Socket A κ := socket.flush.1

def onDrain (socket : Socket A κ) : Socket A κ :=
  let (callbacks, state) := socket.state.removeFlushed
  { socket with state := state, trace := socket.trace.execute callbacks }

/-- What the subscriber does with an event of the transport. -/
def handleTransportEvent (socket : Socket A κ) : TransportEvent → Socket A κ
  | .error error => socket.onTransportError error
  | .packet context packet => socket.onPacket context packet
  | .drain => socket.onFlush.onDrain
  | .close => socket.onClose .transportClosed

/-- The answer to a request, with the events that the transport has sent meanwhile. -/
def handlePollingRequest (socket : Socket A κ) (requestContext : RequestContext)
    (body : Option (Adapter.Body A)) :
    Socket A κ × List TransportEvent × Outcome ServerError (Adapter.Response A) :=
  match socket.state.transport with
  | none => (socket, [], .err .unknown)
  | some transport =>
    match transport.asPollingOrFail with
    | .error e => (socket, [], .err e)
    | .ok transport =>
      let (events, reply) := Adapter.handleRequest transport requestContext body
      match reply with
      | .ok (.action .drain) =>
        match socket.flush with
        | (socket, some packets) =>
          (socket, events, Adapter.respondWithPackets transport requestContext packets)
        | (socket, none) => (socket, events, .err .badRequest)
      | .ok (.action _) => (socket, events, .err .unknown)
      | .ok (.response response) => (socket, events, .ok response)
      | .err e => (socket, events, .err e)
      | .panic => (socket, events, .panic)

/-- When a flush moves the buffer. -/
def Flushes (socket : Socket A κ) : Prop :=
  socket.state.ready ≠ .closed ∧ 0 < socket.state.writeBuffer.length ∧
    socket.state.isWritable = true

theorem flush_of_not_flushes {socket : Socket A κ} (h : ¬ socket.Flushes) :
    socket.flush = (socket, none) := if_neg h

/-- The transport that is left when the buffer has been moved. -/
def transportAfterFlush (state : SocketState A κ) : Option (Transport A) :=
  match state.ready with
  | .closing _ => none
  | _ => state.transport

theorem flush_of_flushes {socket : Socket A κ} (h : socket.Flushes) :
    socket.flush = ({ socket with
      state := { socket.state with
        transport := transportAfterFlush socket.state
        writeBuffer := []
        pendingCallbacks := []
        flushedCallbacks := socket.state.flushedCallbacks ++
          batch socket.state.supportsFraming socket.state.pendingCallbacks }
      trace :=
        { events := socket.trace.events ++ [.flush socket.id, .drain socket.id]
          commands := socket.trace.commands ++ [.send socket.state.writeBuffer]
          executed := socket.trace.executed } }, none) := by
  have hevents : socket.trace.events ++ [SocketEvent.flush socket.id, .drain socket.id] =
      (socket.trace.events ++ [.flush socket.id]) ++ [.drain socket.id] := by simp
  refine Eq.trans (if_pos h) ?_
  rw [hevents]
  obtain ⟨id, remoteAddress, senders, state, trace⟩ := socket
  obtain ⟨upgrade, ready, transport, writeBuffer, pending, flushed⟩ := state
  cases ready <;> rfl

/-- A flush never returns the packets that it has moved. -/
theorem flush_snd (socket : Socket A κ) : socket.flush.2 = none := by
  by_cases h : socket.Flushes
  · rw [flush_of_flushes h]
  · rw [flush_of_not_flushes h]

end Socket

end SocketIoRust.EngineIoServer
