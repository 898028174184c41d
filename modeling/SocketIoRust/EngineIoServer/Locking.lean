import SocketIoRust.EngineIoServer.Interleaving
import SocketIoRust.EngineIoWarp.AdapterWarp
import SocketIoRust.Library.RwLock

namespace SocketIoRust.EngineIoServer

open Library Library.Threads EngineIoParser

variable {A κ α : Type} [Adapter A]

/-- `next` is a channel that is not in use yet. -/
def Socket.setTransport (socket : Socket A κ) (context : RequestContext)
    (transportCreateData : TransportCreateData A) (next : ℕ) : Socket A κ :=
  { socket with state := { socket.state with
    transport := some (.create context transportCreateData
      ⟨socket.senders.transportCmd.channel⟩ next) } }

namespace Locking

open Library.RwLock Library.RwLock.Task

-- the operations of a socket, with the guards of the lock around its state

abbrev SocketTask (A κ : Type) [Adapter A] (α : Type) := Task (Socket A κ) α

def state : SocketTask A κ (SocketState A κ) := do
  let socket ← get
  pure socket.state

def setState (f : SocketState A κ → SocketState A κ) : SocketTask A κ Unit :=
  modify fun socket ↦ { socket with state := f socket.state }

def emit (event : Str → SocketEvent) : SocketTask A κ Unit :=
  modify fun socket ↦ socket.emit (event socket.id)

def setTransport (context : RequestContext) (transportCreateData : TransportCreateData A)
    (next : ℕ) : SocketTask A κ Unit :=
  withWrite (modify fun socket ↦ socket.setTransport context transportCreateData next)

def closeTransport : SocketTask A κ Unit := withWrite (setState SocketState.dropTransport)

def getTransportOrFail : SocketTask A κ (Except ServerError (Transport A)) :=
  withRead do
    let state ← state
    pure (match state.transport with
      | some transport => .ok transport
      | none => .error .unknown)

def testTransport (test : Transport A → Bool) : SocketTask A κ Bool := do
  let transport ← getTransportOrFail
  pure (match transport with
    | .ok transport => test transport
    | .error _ => false)

/-- The transport is only asked for when the other tests have not failed. -/
def testFlush : SocketTask A κ Bool := do
  let (ready, writeBufferLength) ← withRead do
    let state ← state
    pure (state.ready, state.writeBuffer.length)
  if ready ≠ .closed ∧ 0 < writeBufferLength then testTransport Transport.isWritable
  else pure false

/-- The scrutinee of the `if let` keeps its guard until the end of the block. -/
def closeWhenClosing : SocketTask A κ Unit :=
  withRead do
    let state ← state
    match state.ready with
    | .closing _ => closeTransport
    | _ => pure ()

/-- Nothing is returned: the packets have been taken out of the buffer for the command. -/
def flush : SocketTask A κ (Option (List Packet)) := do
  if ← testFlush then
    emit .flush
    let packets ← withWrite do
      let state ← state
      setState SocketState.takeWriteBuffer
      pure state.writeBuffer
    modify fun socket ↦ { socket with trace := socket.trace.send (.send packets) }
    let callbacks ← withWrite do
      let state ← state
      setState SocketState.takeCallbacks
      pure state.pendingCallbacks
    let supportsFraming ← testTransport Transport.supportsFraming
    withWrite (setState (·.extendFlushed (batch supportsFraming callbacks)))
    emit .drain
    closeWhenClosing
    pure none
  else pure none

def sendPacket (packet : Packet) (callback : Option κ) : SocketTask A κ Unit := do
  let ready ← withRead do
    let state ← state
    pure state.ready
  if ready = .opening ∨ ready = .open then
    withWrite (setState (·.pushPacket packet callback))
    let _ ← flush
    pure ()
  else pure ()

def sendOpenPacket (J : Json.Codec) (serverOptions : ServerOptions) : SocketTask A κ Unit := do
  let socket ← get
  sendPacket (socket.openPacket J serverOptions) none

def «open» (J : Json.Codec) (serverOptions : ServerOptions) : SocketTask A κ Unit := do
  withWrite (setState ({ · with ready := .open }))
  sendOpenPacket J serverOptions
  emit .open

/-- The first guard lives until the end of the function. -/
def close (discard : Bool) : SocketTask A κ Unit :=
  withWrite do
    let state ← state
    if state.ready = .open then
      withWrite do
        setState ({ · with ready := .closing discard })
        let state ← Locking.state
        if state.writeBuffer.isEmpty then setState SocketState.dropTransport
        else pure ()
    else pure ()

def onClose (reason : SocketCloseReason) : SocketTask A κ Unit := do
  let ready ← withRead do
    let state ← state
    pure state.ready
  if ready ≠ .closed then
    withWrite (setState SocketState.clear)
    closeTransport
    emit (.close · reason)
  else pure ()

def onTransportError (error : TransportError) : SocketTask A κ Unit := do
  let ready ← withRead do
    let state ← state
    pure state.ready
  if ready = .opening ∨ ready = .open then
    match error with
    | .packetParseError => onClose (.error .packetParseError)
    | _ => onClose (.error .transportError)
  else pure ()

def onPacket (context : RequestContext) (packet : Packet) : SocketTask A κ Unit := do
  let (ready, upgrade) ← withRead do
    let state ← state
    pure (state.ready, state.upgrade)
  if ready = .open then
    match packet.packetType with
    | .ping =>
      sendPacket ⟨.pong, .empty⟩ none
      emit .heartbeat
    | .upgrade =>
      if ready ≠ .closed ∧ upgrade = .upgrading then
        closeTransport
        emit (.upgrade · context)
        let _ ← flush
        pure ()
      else pure ()
    | .message => emit (.message · context packet.data)
    -- the other types are not written yet: the task panics
    | _ => pure ()
  else pure ()

-- a callback is code of the caller, which may ask the socket for something itself
variable (requests : κ → Bool)

def execute (callback : κ) : SocketTask A κ Unit := do
  if requests callback then withRead (pure ()) else pure ()
  modify fun socket ↦ { socket with trace := socket.trace.execute [callback] }

def executeAll : List κ → SocketTask A κ Unit
  | [] => pure ()
  | callback :: callbacks => do
    execute requests callback
    executeAll callbacks

/-- The callbacks are executed while the guard lives. -/
def onDrain : SocketTask A κ Unit :=
  withWrite do
    let state ← state
    setState (·.removeFlushed.2)
    executeAll requests state.removeFlushed.1

variable (A κ) in
inductive Operation where
  | setTransport : RequestContext → TransportCreateData A → (next : ℕ) → Operation
  | close : (discard : Bool) → Operation
  | sendPacket : Packet → Option κ → Operation
  | flush
  | «open» : Json.Codec → ServerOptions → Operation
  | onClose : SocketCloseReason → Operation
  | onTransportError : TransportError → Operation
  | onPacket : RequestContext → Packet → Operation
  | onDrain

namespace Operation

/-- The operation with the guards that it takes. -/
def locked : Operation A κ → SocketTask A κ Unit
  | setTransport context transportCreateData next =>
    Locking.setTransport context transportCreateData next
  | close discard => Locking.close discard
  | sendPacket packet callback => Locking.sendPacket packet callback
  | flush => do
    let _ ← Locking.flush
    pure ()
  | «open» J serverOptions => Locking.open J serverOptions
  | onClose reason => Locking.onClose reason
  | onTransportError error => Locking.onTransportError error
  | onPacket context packet => Locking.onPacket context packet
  | onDrain => Locking.onDrain requests

/-- What it does to the socket. -/
def perform (socket : Socket A κ) : Operation A κ → Socket A κ
  | setTransport context transportCreateData next =>
    socket.setTransport context transportCreateData next
  | close discard => socket.close discard
  | sendPacket packet callback => socket.sendPacket packet callback
  | flush => socket.flush.1
  | «open» J serverOptions => socket.open J serverOptions
  | onClose reason => socket.onClose reason
  | onTransportError error => socket.onTransportError error
  | onPacket context packet => socket.onPacket context packet
  | onDrain => socket.onDrain

/-- When the operation requests the lock in spite of its own guard. -/
def Blocks (socket : Socket A κ) : Operation A κ → Prop
  | close _ => socket.state.ready = .open
  | onDrain => ∃ callback ∈ socket.state.removeFlushed.1, requests callback = true
  | _ => False

end Operation

variable {requests} {socket : Socket A κ} {g : Guards}

theorem state_ends (g : Guards) (socket : Socket A κ) :
    Ends state g socket socket.state socket :=
  (Ends.get g socket).bind (.pure ..)

theorem setState_ends (f : SocketState A κ → SocketState A κ) (g : Guards)
    (socket : Socket A κ) :
    Ends (setState f) g socket () { socket with state := f socket.state } :=
  .modify ..

theorem emit_ends (event : Str → SocketEvent) (g : Guards) (socket : Socket A κ) :
    Ends (emit event) g socket () (socket.emit (event socket.id)) :=
  .modify ..

/-- A guard that lives while something is read. -/
theorem read_ends (f : SocketState A κ → α) (socket : Socket A κ) :
    Ends (withRead do
      let state ← state
      pure (f state)) .free socket (f socket.state) socket :=
  .withRead rfl ((state_ends ..).bind (.pure ..))

theorem take_ends (f : SocketState A κ → α) (rest : SocketState A κ → SocketState A κ)
    (socket : Socket A κ) :
    Ends (withWrite do
      let state ← state
      setState rest
      pure (f state)) .free socket (f socket.state)
      { socket with state := rest socket.state } :=
  .withWrite ((state_ends ..).bind ((setState_ends ..).bind (.pure ..)))

theorem closeTransport_ends (socket : Socket A κ) :
    Ends closeTransport .free socket () socket.closeTransport :=
  .withWrite (setState_ends ..)

theorem testTransport_ends (test : Transport A → Bool) (socket : Socket A κ) :
    Ends (testTransport test) .free socket
      (match socket.state.transport with
        | some transport => test transport
        | none => false) socket := by
  have hget : Ends getTransportOrFail .free socket
      (match socket.state.transport with
        | some transport => .ok transport
        | none => .error .unknown) socket := read_ends _ socket
  refine hget.bind ?_
  cases socket.state.transport with
  | none => exact .pure ..
  | some transport => exact .pure ..

instance (socket : Socket A κ) : Decidable socket.Flushes :=
  inferInstanceAs (Decidable (_ ∧ _ ∧ _))

theorem testFlush_ends (socket : Socket A κ) :
    Ends testFlush .free socket (decide socket.Flushes) socket := by
  refine (read_ends (fun state ↦ (state.ready, state.writeBuffer.length)) socket).bind ?_
  dsimp only
  split
  · rename_i h
    have hflushes : decide socket.Flushes = socket.state.isWritable := by
      simp [Socket.Flushes, h]
    rw [hflushes]
    exact testTransport_ends Transport.isWritable socket
  · rename_i h
    have hflushes : decide socket.Flushes = false := by
      rw [decide_eq_false_iff_not]
      exact fun hf ↦ h ⟨hf.1, hf.2.1⟩
    rw [hflushes]
    exact .pure ..

def NotClosing (socket : Socket A κ) : Prop :=
  ∀ discard, socket.state.ready ≠ .closing discard

theorem closeWhenClosing_ends (h : NotClosing socket) :
    Ends closeWhenClosing .free socket () socket := by
  refine .withRead rfl ((state_ends ..).bind ?_)
  cases hready : socket.state.ready with
  | closing discard => exact absurd hready (h discard)
  | opening | «open» | closed => exact .pure ..

/-- The guard of the scrutinee is in the way of `close_transport`. -/
theorem closeWhenClosing_none {discard : Bool} (h : socket.state.ready = .closing discard) :
    closeWhenClosing .free socket = none := by
  have hclose : (closeTransport : SocketTask A κ Unit) ⟨1, false⟩ socket = none :=
    withWrite_none (.inr Nat.one_pos) _ socket
  refine ((state_ends ⟨1, false⟩ socket).bind_eq _).trans ?_
  rw [h]
  exact hclose

/-- What a flush does to the socket before it tests whether it is closing. -/
def flushed (socket : Socket A κ) : Socket A κ :=
  let socket := socket.emit (.flush socket.id)
  let packets := socket.state.writeBuffer
  let socket := { socket with state := socket.state.takeWriteBuffer }
  let socket := { socket with trace := socket.trace.send (.send packets) }
  let callbacks := socket.state.pendingCallbacks
  let socket := { socket with state := socket.state.takeCallbacks }
  let batches := batch socket.state.supportsFraming callbacks
  let socket := { socket with state := socket.state.extendFlushed batches }
  socket.emit (.drain socket.id)

theorem flush_of_flushes (h : socket.Flushes) : flush .free socket =
    (closeWhenClosing >>= fun _ ↦ pure none) .free (flushed socket) := by
  refine ((testFlush_ends socket).bind_eq _).trans ?_
  rw [if_pos (decide_eq_true h)]
  refine ((emit_ends SocketEvent.flush .free socket).bind_eq _).trans ?_
  refine ((take_ends SocketState.writeBuffer SocketState.takeWriteBuffer _).bind_eq _).trans ?_
  refine (Ends.bind_eq (.modify ..) _).trans ?_
  refine ((take_ends SocketState.pendingCallbacks SocketState.takeCallbacks _).bind_eq _).trans ?_
  refine ((testTransport_ends Transport.supportsFraming _).bind_eq _).trans ?_
  refine (Ends.bind_eq (.withWrite (setState_ends ..)) _).trans ?_
  exact (emit_ends SocketEvent.drain .free _).bind_eq _

theorem flush_ends (h : NotClosing socket) :
    Ends flush .free socket none socket.flush.1 := by
  by_cases hf : socket.Flushes
  · have hsame : socket.flush.1 = flushed socket := by
      refine (congrArg Prod.fst (if_pos hf)).trans ?_
      obtain ⟨id, remoteAddress, senders, ⟨upgrade, ready, transport, writeBuffer, pending,
        callbacks⟩, trace⟩ := socket
      cases ready with
      | closing discard => exact absurd rfl (h discard)
      | opening | «open» | closed => rfl
    rw [hsame]
    have hclose : Ends closeWhenClosing .free (flushed socket) () (flushed socket) :=
      closeWhenClosing_ends h
    exact (flush_of_flushes hf).trans (hclose.bind (.pure ..))
  · rw [Socket.flush_of_not_flushes hf]
    refine (testFlush_ends socket).bind ?_
    rw [if_neg (by simpa using hf)]
    exact .pure ..

/-- The guard that `closeWhenClosing` holds stops every flush of a socket that is closing. -/
theorem flush_deadlocks {discard : Bool} (h : socket.state.ready = .closing discard)
    (hf : socket.Flushes) : Deadlocks flush socket :=
  (flush_of_flushes hf).trans (bind_none (closeWhenClosing_none h))

theorem flush_discarded_ends (h : NotClosing socket) :
    Ends (do
      let _ ← flush
      pure ()) .free socket () socket.flush.1 :=
  (flush_ends h).bind (.pure ..)

theorem sendPacket_ends (h : NotClosing socket) (packet : Packet)
    (callback : Option κ) :
    Ends (sendPacket packet callback) .free socket () (socket.sendPacket packet callback) := by
  refine (read_ends SocketState.ready socket).bind ?_
  rw [Socket.sendPacket]
  split
  · refine Ends.bind (.withWrite (setState_ends ..)) ?_
    exact flush_discarded_ends h
  · exact .pure ..

theorem sendOpenPacket_ends (h : NotClosing socket) (J : Json.Codec)
    (serverOptions : ServerOptions) :
    Ends (sendOpenPacket J serverOptions) .free socket ()
      (socket.sendOpenPacket J serverOptions) := by
  exact (Ends.get ..).bind (sendPacket_ends h _ _)

theorem open_ends (J : Json.Codec) (serverOptions : ServerOptions) (socket : Socket A κ) :
    Ends (Locking.open J serverOptions) .free socket () (socket.open J serverOptions) := by
  refine Ends.bind (.withWrite (setState_ends ..)) ?_
  exact (sendOpenPacket_ends (fun _ ↦ ReadyState.noConfusion) J serverOptions).bind (emit_ends ..)

theorem close_ends (h : socket.state.ready ≠ .open) (discard : Bool) :
    Ends (close discard) .free socket () (socket.close discard) := by
  rw [Socket.close, if_neg h]
  refine .withWrite ((state_ends ..).bind ?_)
  rw [if_neg h]
  exact .pure ..

/-- The second guard waits for the first one. -/
theorem close_deadlocks (h : socket.state.ready = .open) (discard : Bool) :
    Deadlocks (close discard) socket := by
  refine ((state_ends ⟨0, true⟩ socket).bind_eq _).trans ?_
  rw [if_pos h]
  exact withWrite_none (.inl rfl) _ socket

theorem onClose_ends (reason : SocketCloseReason) (socket : Socket A κ) :
    Ends (onClose reason) .free socket () (socket.onClose reason) := by
  refine (read_ends SocketState.ready socket).bind ?_
  rw [Socket.onClose]
  split
  · refine Ends.bind (.withWrite (setState_ends ..)) ?_
    exact (closeTransport_ends _).bind (emit_ends ..)
  · exact .pure ..

theorem onTransportError_ends (error : TransportError) (socket : Socket A κ) :
    Ends (onTransportError error) .free socket () (socket.onTransportError error) := by
  refine (read_ends SocketState.ready socket).bind ?_
  unfold Socket.onTransportError
  dsimp only
  by_cases h : socket.state.ready = .opening ∨ socket.state.ready = .open
  · rw [if_pos h, if_pos h]
    cases error with
    | packetParseError => exact onClose_ends _ socket
    | otherError => exact onClose_ends _ socket
  · rw [if_neg h, if_neg h]
    exact .pure ..

theorem onPacket_ends (h : NotClosing socket)
    (context : RequestContext) (packet : Packet) :
    Ends (onPacket context packet) .free socket () (socket.onPacket context packet) := by
  refine (read_ends (fun state ↦ (state.ready, state.upgrade)) socket).bind ?_
  rw [Socket.onPacket]
  dsimp only
  split
  swap
  · exact .pure ..
  cases packet.packetType with
  | ping => exact (sendPacket_ends h _ _).bind (emit_ends ..)
  | upgrade =>
    dsimp only
    split
    · refine (closeTransport_ends socket).bind ((emit_ends ..).bind ?_)
      exact flush_discarded_ends h
    · exact .pure ..
  | message => exact emit_ends ..
  | «open» | close | pong | noop => exact .pure ..

theorem execute_ends {callback : κ} (h : requests callback = false) (g : Guards)
    (socket : Socket A κ) :
    Ends (execute requests callback) g socket ()
      { socket with trace := socket.trace.execute [callback] } := by
  rw [execute, h]
  exact (Ends.pure ..).bind (.modify ..)

theorem executeAll_ends {callbacks : List κ}
    (h : ∀ callback ∈ callbacks, requests callback = false) (g : Guards) (socket : Socket A κ) :
    Ends (executeAll requests callbacks) g socket ()
      { socket with trace := socket.trace.execute callbacks } := by
  induction callbacks generalizing socket with
  | nil =>
    have hsame : { socket with trace := socket.trace.execute [] } = socket := by
      rw [Trace.execute, List.append_nil]
    rw [hsame]
    exact .pure ..
  | cons callback callbacks ih =>
    obtain ⟨hcallback, hcallbacks⟩ := List.forall_mem_cons.mp h
    have hsame : socket.trace.execute (callback :: callbacks) =
        (socket.trace.execute [callback]).execute callbacks := by
      simp [Trace.execute]
    rw [hsame]
    exact (execute_ends hcallback g socket).bind (ih hcallbacks _)

/-- A callback that requests the lock waits for the guard of `on_drain`. -/
theorem executeAll_none {callbacks : List κ}
    (h : ∃ callback ∈ callbacks, requests callback = true) (socket : Socket A κ) :
    executeAll requests callbacks ⟨0, true⟩ socket = none := by
  induction callbacks generalizing socket with
  | nil => simp at h
  | cons callback callbacks ih =>
    cases hcallback : requests callback with
    | true =>
      refine bind_none ?_
      rw [execute, hcallback]
      exact bind_none rfl
    | false =>
      refine ((execute_ends hcallback ⟨0, true⟩ socket).bind_eq _).trans (ih ?_ _)
      simpa [hcallback] using h

theorem onDrain_ends
    (h : ∀ callback ∈ socket.state.removeFlushed.1, requests callback = false) :
    Ends (onDrain requests) .free socket () socket.onDrain := by
  refine .withWrite ((state_ends ..).bind ((setState_ends ..).bind ?_))
  exact executeAll_ends h _ _

theorem onDrain_deadlocks
    (h : ∃ callback ∈ socket.state.removeFlushed.1, requests callback = true) :
    Deadlocks (onDrain requests) socket := by
  refine ((state_ends ⟨0, true⟩ socket).bind_eq _).trans ?_
  exact ((setState_ends ..).bind_eq _).trans (executeAll_none h _)

theorem Operation.ends {op : Operation A κ} (h : NotClosing socket)
    (hop : ¬ op.Blocks requests socket) :
    Ends (op.locked requests) .free socket () (op.perform socket) := by
  cases op with
  | setTransport context transportCreateData next => exact .withWrite (.modify ..)
  | close discard => exact close_ends hop discard
  | sendPacket packet callback => exact sendPacket_ends h packet callback
  | flush => exact flush_discarded_ends h
  | «open» J serverOptions => exact open_ends J serverOptions socket
  | onClose reason => exact onClose_ends reason socket
  | onTransportError error => exact onTransportError_ends error socket
  | onPacket context packet => exact onPacket_ends h context packet
  | onDrain =>
    refine onDrain_ends fun callback hmem ↦ ?_
    rw [← Bool.not_eq_true]
    exact fun hrequests ↦ hop ⟨callback, hmem, hrequests⟩

theorem Operation.deadlocks {op : Operation A κ} (hop : op.Blocks requests socket) :
    Deadlocks (op.locked requests) socket := by
  cases op with
  | close discard => exact close_deadlocks hop discard
  | onDrain => exact onDrain_deadlocks hop
  | setTransport | sendPacket | flush | «open» | onClose | onTransportError | onPacket =>
    exact hop.elim

theorem flush_ready (socket : Socket A κ) : socket.flush.1.state.ready = socket.state.ready := by
  by_cases hf : socket.Flushes
  · rw [Socket.flush_of_flushes hf]
  · rw [Socket.flush_of_not_flushes hf]

theorem sendPacket_ready (packet : Packet) (callback : Option κ) (socket : Socket A κ) :
    (socket.sendPacket packet callback).state.ready = socket.state.ready := by
  rw [Socket.sendPacket]
  split
  · exact flush_ready _
  · rfl

theorem removeFlushed_ready (state : SocketState A κ) :
    state.removeFlushed.2.ready = state.ready := by
  obtain ⟨batches, hstate, -⟩ := state.removeFlushed_spec
  rw [hstate]

theorem NotClosing.of_eq (h : NotClosing socket) {socket' : Socket A κ}
    (hready : socket'.state.ready = socket.state.ready) : NotClosing socket' := by
  rw [NotClosing, hready]
  exact h

theorem onClose_notClosing (h : NotClosing socket) (reason : SocketCloseReason) :
    NotClosing (socket.onClose reason) := by
  rw [Socket.onClose]
  split
  · exact fun _ ↦ ReadyState.noConfusion
  · exact h

theorem onPacket_ready (context : RequestContext) (packet : Packet) (socket : Socket A κ) :
    (socket.onPacket context packet).state.ready = socket.state.ready := by
  rw [Socket.onPacket]
  split
  swap
  · rfl
  cases packet.packetType with
  | ping => exact sendPacket_ready _ _ socket
  | upgrade =>
    dsimp only
    split
    · exact flush_ready _
    · rfl
  | message | «open» | close | pong | noop => rfl

/-- Only `close` would make a socket a closing one, and it does not end when it does. -/
theorem Operation.perform_notClosing {op : Operation A κ} (h : NotClosing socket)
    (hop : ¬ op.Blocks requests socket) : NotClosing (op.perform socket) := by
  cases op with
  | setTransport context transportCreateData next => exact h
  | close discard =>
    have hready : socket.state.ready ≠ .open := hop
    rw [perform, Socket.close, if_neg hready]
    exact h
  | sendPacket packet callback => exact h.of_eq (sendPacket_ready packet callback socket)
  | flush => exact h.of_eq (flush_ready socket)
  | «open» J serverOptions =>
    have hready : (socket.open J serverOptions).state.ready = .open := sendPacket_ready _ _ _
    rw [perform, NotClosing, hready]
    exact fun _ ↦ ReadyState.noConfusion
  | onClose reason => exact onClose_notClosing h reason
  | onTransportError error =>
    rw [perform]
    unfold Socket.onTransportError
    dsimp only
    split
    · cases error with
      | packetParseError => exact onClose_notClosing h _
      | otherError => exact onClose_notClosing h _
    · exact h
  | onPacket context packet => exact h.of_eq (onPacket_ready context packet socket)
  | onDrain => exact h.of_eq (removeFlushed_ready socket.state)

theorem next_notClosing {s s' : SharedSocket A κ} {t t' : Thread κ} (h : NotClosing s.socket)
    (hn : Thread.next s t = some (s', t')) : NotClosing s'.socket := by
  cases t with
  | done => cases hn
  | clear reason =>
    cases hn
    exact fun _ ↦ ReadyState.noConfusion
  | closeTransport =>
    rw [Thread.next] at hn
    split at hn
    · cases hn
      exact h
    · cases hn
      exact h
  | onDrain =>
    cases hn
    exact h.of_eq (removeFlushed_ready s.socket.state)
  | sendPacket | push | flush | testWritable | emitFlush | takeWriteBuffer | sendCmd
  | takeCallbacks | testFraming | extendFlushed | emitDrain | onClose | dropTransport
  | emitClose =>
    cases hn
    exact h

variable (requests) in
/-- The states of a socket, with the calls that are on their way and hold no guard. -/
inductive Reachable : Pool (SharedSocket A κ) (Thread κ) → Prop
  | new (id : Str) (context : RequestContext) (transportCreateData : TransportCreateData A)
      (next : ℕ) : Reachable ⟨.of (.new κ id context transportCreateData next), []⟩
  | step {p q : Pool (SharedSocket A κ) (Thread κ)} : Reachable p →
      Step Thread.next IsCall Free p q → Reachable q
  | perform {p : Pool (SharedSocket A κ) (Thread κ)} {socket : Socket A κ}
      (op : Operation A κ) : Reachable p →
      Ends (op.locked requests) .free p.shared.socket () socket →
      Reachable ⟨{ p.shared with socket := socket }, p.threads⟩
  -- the sections of `open` and of `on_packet` that others may follow at once
  | opens {p : Pool (SharedSocket A κ) (Thread κ)} : Reachable p →
      Reachable ⟨p.shared.setState { p.shared.socket.state with ready := .open }, p.threads⟩
  | closesTransport {p : Pool (SharedSocket A κ) (Thread κ)} : Reachable p →
      Reachable ⟨p.shared.setState p.shared.socket.state.dropTransport, p.threads⟩

theorem Reachable.notClosing {p : Pool (SharedSocket A κ) (Thread κ)}
    (h : Reachable requests p) : NotClosing p.shared.socket := by
  induction h with
  | new id context transportCreateData next => exact fun _ ↦ ReadyState.noConfusion
  | step _ hs ih =>
    cases hs with
    | start => exact ih
    | run _ hn => exact next_notClosing ih hn
  | @perform p socket op _ hends ih =>
    by_cases hop : op.Blocks requests p.shared.socket
    · exact absurd (Operation.deadlocks hop) (not_deadlocks_of_ends hends)
    · obtain rfl : socket = op.perform p.shared.socket :=
        congrArg Prod.snd (Option.some.inj (hends.symm.trans (Operation.ends ih hop)))
      exact Operation.perform_notClosing ih hop
  | opens => exact fun _ ↦ ReadyState.noConfusion
  | closesTransport _ ih => exact ih

/-- The operations that wait for themselves. -/
theorem deadlocks_iff {p : Pool (SharedSocket A κ) (Thread κ)} (h : Reachable requests p)
    (op : Operation A κ) :
    Deadlocks (op.locked requests) p.shared.socket ↔ op.Blocks requests p.shared.socket := by
  refine ⟨?_, Operation.deadlocks⟩
  intro hdead
  by_contra hop
  exact not_deadlocks_of_ends (Operation.ends h.notClosing hop) hdead

def newSocket : Socket (EngineIoWarp.StandaloneAdapter Base64.standard .wrapping) Unit :=
  .new Unit ['a'] .poll (.webSocket true ⟨0⟩) 0

/-- A websocket socket that has just become an open one. -/
def openPool : Pool (SharedSocket (EngineIoWarp.StandaloneAdapter Base64.standard .wrapping) Unit)
    (Thread Unit) :=
  ⟨(SharedSocket.of newSocket).setState { newSocket.state with ready := .open }, []⟩

theorem openPool_reachable (requests : Unit → Bool) : Reachable requests openPool := by
  have hnew : Reachable requests ⟨.of newSocket, []⟩ := .new ..
  exact .opens hnew

theorem ping_not_deadlocks :
    ¬ Deadlocks ((Operation.onPacket .poll ⟨.ping, .empty⟩).locked fun _ ↦ false)
      openPool.shared.socket :=
  (deadlocks_iff (openPool_reachable _) _).not.mpr id

/-- No callback is needed for that. -/
theorem close_open_deadlocks :
    ¬ ∀ (p : Pool (SharedSocket (EngineIoWarp.StandaloneAdapter Base64.standard .wrapping) Unit)
        (Thread Unit)) (op : Operation _ Unit), Reachable (fun _ ↦ false) p →
      ¬ Deadlocks (op.locked fun _ ↦ false) p.shared.socket := by
  intro h
  exact h openPool (.close false) (openPool_reachable _) (close_deadlocks rfl false)

end Locking

end SocketIoRust.EngineIoServer
