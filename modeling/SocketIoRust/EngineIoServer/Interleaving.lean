import SocketIoRust.EngineIoServer.Socket
import SocketIoRust.Library.Threads

namespace SocketIoRust.EngineIoServer

open Library Library.Threads EngineIoParser

/-- What has happened to a socket, for the sake of its properties only: what was pushed and
what was cleared, and the batches that are taken and not sent yet, in the order in which
they were taken. -/
structure History (κ : Type) where
  pushed : List Packet
  pushedCallbacks : List κ
  cleared : List Packet
  clearedCallbacks : List κ
  inFlight : List (ℕ × List Packet)
  tickets : ℕ

structure SharedSocket (A κ : Type) [Adapter A] where
  socket : Socket A κ
  history : History κ

/-- Where a call is: the step that it takes next, with what it holds in its variables. -/
inductive Thread (κ : Type) where
  | sendPacket : Packet → Option κ → Thread κ
  | push : Packet → Option κ → Thread κ
  | flush
  | testWritable
  | emitFlush
  | takeWriteBuffer
  | sendCmd : (ticket : ℕ) → List Packet → Thread κ
  | takeCallbacks
  | testFraming : List κ → Thread κ
  | extendFlushed : List (CallbackBatch κ) → Thread κ
  | emitDrain
  | closeTransport
  | onDrain
  | onClose : SocketCloseReason → Thread κ
  | clear : SocketCloseReason → Thread κ
  | dropTransport : SocketCloseReason → Thread κ
  | emitClose : SocketCloseReason → Thread κ
  | done

variable {A κ : Type} [Adapter A]

namespace SharedSocket

/-- A socket as the calls find it. -/
def of (socket : Socket A κ) : SharedSocket A κ where
  socket := socket
  history :=
    { pushed := socket.trace.commands.flatMap TransportCmd.packets ++ socket.state.writeBuffer
      pushedCallbacks := socket.state.pendingCallbacks ++
        (socket.state.flushedCallbacks.flatMap CallbackBatch.callbacks ++ socket.trace.executed)
      cleared := []
      clearedCallbacks := []
      inFlight := []
      tickets := 0 }

def emit (s : SharedSocket A κ) (event : SocketEvent) : SharedSocket A κ :=
  { s with socket := s.socket.emit event }

def setState (s : SharedSocket A κ) (state : SocketState A κ) : SharedSocket A κ :=
  { s with socket := { s.socket with state := state } }

def push (s : SharedSocket A κ) (packet : Packet) (callback : Option κ) : SharedSocket A κ :=
  { s.setState (s.socket.state.pushPacket packet callback) with
    history := { s.history with
      pushed := s.history.pushed ++ [packet]
      pushedCallbacks := s.history.pushedCallbacks ++ callback.toList } }

def takeWriteBuffer (s : SharedSocket A κ) : SharedSocket A κ :=
  { s.setState s.socket.state.takeWriteBuffer with
    history := { s.history with
      inFlight := s.history.inFlight ++ [(s.history.tickets, s.socket.state.writeBuffer)]
      tickets := s.history.tickets + 1 } }

def sendCmd (s : SharedSocket A κ) (ticket : ℕ) (packets : List Packet) : SharedSocket A κ where
  socket := { s.socket with trace := s.socket.trace.send (.send packets) }
  history := { s.history with inFlight := s.history.inFlight.filter (fun e ↦ e.1 ≠ ticket) }

def clear (s : SharedSocket A κ) : SharedSocket A κ :=
  { s.setState s.socket.state.clear with
    history := { s.history with
      cleared := s.history.cleared ++ s.socket.state.writeBuffer
      clearedCallbacks := s.history.clearedCallbacks ++ s.socket.state.pendingCallbacks } }

end SharedSocket

/-- One step of a call: what it does while it holds the lock once, or between two locks. -/
def Thread.next : Program (SharedSocket A κ) (Thread κ) := fun s t ↦
  match t with
  | .sendPacket packet callback =>
    let ready := s.socket.state.ready
    some (s, if ready = .opening ∨ ready = .open then .push packet callback else .done)
  | .push packet callback => some (s.push packet callback, .flush)
  | .flush =>
    let ready := s.socket.state.ready
    some (s, if ready ≠ .closed ∧ 0 < s.socket.state.writeBuffer.length then .testWritable
      else .done)
  | .testWritable => some (s, if s.socket.state.isWritable then .emitFlush else .done)
  | .emitFlush => some (s.emit (.flush s.socket.id), .takeWriteBuffer)
  | .takeWriteBuffer =>
    some (s.takeWriteBuffer, .sendCmd s.history.tickets s.socket.state.writeBuffer)
  | .sendCmd ticket packets => some (s.sendCmd ticket packets, .takeCallbacks)
  | .takeCallbacks =>
    some (s.setState s.socket.state.takeCallbacks, .testFraming s.socket.state.pendingCallbacks)
  | .testFraming callbacks =>
    some (s, .extendFlushed (batch s.socket.state.supportsFraming callbacks))
  | .extendFlushed batches => some (s.setState (s.socket.state.extendFlushed batches), .emitDrain)
  | .emitDrain => some (s.emit (.drain s.socket.id), .closeTransport)
  | .closeTransport =>
    match s.socket.state.ready with
    | .closing _ => some (s.setState s.socket.state.dropTransport, .done)
    | _ => some (s, .done)
  | .onDrain =>
    let (callbacks, state) := s.socket.state.removeFlushed
    some ({ s with socket := { s.socket with
      state := state, trace := s.socket.trace.execute callbacks } }, .done)
  | .onClose reason =>
    some (s, if s.socket.state.ready ≠ .closed then .clear reason else .done)
  | .clear reason => some (s.clear, .dropTransport reason)
  | .dropTransport reason => some (s.setState s.socket.state.dropTransport, .emitClose reason)
  | .emitClose reason => some (s.emit (.close s.socket.id reason), .done)
  | .done => none

/-- The calls of a socket that may run at the same time. -/
inductive IsCall : Thread κ → Prop
  | sendPacket (packet : Packet) (callback : Option κ) : IsCall (.sendPacket packet callback)
  | flush : IsCall .flush
  | onDrain : IsCall .onDrain
  | onClose (reason : SocketCloseReason) : IsCall (.onClose reason)

namespace Thread

/-- A thread that has taken nothing which it still has to put somewhere. -/
def emptyHanded : Thread κ → Bool
  | .sendCmd _ _ | .testFraming _ | .extendFlushed _ => false
  | _ => true

/-- A thread that is about to clear the buffers. -/
def closes : Thread κ → Bool
  | .onClose _ | .clear _ => true
  | _ => false

end Thread

/-- A step that moves no packet and no callback. -/
structure Idle (s : SharedSocket A κ) (t : Thread κ) (s' : SharedSocket A κ) (t' : Thread κ) :
    Prop where
  history : s'.history = s.history
  writeBuffer : s'.socket.state.writeBuffer = s.socket.state.writeBuffer
  pendingCallbacks : s'.socket.state.pendingCallbacks = s.socket.state.pendingCallbacks
  flushedCallbacks : s'.socket.state.flushedCallbacks = s.socket.state.flushedCallbacks
  commands : s'.socket.trace.commands = s.socket.trace.commands
  executed : s'.socket.trace.executed = s.socket.trace.executed
  emptyHanded : t.emptyHanded = true ∧ t'.emptyHanded = true
  closes : t.closes = false → t'.closes = false

/-- What a step of a thread can be. -/
inductive Moves (s : SharedSocket A κ) : Thread κ → SharedSocket A κ → Thread κ → Prop
  | push (packet : Packet) (callback : Option κ) :
      Moves s (.push packet callback) (s.push packet callback) .flush
  | takeWriteBuffer : Moves s .takeWriteBuffer s.takeWriteBuffer
      (.sendCmd s.history.tickets s.socket.state.writeBuffer)
  | sendCmd (ticket : ℕ) (packets : List Packet) :
      Moves s (.sendCmd ticket packets) (s.sendCmd ticket packets) .takeCallbacks
  | takeCallbacks : Moves s .takeCallbacks (s.setState s.socket.state.takeCallbacks)
      (.testFraming s.socket.state.pendingCallbacks)
  | testFraming (callbacks : List κ) : Moves s (.testFraming callbacks) s
      (.extendFlushed (batch s.socket.state.supportsFraming callbacks))
  | extendFlushed (batches : List (CallbackBatch κ)) :
      Moves s (.extendFlushed batches) (s.setState (s.socket.state.extendFlushed batches))
        .emitDrain
  | onDrain : Moves s .onDrain
      { s with socket := { s.socket with
        state := s.socket.state.removeFlushed.2
        trace := s.socket.trace.execute s.socket.state.removeFlushed.1 } } .done
  | clear (reason : SocketCloseReason) :
      Moves s (.clear reason) s.clear (.dropTransport reason)
  | idle {t t' : Thread κ} {s' : SharedSocket A κ} : Idle s t s' t' → Moves s t s' t'

theorem Idle.stay {s : SharedSocket A κ} {t t' : Thread κ}
    (he : t.emptyHanded = true ∧ t'.emptyHanded = true)
    (hc : t.closes = false → t'.closes = false) : Idle s t s t' :=
  ⟨rfl, rfl, rfl, rfl, rfl, rfl, he, hc⟩

/-- A test of the state that decides where a thread goes on. -/
theorem Idle.test {s : SharedSocket A κ} {t yes no : Thread κ} {c : Prop} [Decidable c]
    (hyes : Idle s t s yes) (hno : Idle s t s no) : Idle s t s (if c then yes else no) := by
  split
  · exact hyes
  · exact hno

theorem Thread.next_moves {s s' : SharedSocket A κ} {t t' : Thread κ}
    (h : Thread.next s t = some (s', t')) : Moves s t s' t' := by
  cases t with
  | push packet callback =>
    cases h
    exact .push packet callback
  | takeWriteBuffer =>
    cases h
    exact .takeWriteBuffer
  | sendCmd ticket packets =>
    cases h
    exact .sendCmd ticket packets
  | takeCallbacks =>
    cases h
    exact .takeCallbacks
  | testFraming callbacks =>
    cases h
    exact .testFraming callbacks
  | extendFlushed batches =>
    cases h
    exact .extendFlushed batches
  | onDrain =>
    cases h
    exact .onDrain
  | clear reason =>
    cases h
    exact .clear reason
  | sendPacket | flush | testWritable =>
    cases h
    exact .idle (.test (.stay ⟨rfl, rfl⟩ id) (.stay ⟨rfl, rfl⟩ id))
  | onClose reason =>
    cases h
    exact .idle (.test (.stay ⟨rfl, rfl⟩ nofun) (.stay ⟨rfl, rfl⟩ nofun))
  | emitFlush | emitDrain | dropTransport | emitClose =>
    cases h
    exact .idle ⟨rfl, rfl, rfl, rfl, rfl, rfl, ⟨rfl, rfl⟩, id⟩
  | closeTransport =>
    rw [Thread.next] at h
    split at h
    · cases h
      exact .idle ⟨rfl, rfl, rfl, rfl, rfl, rfl, ⟨rfl, rfl⟩, id⟩
    · cases h
      exact .idle (.stay ⟨rfl, rfl⟩ id)
  | done => cases h

/-- The steps that a call takes when no other one is running. -/
def Thread.alone (s : SharedSocket A κ) (t : Thread κ) : ℕ → SharedSocket A κ × Thread κ
  | 0 => (s, t)
  | n + 1 =>
    match Thread.next s t with
    | some (s, t) => alone s t n
    | none => (s, t)

theorem Thread.alone_succ {s s' : SharedSocket A κ} {t t' : Thread κ}
    (h : Thread.next s t = some (s', t')) (n : ℕ) : alone s t (n + 1) = alone s' t' n := by
  rw [alone, h]

theorem Thread.alone_done (s : SharedSocket A κ) (n : ℕ) : alone s .done n = (s, .done) := by
  cases n <;> rfl

/-- A flush that nothing interrupts is a flush. -/
theorem Thread.alone_flush (s : SharedSocket A κ) :
    (alone s .flush 10).1.socket = s.socket.flush.1 ∧ (alone s .flush 10).2 = .done := by
  by_cases hf : s.socket.Flushes
  · have hf' := hf
    obtain ⟨hready, hlen, hwritable⟩ := hf'
    have htest : Thread.next s .flush = some (s, .testWritable) := by
      simp only [Thread.next, hready, hlen, ne_eq, not_false_eq_true, and_self, if_true]
    have hemit : Thread.next s .testWritable = some (s, .emitFlush) := by
      simp only [Thread.next, hwritable, if_true]
    rw [alone_succ htest, alone_succ hemit, Socket.flush_of_flushes hf]
    obtain ⟨⟨id, remoteAddress, senders, ⟨upgrade, ready, transport, writeBuffer, pending,
      flushed⟩, trace⟩, history⟩ := s
    have hevents : trace.events ++ [SocketEvent.flush id, .drain id] =
        (trace.events ++ [.flush id]) ++ [.drain id] := by simp
    rw [hevents]
    cases ready <;> exact ⟨rfl, rfl⟩
  · rw [Socket.flush_of_not_flushes hf]
    by_cases hready : s.socket.state.ready ≠ .closed ∧ 0 < s.socket.state.writeBuffer.length
    · have htest : Thread.next s .flush = some (s, .testWritable) := by
        simp only [Thread.next, if_pos hready]
      have hstop : Thread.next s .testWritable = some (s, .done) := by
        have hwritable : s.socket.state.isWritable ≠ true := fun hw ↦ hf ⟨hready.1, hready.2, hw⟩
        simp only [Thread.next, if_neg hwritable]
      rw [alone_succ htest, alone_succ hstop, alone_done]
      exact ⟨rfl, rfl⟩
    · have hstop : Thread.next s .flush = some (s, .done) := by
        simp only [Thread.next, if_neg hready]
      rw [alone_succ hstop, alone_done]
      exact ⟨rfl, rfl⟩

theorem Thread.alone_sendPacket (s : SharedSocket A κ) (packet : Packet) (callback : Option κ) :
    (alone s (.sendPacket packet callback) 12).1.socket = s.socket.sendPacket packet callback ∧
      (alone s (.sendPacket packet callback) 12).2 = .done := by
  by_cases hready : s.socket.state.ready = .opening ∨ s.socket.state.ready = .open
  · have hread : Thread.next s (.sendPacket packet callback) = some (s, .push packet callback) := by
      simp only [Thread.next, if_pos hready]
    have hpush : Thread.next s (.push packet callback) = some (s.push packet callback, .flush) :=
      rfl
    rw [alone_succ hread, alone_succ hpush, Socket.sendPacket, if_pos hready]
    exact alone_flush (s.push packet callback)
  · have hread : Thread.next s (.sendPacket packet callback) = some (s, .done) := by
      simp only [Thread.next, if_neg hready]
    rw [alone_succ hread, alone_done, Socket.sendPacket, if_neg hready]
    exact ⟨rfl, rfl⟩

theorem Thread.alone_onDrain (s : SharedSocket A κ) :
    (alone s .onDrain 1).1.socket = s.socket.onDrain ∧ (alone s .onDrain 1).2 = .done :=
  ⟨rfl, rfl⟩

theorem Thread.alone_onClose (s : SharedSocket A κ) (reason : SocketCloseReason) :
    (alone s (.onClose reason) 4).1.socket = s.socket.onClose reason ∧
      (alone s (.onClose reason) 4).2 = .done := by
  by_cases hready : s.socket.state.ready ≠ .closed
  · have hread : Thread.next s (.onClose reason) = some (s, .clear reason) := by
      simp only [Thread.next, if_pos hready]
    rw [alone_succ hread, Socket.onClose, if_pos hready]
    exact ⟨rfl, rfl⟩
  · have hread : Thread.next s (.onClose reason) = some (s, .done) := by
      simp only [Thread.next, if_neg hready]
    rw [alone_succ hread, alone_done, Socket.onClose, if_neg hready]
    exact ⟨rfl, rfl⟩

end SocketIoRust.EngineIoServer
