import SocketIoRust.EngineIoServer.Socket

namespace SocketIoRust.EngineIoServer.Lifecycle

open Library EngineIoParser

variable {A κ : Type} [Adapter A] {socket socket' socket'' : Socket A κ}

/-- The place of a ready state in the life of a socket. -/
def rank : ReadyState → ℕ
  | .opening => 0
  | .open => 1
  | .closing _ => 2
  | .closed => 3

theorem rank_le_closed (ready : ReadyState) : rank ready ≤ rank .closed := by
  cases ready <;> simp [rank]

def isClose : SocketEvent → Bool
  | .close _ _ => true
  | _ => false

/-- The events of a socket that is in use. -/
def isActivity : SocketEvent → Bool
  | .message _ _ _ | .heartbeat _ | .upgrade _ _ | .flush _ | .drain _ => true
  | _ => false

/-- The socket goes on, and does not tell its server that it is closed. -/
structure GoesOn (socket socket' : Socket A κ) : Prop where
  rank : rank socket.state.ready ≤ rank socket'.state.ready
  ready : socket'.state.ready ≠ .closed
  events : ∃ es, socket'.trace.events = socket.trace.events ++ es ∧ ∀ e ∈ es, isClose e = false

/-- The socket becomes closed, and its server is told. -/
structure Closes (socket socket' : Socket A κ) : Prop where
  ready : socket'.state.ready = .closed
  transport : socket'.state.transport = none
  writeBuffer : socket'.state.writeBuffer = []
  events : ∃ e, socket'.trace.events = socket.trace.events ++ [e] ∧ isClose e = true

/-- Nothing changes that anyone could see. -/
structure Rests (socket socket' : Socket A κ) : Prop where
  ready : socket'.state.ready = socket.state.ready
  transport : socket'.state.transport = socket.state.transport
  writeBuffer : socket'.state.writeBuffer = socket.state.writeBuffer
  events : socket'.trace.events = socket.trace.events

theorem Rests.refl (socket : Socket A κ) : Rests socket socket := ⟨rfl, rfl, rfl, rfl⟩

theorem GoesOn.refl (h : socket.state.ready ≠ .closed) : GoesOn socket socket :=
  ⟨le_rfl, h, [], by simp, by simp⟩

theorem GoesOn.trans (h : GoesOn socket socket') (h' : GoesOn socket' socket'') :
    GoesOn socket socket'' := by
  obtain ⟨es, he, hes⟩ := h.events
  obtain ⟨es', he', hes'⟩ := h'.events
  refine ⟨h.rank.trans h'.rank, h'.ready, es ++ es', ?_, ?_⟩
  · rw [he', he, List.append_assoc]
  · intro e hmem
    rcases List.mem_append.mp hmem with hmem | hmem
    · exact hes e hmem
    · exact hes' e hmem

theorem GoesOn.emit (h : GoesOn socket socket') {e : SocketEvent} (he : isClose e = false) :
    GoesOn socket (socket'.emit e) := by
  refine h.trans ⟨le_rfl, h.ready, [e], rfl, ?_⟩
  intro e' hmem
  rw [List.mem_singleton.mp hmem, he]

/-- A change of anything but the ready state and the events. -/
theorem GoesOn.of_eq (h : socket.state.ready ≠ .closed)
    (hr : socket'.state.ready = socket.state.ready)
    (he : socket'.trace.events = socket.trace.events) : GoesOn socket socket' := by
  refine ⟨by rw [hr], by rwa [hr], [], by simp [he], by simp⟩

theorem flush_closed (h : socket.state.ready = .closed) : socket.flush.1 = socket := by
  rw [Socket.flush_of_not_flushes (fun hf ↦ hf.1 h)]

theorem flush_goesOn (h : socket.state.ready ≠ .closed) : GoesOn socket socket.flush.1 := by
  by_cases hf : socket.Flushes
  · rw [Socket.flush_of_flushes hf]
    refine ⟨le_rfl, h, [.flush socket.id, .drain socket.id], rfl, ?_⟩
    simp [isClose]
  · rw [Socket.flush_of_not_flushes hf]
    exact .refl h

theorem sendPacket_closed (h : socket.state.ready = .closed) (packet : Packet)
    (callback : Option κ) : socket.sendPacket packet callback = socket := by
  simp [Socket.sendPacket, h]

theorem sendPacket_goesOn (h : socket.state.ready ≠ .closed) (packet : Packet)
    (callback : Option κ) : GoesOn socket (socket.sendPacket packet callback) := by
  rw [Socket.sendPacket]
  split
  · have hpush : GoesOn socket
        { socket with state := socket.state.pushPacket packet callback } := .of_eq h rfl rfl
    exact hpush.trans (flush_goesOn h)
  · exact .refl h

theorem close_closed (h : socket.state.ready = .closed) (discard : Bool) :
    socket.close discard = socket := by
  simp [Socket.close, h]

theorem close_goesOn (h : socket.state.ready ≠ .closed) (discard : Bool) :
    GoesOn socket (socket.close discard) := by
  rw [Socket.close]
  split
  · rename_i hopen
    have hrank : rank socket.state.ready ≤ rank (.closing discard) := by
      rw [hopen]
      exact Nat.le_succ 1
    dsimp only
    split
    · exact ⟨hrank, nofun, [], by simp, by simp⟩
    · exact ⟨hrank, nofun, [], by simp, by simp⟩
  · exact .refl h

theorem onClose_closed (h : socket.state.ready = .closed) (reason : SocketCloseReason) :
    socket.onClose reason = socket := by
  simp [Socket.onClose, h]

theorem onClose_closes (h : socket.state.ready ≠ .closed) (reason : SocketCloseReason) :
    Closes socket (socket.onClose reason) := by
  rw [Socket.onClose, if_pos h]
  exact ⟨rfl, rfl, rfl, .close socket.id reason, rfl, rfl⟩

theorem onDrain_rests (socket : Socket A κ) : Rests socket socket.onDrain := by
  obtain ⟨batches, hstate, -⟩ := socket.state.removeFlushed_spec
  rw [Socket.onDrain]
  dsimp only
  rw [hstate]
  exact ⟨rfl, rfl, rfl, rfl⟩

theorem onPacket_closed (h : socket.state.ready = .closed) (context : RequestContext)
    (packet : Packet) : socket.onPacket context packet = socket := by
  simp [Socket.onPacket, h]

theorem onPacket_goesOn (h : socket.state.ready ≠ .closed) (context : RequestContext)
    (packet : Packet) : GoesOn socket (socket.onPacket context packet) := by
  rw [Socket.onPacket]
  split
  swap
  · exact .refl h
  dsimp only
  split
  · exact (sendPacket_goesOn h _ _).emit rfl
  · split
    · have hdropped : GoesOn socket socket.closeTransport := .of_eq h rfl rfl
      have hclosed : GoesOn socket (socket.closeTransport.emit (.upgrade socket.id context)) :=
        hdropped.emit rfl
      exact hclosed.trans (flush_goesOn h)
    · exact .refl h
  · exact (GoesOn.refl h).emit rfl
  · exact .refl h

/-- What happens to a socket: its owner's calls and the events of its transport. -/
inductive Action (κ : Type) where
  | sendPacket : Packet → Option κ → Action κ
  | close : (discard : Bool) → Action κ
  | transportEvent : TransportEvent → Action κ

def Action.perform (socket : Socket A κ) : Action κ → Socket A κ
  | sendPacket packet callback => socket.sendPacket packet callback
  | close discard => socket.close discard
  | transportEvent event => socket.handleTransportEvent event

/-- A closed socket rests. -/
theorem perform_closed (h : socket.state.ready = .closed) (action : Action κ) :
    Rests socket (action.perform socket) := by
  cases action with
  | sendPacket packet callback =>
    rw [Action.perform, sendPacket_closed h]
    exact .refl socket
  | close discard =>
    rw [Action.perform, close_closed h]
    exact .refl socket
  | transportEvent event =>
    rw [Action.perform]
    cases event with
    | error error =>
      have hsame : socket.onTransportError error = socket := by simp [Socket.onTransportError, h]
      rw [Socket.handleTransportEvent, hsame]
      exact .refl socket
    | packet context packet =>
      rw [Socket.handleTransportEvent, onPacket_closed h]
      exact .refl socket
    | drain =>
      rw [Socket.handleTransportEvent, Socket.onFlush, flush_closed h]
      exact onDrain_rests socket
    | close =>
      rw [Socket.handleTransportEvent, onClose_closed h]
      exact .refl socket

/-- Any other socket goes on or is closed. -/
theorem perform_open (h : socket.state.ready ≠ .closed) (action : Action κ) :
    GoesOn socket (action.perform socket) ∨ Closes socket (action.perform socket) := by
  cases action with
  | sendPacket packet callback => exact .inl (sendPacket_goesOn h packet callback)
  | close discard => exact .inl (close_goesOn h discard)
  | transportEvent event =>
    cases event with
    | error error =>
      cases error with
      | packetParseError =>
        simp only [Action.perform, Socket.handleTransportEvent, Socket.onTransportError]
        split
        · exact .inr (onClose_closes h _)
        · exact .inl (.refl h)
      | otherError =>
        simp only [Action.perform, Socket.handleTransportEvent, Socket.onTransportError]
        split
        · exact .inr (onClose_closes h _)
        · exact .inl (.refl h)
    | packet context packet => exact .inl (onPacket_goesOn h context packet)
    | drain =>
      have hrest := onDrain_rests socket.flush.1
      have hflush := flush_goesOn h
      refine .inl (hflush.trans ?_)
      exact .of_eq hflush.ready hrest.ready hrest.events
    | close => exact .inr (onClose_closes h _)

/-- A socket is closed exactly when its server has been told, as the last thing. -/
structure Orderly (socket : Socket A κ) : Prop where
  closed : socket.state.ready = .closed → socket.state.transport = none ∧
    socket.state.writeBuffer = [] ∧ ∃ es e, socket.trace.events = es ++ [e] ∧ isClose e = true ∧
      ∀ e ∈ es, isClose e = false
  unclosed : socket.state.ready ≠ .closed → ∀ e ∈ socket.trace.events, isClose e = false

theorem Orderly.goesOn (h : Orderly socket) (hready : socket.state.ready ≠ .closed)
    (hg : GoesOn socket socket') : Orderly socket' where
  closed hc := absurd hc hg.ready
  unclosed _ := by
    obtain ⟨es, he, hes⟩ := hg.events
    intro e hmem
    rw [he] at hmem
    rcases List.mem_append.mp hmem with hmem | hmem
    · exact h.unclosed hready e hmem
    · exact hes e hmem

theorem Orderly.closes (h : Orderly socket) (hready : socket.state.ready ≠ .closed)
    (hc : Closes socket socket') : Orderly socket' where
  closed _ := by
    obtain ⟨e, he, hclose⟩ := hc.events
    exact ⟨hc.transport, hc.writeBuffer, _, e, he, hclose, h.unclosed hready⟩
  unclosed hne := absurd hc.ready hne

theorem Orderly.rests (h : Orderly socket) (hr : Rests socket socket') : Orderly socket' where
  closed hc := by
    rw [hr.transport, hr.writeBuffer, hr.events]
    exact h.closed (by rwa [← hr.ready])
  unclosed hne := by
    rw [hr.events]
    exact h.unclosed (by rwa [← hr.ready])

theorem Orderly.perform (h : Orderly socket) (action : Action κ) :
    Orderly (action.perform socket) ∧
      rank socket.state.ready ≤ rank (action.perform socket).state.ready := by
  by_cases hready : socket.state.ready = .closed
  · have hr := perform_closed hready action
    exact ⟨h.rests hr, by rw [hr.ready]⟩
  · rcases perform_open hready action with hg | hc
    · exact ⟨h.goesOn hready hg, hg.rank⟩
    · refine ⟨h.closes hready hc, ?_⟩
      rw [hc.ready]
      exact rank_le_closed socket.state.ready

def run (socket : Socket A κ) (actions : List (Action κ)) : Socket A κ :=
  actions.foldl Action.perform socket

theorem Orderly.run (h : Orderly socket) (actions : List (Action κ)) :
    Orderly (run socket actions) ∧
      rank socket.state.ready ≤ rank (Lifecycle.run socket actions).state.ready := by
  induction actions generalizing socket with
  | nil => exact ⟨h, le_rfl⟩
  | cons action actions ih =>
    obtain ⟨hnext, hrank⟩ := h.perform action
    obtain ⟨hlast, hranks⟩ := ih hnext
    exact ⟨hlast, hrank.trans hranks⟩

theorem run_closed (h : socket.state.ready = .closed) (actions : List (Action κ)) :
    Rests socket (run socket actions) := by
  induction actions generalizing socket with
  | nil => exact .refl socket
  | cons action actions ih =>
    have hr := perform_closed h action
    have hrs := ih (hr.ready.trans h)
    exact ⟨hrs.ready.trans hr.ready, hrs.transport.trans hr.transport,
      hrs.writeBuffer.trans hr.writeBuffer, hrs.events.trans hr.events⟩

theorem Orderly.count_close (h : Orderly socket) : socket.trace.events.countP isClose ≤ 1 := by
  by_cases hready : socket.state.ready = .closed
  · obtain ⟨-, -, es, e, he, hclose, hes⟩ := h.closed hready
    have hzero : es.countP isClose = 0 := by
      rw [List.countP_eq_zero]
      intro e' hmem
      simp [hes e' hmem]
    rw [he, List.countP_append, hzero]
    simp [hclose]
  · have hzero : socket.trace.events.countP isClose = 0 := by
      rw [List.countP_eq_zero]
      intro e hmem
      simp [h.unclosed hready e hmem]
    rw [hzero]
    exact Nat.zero_le 1

/-- The close event is the last one. -/
theorem Orderly.nothing_later (h : Orderly socket) {es later : List SocketEvent} {e : SocketEvent}
    (he : socket.trace.events = es ++ e :: later) (hclose : isClose e = true) : later = [] := by
  have hready : socket.state.ready = .closed := by
    by_contra hready
    have hno := h.unclosed hready e (by simp [he])
    rw [hclose] at hno
    cases hno
  obtain ⟨-, -, es', e', he', -, hes'⟩ := h.closed hready
  rw [he] at he'
  by_contra hlater
  obtain ⟨later', last, rfl⟩ := List.eq_nil_or_concat later |>.resolve_left hlater
  rw [List.concat_eq_append, ← List.cons_append, ← List.append_assoc] at he'
  obtain ⟨hinit, -⟩ := List.append_inj' he' rfl
  have hno := hes' e (by simp [← hinit])
  rw [hclose] at hno
  cases hno

theorem new_orderly (κ : Type) (id : Str) (context : RequestContext)
    (transportCreateData : TransportCreateData A) (next : ℕ) :
    Orderly (Socket.new κ id context transportCreateData next) where
  closed := nofun
  unclosed _ _ h := absurd h List.not_mem_nil

/-- A socket that has just been opened. -/
def opened (κ : Type) (J : Json.Codec) (serverOptions : ServerOptions) (id : Str)
    (context : RequestContext) (transportCreateData : TransportCreateData A) (next : ℕ) :
    Socket A κ :=
  (Socket.new κ id context transportCreateData next).open J serverOptions

theorem open_goesOn (h : socket.state.ready = .opening) (J : Json.Codec)
    (serverOptions : ServerOptions) : GoesOn socket (socket.open J serverOptions) := by
  have hready : GoesOn socket { socket with state := { socket.state with ready := .open } } := by
    refine ⟨?_, nofun, [], by simp, by simp⟩
    rw [h]
    exact Nat.zero_le 1
  exact (hready.trans (sendPacket_goesOn hready.ready _ _)).emit rfl

/-- The life of a socket: its ready state only moves forward, its server is told once that
it is closed, and after that it keeps still. -/
theorem lifecycle (κ : Type) (J : Json.Codec) (serverOptions : ServerOptions) (id : Str)
    (context : RequestContext) (transportCreateData : TransportCreateData A) (next : ℕ)
    (actions more : List (Action κ)) :
    let socket := Socket.new κ id context transportCreateData next
    let before := run (opened κ J serverOptions id context transportCreateData next) actions
    let after := run (opened κ J serverOptions id context transportCreateData next)
      (actions ++ more)
    rank socket.state.ready ≤ rank before.state.ready ∧
      rank before.state.ready ≤ rank after.state.ready ∧
      after.trace.events.countP isClose ≤ 1 ∧
      (∀ es e later, after.trace.events = es ++ e :: later → isClose e = true →
        ∀ e' ∈ later, isActivity e' = false) ∧
      ((∃ e ∈ before.trace.events, isClose e = true) →
        after.state.transport = none ∧ after.state.writeBuffer = []) := by
  intro socket before after
  have hsocket : Orderly socket := new_orderly κ id context transportCreateData next
  have hopen : GoesOn socket (socket.open J serverOptions) := open_goesOn rfl J serverOptions
  have hopened := hsocket.goesOn nofun hopen
  obtain ⟨hbefore, hrank⟩ := hopened.run actions
  obtain ⟨hafter, hranks⟩ := hbefore.run more
  have happend : run before more = after := (List.foldl_append ..).symm
  rw [show run (run (socket.open J serverOptions) actions) more = after from happend]
    at hafter hranks
  refine ⟨hopen.rank.trans hrank, hranks, hafter.count_close, ?_, ?_⟩
  · intro es e later he hclose e' hmem
    rw [hafter.nothing_later he hclose] at hmem
    cases hmem
  · intro hx
    obtain ⟨e, hmem, hclose⟩ := hx
    have hready : before.state.ready = .closed := by
      by_contra hready
      have hno := hbefore.unclosed hready e hmem
      rw [hclose] at hno
      cases hno
    have hrests := run_closed hready more
    rw [happend] at hrests
    obtain ⟨htransport, hbuffer, -⟩ := hbefore.closed hready
    exact ⟨hrests.transport.trans htransport, hrests.writeBuffer.trans hbuffer⟩

end SocketIoRust.EngineIoServer.Lifecycle
