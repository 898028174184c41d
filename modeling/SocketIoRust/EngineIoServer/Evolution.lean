import SocketIoRust.EngineIoServer.Server

namespace SocketIoRust.EngineIoServer

open Library EngineIoParser Lifecycle

def SocketEvent.socketId : SocketEvent → Str
  | .open socketId => socketId
  | .close socketId _ => socketId
  | .flush socketId => socketId
  | .drain socketId => socketId
  | .upgrade socketId _ => socketId
  | .heartbeat socketId => socketId
  | .message socketId _ _ => socketId
  | .error socketId => socketId

namespace Evolution

variable {A κ : Type} [Adapter A] {socket socket' socket'' : Socket A κ}

/-- Events are only added, each with the id of the socket. -/
structure Tags (socket socket' : Socket A κ) : Prop where
  id : socket'.id = socket.id
  events : ∃ es, socket'.trace.events = socket.trace.events ++ es ∧
    ∀ e ∈ es, e.socketId = socket.id

theorem Tags.of_eq (hid : socket'.id = socket.id)
    (he : socket'.trace.events = socket.trace.events) : Tags socket socket' :=
  ⟨hid, [], by rw [he, List.append_nil], fun _ h ↦ nomatch h⟩

theorem Tags.trans (h : Tags socket socket') (h' : Tags socket' socket'') :
    Tags socket socket'' := by
  obtain ⟨es, he, hes⟩ := h.events
  obtain ⟨es', he', hes'⟩ := h'.events
  refine ⟨h'.id.trans h.id, es ++ es', ?_, ?_⟩
  · rw [he', he, List.append_assoc]
  · rw [h.id] at hes'
    exact List.forall_mem_append.mpr ⟨hes, hes'⟩

theorem Tags.emit (h : Tags socket socket') {e : SocketEvent} (he : e.socketId = socket'.id) :
    Tags socket (socket'.emit e) := by
  refine h.trans ⟨rfl, [e], rfl, ?_⟩
  intro e' hmem
  rw [List.mem_singleton.mp hmem, he]

/-- The order of the life of a socket is kept as well. -/
structure Evolves (socket socket' : Socket A κ) : Prop where
  tags : Tags socket socket'
  orderly : Orderly socket → Orderly socket'

theorem Evolves.refl (socket : Socket A κ) : Evolves socket socket := ⟨.of_eq rfl rfl, fun h ↦ h⟩

theorem flush_tags (socket : Socket A κ) : Tags socket socket.flush.1 := by
  by_cases hf : socket.Flushes
  · rw [Socket.flush_of_flushes hf]
    refine ⟨rfl, [.flush socket.id, .drain socket.id], rfl, ?_⟩
    simp [SocketEvent.socketId]
  · rw [Socket.flush_of_not_flushes hf]
    exact .of_eq rfl rfl

theorem sendPacket_tags (socket : Socket A κ) (packet : Packet) (callback : Option κ) :
    Tags socket (socket.sendPacket packet callback) := by
  rw [Socket.sendPacket]
  split
  · have hpush : Tags socket
        { socket with state := socket.state.pushPacket packet callback } := .of_eq rfl rfl
    exact hpush.trans (flush_tags _)
  · exact .of_eq rfl rfl

theorem close_tags (socket : Socket A κ) (discard : Bool) : Tags socket (socket.close discard) := by
  rw [Socket.close]
  split
  · dsimp only
    split <;> exact .of_eq rfl rfl
  · exact .of_eq rfl rfl

theorem onClose_tags (socket : Socket A κ) (reason : SocketCloseReason) :
    Tags socket (socket.onClose reason) := by
  rw [Socket.onClose]
  split
  · exact ⟨rfl, [.close socket.id reason], rfl, by simp [SocketEvent.socketId]⟩
  · exact .of_eq rfl rfl

theorem onTransportError_tags (socket : Socket A κ) (error : TransportError) :
    Tags socket (socket.onTransportError error) := by
  simp only [Socket.onTransportError]
  split
  · split <;> exact onClose_tags socket _
  · exact .of_eq rfl rfl

theorem onPacket_tags (socket : Socket A κ) (context : RequestContext) (packet : Packet) :
    Tags socket (socket.onPacket context packet) := by
  rw [Socket.onPacket]
  dsimp only
  split
  swap
  · exact .of_eq rfl rfl
  split
  · exact (sendPacket_tags socket _ _).emit rfl
  · split
    · have hdropped : Tags socket socket.closeTransport := .of_eq rfl rfl
      exact (hdropped.emit rfl).trans (flush_tags _)
    · exact .of_eq rfl rfl
  · have hsame : Tags socket socket := .of_eq rfl rfl
    exact hsame.emit rfl
  · exact .of_eq rfl rfl

theorem onDrain_tags (socket : Socket A κ) : Tags socket socket.onDrain :=
  .of_eq rfl (onDrain_rests socket).events

theorem perform_tags (socket : Socket A κ) (action : Action κ) :
    Tags socket (action.perform socket) := by
  cases action with
  | sendPacket packet callback => exact sendPacket_tags socket packet callback
  | close discard => exact close_tags socket discard
  | transportEvent event =>
    cases event with
    | error error => exact onTransportError_tags socket error
    | packet context packet => exact onPacket_tags socket context packet
    | drain => exact (flush_tags socket).trans (onDrain_tags _)
    | close => exact onClose_tags socket _

theorem perform_evolves (socket : Socket A κ) (action : Action κ) :
    Evolves socket (action.perform socket) :=
  ⟨perform_tags socket action, fun h ↦ (h.perform action).1⟩

theorem flush_evolves (socket : Socket A κ) : Evolves socket socket.flush.1 := by
  refine ⟨flush_tags socket, ?_⟩
  intro h
  by_cases hready : socket.state.ready = .closed
  · rwa [flush_closed hready]
  · exact h.goesOn hready (flush_goesOn hready)

theorem handlePollingRequest_evolves (socket : Socket A κ) (context : RequestContext)
    (body : Option (Adapter.Body A)) :
    Evolves socket (socket.handlePollingRequest context body).1 := by
  have hflush := flush_evolves socket
  rw [Socket.handlePollingRequest]
  split
  · exact .refl socket
  split
  · exact .refl socket
  dsimp only
  split
  · split
    · rename_i heq
      rwa [heq] at hflush
    · rename_i heq
      rwa [heq] at hflush
  all_goals exact .refl socket

/-- A socket in order, that is known by its id. -/
structure Sound (sid : Str) (socket : Socket A κ) : Prop where
  id : socket.id = sid
  orderly : Orderly socket
  events : ∀ e ∈ socket.trace.events, e.socketId = sid

theorem Sound.evolves {sid : Str} (h : Sound sid socket) (he : Evolves socket socket') :
    Sound sid socket' := by
  refine ⟨he.tags.id.trans h.id, he.orderly h.orderly, ?_⟩
  obtain ⟨es, hes, htags⟩ := he.tags.events
  rw [h.id] at htags
  rw [hes]
  exact List.forall_mem_append.mpr ⟨h.events, htags⟩

theorem sound_new (κ : Type) (sid : Str) (context : RequestContext)
    (transportCreateData : TransportCreateData A) (next : ℕ) :
    Sound sid (Socket.new κ sid context transportCreateData next) :=
  ⟨rfl, new_orderly κ sid context transportCreateData next, fun _ h ↦ nomatch h⟩

theorem open_evolves (h : socket.state.ready = .opening) (J : Json.Codec)
    (serverOptions : ServerOptions) : Evolves socket (socket.open J serverOptions) := by
  have hready : Tags socket { socket with state := { socket.state with ready := .open } } :=
    .of_eq rfl rfl
  refine ⟨(hready.trans (sendPacket_tags _ _ _)).emit rfl, ?_⟩
  intro ho
  exact ho.goesOn (by rw [h]; exact ReadyState.noConfusion) (open_goesOn h J serverOptions)

theorem sendPacket_evolves (socket : Socket A κ) (packet : Packet) (callback : Option κ) :
    Evolves socket (socket.sendPacket packet callback) :=
  perform_evolves socket (.sendPacket packet callback)

/-- A property of a socket from when it is opened to when the handshake is answered. -/
structure Handshakes (J : Json.Codec) (server : Server A κ) (sid : Str) (context : RequestContext)
    (data : HandshakeData A) (P : Socket A κ → Prop) : Prop where
  opened : P ((Socket.new κ sid (server.handshakeContext sid context)
    (Server.transportCreateData context data) server.nextChannel).open J
      server.options.toServerOptions)
  sendPacket : ∀ socket packet, P socket → P (socket.sendPacket packet none)
  poll : ∀ socket context, P socket → P (socket.handlePollingRequest context none).1

variable {J : Json.Codec} {server : Server A κ} {sid : Str} {context : RequestContext}
  {data : HandshakeData A} {P : Socket A κ → Prop}

open Server in
theorem Handshakes.register (h : Handshakes J server sid context data P) :
    ∃ client, P client ∧ Registered server (server.register J sid context data) sid client := by
  have hnew : Registered server { server with
      clients := IndexMap.insert sid (Socket.new κ sid (server.handshakeContext sid context)
        (transportCreateData context data) server.nextChannel) server.clients
      nextChannel := server.nextChannel + 3 } sid _ :=
    ⟨rfl, fun id ↦ IndexMap.get_insert sid id _ server.clients⟩
  have hopened := hnew.updateClient (·.open J server.options.toServerOptions)
  rw [Server.register]
  simp only [options_updateClient]
  cases server.options.initialPacket with
  | none => exact ⟨_, h.opened, hopened⟩
  | some packet =>
    exact ⟨_, h.sendPacket _ packet h.opened, hopened.updateClient (·.sendPacket packet none)⟩

open Server in
theorem respond_keeps {server' : Server A κ} {client : Socket A κ}
    (h : Registered server server' sid client) (hclient : P client) (context : RequestContext)
    (hpoll : P client → P (client.handlePollingRequest context none).1) :
    ∃ client', P client' ∧ ∀ id, IndexMap.get id (server'.respond sid context).1.clients =
      if id = sid then some client' else IndexMap.get id server.clients := by
  have hpolled := hpoll hclient
  simp only [respond, getClientOrError_registered h]
  split
  · exact ⟨client, hclient, h.clients⟩
  · generalize client.handlePollingRequest context none = answer at hpolled ⊢
    obtain ⟨client', events, result⟩ := answer
    have hclients := (h.updateClient fun _ ↦ client').clients
    cases result with
    | ok response => exact ⟨client', hpolled, hclients⟩
    | err e => exact ⟨client', hpolled, hclients⟩
    | panic => exact ⟨client', hpolled, hclients⟩
  · exact ⟨client, hclient, h.clients⟩

theorem Handshakes.handshake (h : Handshakes J server sid context data P) :
    ∃ client, P client ∧
      ∀ id, IndexMap.get id (server.handshake J sid context data).1.clients =
        if id = sid then some client else IndexMap.get id server.clients := by
  obtain ⟨client, hclient, hreg⟩ := h.register
  exact respond_keeps hreg hclient _ (h.poll client _)

/-- The client that a handshake adds has every property that is kept until its answer. -/
theorem exists_client (J : Json.Codec) (server : Server A κ) (sid : Str) (context : RequestContext)
    (data : HandshakeData A) :
    ∃ client, (∀ P, Handshakes J server sid context data P → P client) ∧
      ∀ id, IndexMap.get id (server.handshake J sid context data).1.clients =
        if id = sid then some client else IndexMap.get id server.clients := by
  have hany : Handshakes J server sid context data fun _ ↦ True :=
    ⟨trivial, fun _ _ _ ↦ trivial, fun _ _ _ ↦ trivial⟩
  obtain ⟨client, -, hclients⟩ := hany.handshake
  refine ⟨client, ?_, hclients⟩
  intro P h
  obtain ⟨client', hclient', hclients'⟩ := h.handshake
  have hsame := (hclients sid).symm.trans (hclients' sid)
  rw [if_pos rfl, if_pos rfl] at hsame
  rw [Option.some.inj hsame]
  exact hclient'

theorem handshake_sound (J : Json.Codec) (server : Server A κ) (sid : Str)
    (context : RequestContext) (data : HandshakeData A) :
    ∃ client, Sound sid client ∧
      ∀ id, IndexMap.get id (server.handshake J sid context data).1.clients =
        if id = sid then some client else IndexMap.get id server.clients := by
  refine Handshakes.handshake ⟨?_, ?_, ?_⟩
  · exact (sound_new κ sid (server.handshakeContext sid context) _ server.nextChannel).evolves
      (open_evolves rfl J server.options.toServerOptions)
  · intro socket packet h
    exact h.evolves (sendPacket_evolves socket packet none)
  · intro socket context h
    exact h.evolves (handlePollingRequest_evolves socket context none)

end Evolution

end SocketIoRust.EngineIoServer
