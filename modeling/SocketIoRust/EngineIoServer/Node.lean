import SocketIoRust.EngineIoServer.Evolution

namespace SocketIoRust.EngineIoServer

open Library EngineIoParser Lifecycle Evolution

inductive SendPacketError where
  | unknownConnectionId
deriving DecidableEq, Repr

inductive ServerState where
  | unsubscribed | subscribed
deriving DecidableEq, Repr

/-- A server with what goes on around it: its channel of socket events, which has room for
all that is sent on it, the events that its task has taken from there, and the sockets that
are not among its clients any more, to which the tasks that serve them still hold on. -/
structure Node (A κ : Type) [Adapter A] where
  server : Server A κ
  state : ServerState
  departed : List (Str × Socket A κ)
  queue : List SocketEvent
  taken : List SocketEvent

namespace Server

variable {A κ : Type} [Adapter A]

def new (options : HandshakeOptions) : Server A κ := ⟨[], [], options, 0⟩

def sendPacket (server : Server A κ) (connectionId : Str) (packet : Packet) :
    Server A κ × Except SendPacketError Unit :=
  match IndexMap.get connectionId server.clients with
  | some _ => (server.updateClient connectionId (·.sendPacket packet none), .ok ())
  | none => (server, .error .unknownConnectionId)

/-- The callback is not passed on. -/
def sendPacketWithAck (server : Server A κ) (connectionId : Str) (packet : Packet)
    (_callback : Option κ) : Server A κ × Except SendPacketError Unit :=
  server.sendPacket connectionId packet

/-- Only a handshake gets anywhere; the task panics in any case. -/
def handleUpgrade (J : Json.Codec) (server : Server A κ) (generatedId : Str)
    (context : RequestContext) (socket : Adapter.WsHandle A) : Server A κ :=
  match IndexMap.get "sid".toList context.query with
  | some _ => server
  | none => (server.handshake J generatedId context (.webSocket socket)).1

def eventsOf (server : Server A κ) (id : Str) : List SocketEvent :=
  match IndexMap.get id server.clients with
  | some client => client.trace.events
  | none => []

end Server

namespace Node

variable {A κ : Type} [Adapter A]

def new (options : HandshakeOptions) : Node A κ := ⟨.new options, .unsubscribed, [], [], []⟩

/-- What the socket `id` has sent meanwhile is in the channel. -/
def advance (node : Node A κ) (id : Str) (server : Server A κ) : Node A κ :=
  { node with
    server := server
    queue := node.queue ++ (server.eventsOf id).drop (node.server.eventsOf id).length }

/-- `clients.remove`: whoever else holds the socket keeps it. -/
def removeClient (node : Node A κ) (id : Str) : Node A κ :=
  match IndexMap.get id node.server.clients with
  | some client =>
    { node with
      server := { node.server with clients := IndexMap.erase id node.server.clients }
      departed := IndexMap.insert id client node.departed }
  | none => node

/-- The task that holds the socket performs an action on it. -/
def act (node : Node A κ) (id : Str) (action : Action κ) : Node A κ :=
  match IndexMap.get id node.server.clients with
  | some _ => node.advance id (node.server.updateClient id (action.perform ·))
  | none =>
    match IndexMap.get id node.departed with
    | some socket =>
      { node with
        departed := IndexMap.insert id (action.perform socket) node.departed
        queue := node.queue ++
          (action.perform socket).trace.events.drop socket.trace.events.length }
    | none => node

def trySubscribe (node : Node A κ) : Node A κ × Except Unit Unit :=
  match node.state with
  | .subscribed => (node, .error ())
  | .unsubscribed => ({ node with state := .subscribed }, .ok ())

/-- One round of the loop of `subscribe_to_socket_events`. The server event that it makes of
the message is given to a `send` that is never awaited, so that it goes nowhere. -/
def recv (node : Node A κ) : Node A κ :=
  match node.state, node.queue with
  | .subscribed, message :: queue =>
    let node := { node with queue := queue, taken := node.taken ++ [message] }
    match message with
    | .close socketId _ => node.removeClient socketId
    | _ => node
  | _, _ => node

/-- The socket is removed before `close_socket` panics. -/
def closeSocket (node : Node A κ) (connectionId : Str) : Node A κ := node.removeClient connectionId

/-- What can happen to a node, one thing after another. -/
inductive Input (A κ : Type) [Adapter A] where
  | handleRequest : (generatedId : Str) → RequestContext → Option (Adapter.Body A) → Input A κ
  | handleUpgrade : (generatedId : Str) → RequestContext → Adapter.WsHandle A → Input A κ
  | sendPacket : (connectionId : Str) → Packet → Input A κ
  | act : (id : Str) → Action κ → Input A κ
  | trySubscribe
  | recv
  | closeSocket : (connectionId : Str) → Input A κ

/-- The id that a handshake gives away. -/
def Input.generated : Input A κ → Option Str
  | .handleRequest generatedId context _ =>
    if (IndexMap.get "sid".toList context.query).isNone then some generatedId else none
  | .handleUpgrade generatedId context _ =>
    if (IndexMap.get "sid".toList context.query).isNone then some generatedId else none
  | _ => none

def step (J : Json.Codec) (node : Node A κ) : Input A κ → Node A κ
  | .handleRequest generatedId context body =>
    let sid := (IndexMap.get "sid".toList context.query).getD generatedId
    node.advance sid (node.server.handleRequest J generatedId context body).1
  | .handleUpgrade generatedId context socket =>
    let sid := (IndexMap.get "sid".toList context.query).getD generatedId
    node.advance sid (node.server.handleUpgrade J generatedId context socket)
  | .sendPacket connectionId packet =>
    node.advance connectionId (node.server.sendPacket connectionId packet).1
  | .act id action => node.act id action
  | .trySubscribe => node.trySubscribe.1
  | .recv => node.recv
  | .closeSocket connectionId => node.closeSocket connectionId

def run (J : Json.Codec) (node : Node A κ) (inputs : List (Input A κ)) : Node A κ :=
  inputs.foldl (step J) node

def socketOf (node : Node A κ) (id : Str) : Option (Socket A κ) :=
  (IndexMap.get id node.server.clients).or (IndexMap.get id node.departed)

/-- All that the socket `id` has sent. -/
def eventsOf (node : Node A κ) (id : Str) : List SocketEvent :=
  match node.socketOf id with
  | some socket => socket.trace.events
  | none => []

/-- What waits in the channel and what has been taken from it, of one socket. -/
def queueOf (node : Node A κ) (id : Str) : List SocketEvent :=
  node.queue.filter (fun e ↦ e.socketId = id)

def takenOf (node : Node A κ) (id : Str) : List SocketEvent :=
  node.taken.filter (fun e ↦ e.socketId = id)

/-- What holds of a node after the inputs `past`. -/
structure Consistent (past : List (Input A κ)) (node : Node A κ) : Prop where
  sound : ∀ id socket, node.socketOf id = some socket → Sound id socket
  known : ∀ id socket, node.socketOf id = some socket → ∃ input ∈ past, input.generated = some id
  apart : ∀ id, IndexMap.get id node.server.clients = none ∨ IndexMap.get id node.departed = none
  fifo : ∀ id, node.takenOf id ++ node.queueOf id = node.eventsOf id
  client : ∀ id client, IndexMap.get id node.server.clients = some client →
    ∀ reason, .close id reason ∉ node.taken
  departed : ∀ id socket, IndexMap.get id node.departed = some socket →
    (∃ reason, .close id reason ∈ node.taken) ∨ .closeSocket id ∈ past

variable {past : List (Input A κ)} {node : Node A κ}

/-- The channel holds what all sockets have sent, also those that are new. -/
theorem queueOf_append (node : Node A κ) {es : List SocketEvent} {sid : Str}
    (hes : ∀ e ∈ es, e.socketId = sid) (server : Server A κ) (departed : List (Str × Socket A κ))
    (id : Str) :
    Node.queueOf { node with server := server, departed := departed, queue := node.queue ++ es } id =
      node.queueOf id ++ if id = sid then es else [] := by
  rw [queueOf, queueOf, List.filter_append]
  congr 1
  split
  · rename_i hid
    rw [List.filter_eq_self]
    intro e he
    simp [hes e he, hid]
  · rename_i hid
    rw [List.filter_eq_nil_iff]
    intro e he
    simp [hes e he, Ne.symm hid]

/-- What a node knows about its sockets after one of them, `sid`, has gone on. -/
theorem Consistent.goesOn (h : Consistent past node) {sid : Str} {socket : Socket A κ}
    (hsound : Sound sid socket) {es : List SocketEvent}
    (hevents : socket.trace.events = node.eventsOf sid ++ es) {node' : Node A κ}
    (hqueue : node'.queue = node.queue ++ es) (htaken : node'.taken = node.taken)
    (hsocket : ∀ id, node'.socketOf id = if id = sid then some socket else node.socketOf id) :
    (∀ id s, node'.socketOf id = some s → Sound id s) ∧
      ∀ id, node'.takenOf id ++ node'.queueOf id = node'.eventsOf id := by
  constructor
  · intro id s hs
    rw [hsocket] at hs
    split at hs
    · rename_i hid
      cases hs
      rwa [hid]
    · exact h.sound id s hs
  · intro id
    have hes : ∀ e ∈ es, e.socketId = sid := by
      intro e he
      exact hsound.events e (by rw [hevents]; exact List.mem_append_right _ he)
    have hq := queueOf_append node hes node.server node.departed id
    have he : node'.eventsOf id = node.eventsOf id ++ if id = sid then es else [] := by
      rw [eventsOf, hsocket]
      by_cases hid : id = sid
      · rw [if_pos hid, if_pos hid, hid]
        exact hevents
      · rw [if_neg hid, if_neg hid, List.append_nil]
        rfl
    rw [queueOf] at hq
    rw [queueOf, hqueue, hq, takenOf, htaken, ← takenOf, ← List.append_assoc, h.fifo id, he]

theorem socketOf_of_clients {sid : Str} {client : Socket A κ} {server : Server A κ}
    (hclients : ∀ id, IndexMap.get id server.clients =
      if id = sid then some client else IndexMap.get id node.server.clients)
    (queue : List SocketEvent) (id : Str) :
    Node.socketOf { node with server := server, queue := queue } id =
      if id = sid then some client else node.socketOf id := by
  rw [socketOf, socketOf, hclients]
  split <;> rfl

/-- A client that is new, or that has gone on. -/
theorem Consistent.advance {past' : List (Input A κ)} (h : Consistent past node)
    (hpast : ∀ input ∈ past, input ∈ past') {sid : Str} {client : Socket A κ} {server : Server A κ}
    (hclients : ∀ id, IndexMap.get id server.clients =
      if id = sid then some client else IndexMap.get id node.server.clients)
    (hsound : Sound sid client)
    (hevents : ∃ es, client.trace.events = node.server.eventsOf sid ++ es)
    (hknown : ∃ input ∈ past', input.generated = some sid)
    (hold : IndexMap.get sid node.server.clients ≠ none ∨ node.socketOf sid = none) :
    Consistent past' (node.advance sid server) := by
  have hapart : IndexMap.get sid node.departed = none := by
    rcases hold with hold | hold
    · exact (h.apart sid).resolve_left hold
    · rw [socketOf, Option.or_eq_none_iff] at hold
      exact hold.2
  have hsame : node.server.eventsOf sid = node.eventsOf sid := by
    rw [Server.eventsOf, eventsOf, socketOf, hapart]
    cases IndexMap.get sid node.server.clients <;> rfl
  have hnew : server.eventsOf sid = client.trace.events := by
    rw [Server.eventsOf, hclients, if_pos rfl]
  obtain ⟨es, hes⟩ := hevents
  have hqueue : (node.advance sid server).queue = node.queue ++ es := by
    rw [Node.advance, hnew, hes, List.drop_left]
  have hsocket := socketOf_of_clients hclients (node.advance sid server).queue
  obtain ⟨hallSound, hfifo⟩ := h.goesOn hsound (hsame ▸ hes) hqueue rfl hsocket
  refine ⟨hallSound, ?_, ?_, hfifo, ?_, ?_⟩
  · intro id s hs
    rw [show (node.advance sid server).socketOf id = _ from hsocket id] at hs
    split at hs
    · rename_i hid
      rwa [hid]
    · obtain ⟨input, hinput, hgen⟩ := h.known id s hs
      exact ⟨input, hpast input hinput, hgen⟩
  · intro id
    by_cases hid : id = sid
    · exact .inr (hid ▸ hapart)
    · have hget := hclients id
      rw [if_neg hid] at hget
      rcases h.apart id with hnone | hnone
      · exact .inl (hget.trans hnone)
      · exact .inr hnone
  · intro id c hc reason hmem
    rw [show IndexMap.get id (node.advance sid server).server.clients = _ from hclients id] at hc
    split at hc
    · rename_i hid
      subst hid
      rcases hold with hold | hold
      · obtain ⟨old, hold⟩ := Option.ne_none_iff_exists'.mp hold
        exact h.client _ old hold reason hmem
      · have hnil := h.fifo id
        rw [eventsOf, hold, List.append_eq_nil_iff] at hnil
        have hin : SocketEvent.close id reason ∈ node.takenOf id :=
          List.mem_filter.mpr ⟨hmem, by simp [SocketEvent.socketId]⟩
        rw [hnil.1] at hin
        cases hin
    · exact h.client id c hc reason hmem
  · intro id s hs
    rcases h.departed id s hs with hclosed | hdropped
    · exact .inl hclosed
    · exact .inr (hpast _ hdropped)

theorem Consistent.weaken {past' : List (Input A κ)} (h : Consistent past node)
    (hpast : ∀ input ∈ past, input ∈ past') : Consistent past' node := by
  refine ⟨h.sound, ?_, h.apart, h.fifo, h.client, ?_⟩
  · intro id s hs
    obtain ⟨input, hinput, hgen⟩ := h.known id s hs
    exact ⟨input, hpast input hinput, hgen⟩
  · intro id s hs
    exact (h.departed id s hs).imp_right (hpast _)

theorem advance_self (node : Node A κ) (id : Str) : node.advance id node.server = node := by
  rw [advance, List.drop_length, List.append_nil]

theorem socketOf_of_client {id : Str} {client : Socket A κ}
    (h : IndexMap.get id node.server.clients = some client) : node.socketOf id = some client := by
  rw [socketOf, h]
  rfl

theorem clients_updateClient {server : Server A κ} {sid : Str} {client : Socket A κ}
    (hget : IndexMap.get sid server.clients = some client) (f : Socket A κ → Socket A κ) (id : Str) :
    IndexMap.get id (server.updateClient sid f).clients =
      if id = sid then some (f client) else IndexMap.get id server.clients := by
  rw [Server.updateClient, hget]
  exact IndexMap.get_insert sid id _ _

/-- A client goes on. -/
theorem Consistent.evolve (h : Consistent past node) {sid : Str} {client : Socket A κ}
    (hget : IndexMap.get sid node.server.clients = some client) {f : Socket A κ → Socket A κ}
    (hf : Evolves client (f client)) :
    Consistent past (node.advance sid (node.server.updateClient sid f)) := by
  have hsocket := socketOf_of_client hget
  obtain ⟨es, hes, -⟩ := hf.tags.events
  refine h.advance (fun _ h ↦ h) (clients_updateClient hget f)
    ((h.sound sid client hsocket).evolves hf) ⟨es, ?_⟩ (h.known sid client hsocket) (.inl ?_)
  · rw [Server.eventsOf, hget]
    exact hes
  · rw [hget]
    exact Option.some_ne_none client

/-- A handshake adds a client under an id that is not in use. -/
theorem Consistent.handshake {past' : List (Input A κ)} (h : Consistent past node)
    (hpast : ∀ input ∈ past, input ∈ past') {sid : Str}
    (hknown : ∃ input ∈ past', input.generated = some sid) (hfresh : node.socketOf sid = none)
    (J : Json.Codec) (context : RequestContext) (data : HandshakeData A) :
    Consistent past' (node.advance sid (node.server.handshake J sid context data).1) := by
  obtain ⟨client, hsound, hclients⟩ := handshake_sound J node.server sid context data
  have hnone : node.server.eventsOf sid = [] := by
    rw [socketOf, Option.or_eq_none_iff] at hfresh
    rw [Server.eventsOf, hfresh.1]
  exact h.advance hpast hclients hsound ⟨_, by rw [hnone, List.nil_append]⟩ hknown (.inr hfresh)

/-- What a request can do to the clients. -/
theorem handleRequest_clients (J : Json.Codec) (server : Server A κ) (generatedId : Str)
    (context : RequestContext) (body : Option (Adapter.Body A)) :
    (server.handleRequest J generatedId context body).1 = server ∨
      (∃ sid client, IndexMap.get "sid".toList context.query = some sid ∧
        IndexMap.get sid server.clients = some client ∧
        (server.handleRequest J generatedId context body).1 = server.updateClient sid fun _ ↦
          (client.handlePollingRequest context body).1) ∨
      (IndexMap.get "sid".toList context.query = none ∧
        (server.handleRequest J generatedId context body).1 =
          (server.handshake J generatedId context .polling).1) := by
  rw [Server.handleRequest]
  dsimp only
  split
  · exact .inl rfl
  cases hsid : IndexMap.get "sid".toList context.query with
  | none => exact .inr (.inr ⟨rfl, rfl⟩)
  | some sid =>
    dsimp only
    rw [Server.getClientOrError]
    cases hget : IndexMap.get sid server.clients with
    | none => exact .inl rfl
    | some client => exact .inr (.inl ⟨sid, client, rfl, hget, rfl⟩)

theorem removeClient_clients (node : Node A κ) (sid id : Str) :
    IndexMap.get id (node.removeClient sid).server.clients =
      if id = sid then none else IndexMap.get id node.server.clients := by
  rw [removeClient]
  split
  · exact IndexMap.get_erase sid id _
  · rename_i hnone
    split
    · rename_i hid
      rw [hid, hnone]
    · rfl

theorem removeClient_socketOf (node : Node A κ) (sid id : Str) :
    (node.removeClient sid).socketOf id = node.socketOf id := by
  rw [removeClient]
  cases hget : IndexMap.get sid node.server.clients with
  | none => rfl
  | some client =>
    rw [socketOf, socketOf, IndexMap.get_erase, IndexMap.get_insert]
    split
    · rename_i hid
      rw [hid, hget]
      rfl
    · rfl

theorem removeClient_departed (node : Node A κ) {sid id : Str} (hid : id ≠ sid) :
    IndexMap.get id (node.removeClient sid).departed = IndexMap.get id node.departed := by
  rw [removeClient]
  split
  · exact (IndexMap.get_insert sid id _ _).trans (if_neg hid)
  · rfl

theorem Consistent.shift (h : Consistent past node) {e : SocketEvent} {queue : List SocketEvent}
    (hqueue : node.queue = e :: queue) {node' : Node A κ} (hq : node'.queue = queue)
    (ht : node'.taken = node.taken ++ [e]) (hsocket : ∀ id, node'.socketOf id = node.socketOf id)
    (id : Str) : node'.takenOf id ++ node'.queueOf id = node'.eventsOf id := by
  have hfifo := h.fifo id
  rw [takenOf, queueOf, hqueue, ← List.filter_append] at hfifo
  rw [eventsOf, hsocket, ← eventsOf, ← hfifo, takenOf, queueOf, hq, ht, ← List.filter_append,
    List.append_assoc, List.singleton_append]

theorem Consistent.of_removeClient {past' : List (Input A κ)} (h : Consistent past node)
    (hpast : ∀ input ∈ past, input ∈ past') {sid : Str} {node' : Node A κ}
    (hserver : node'.server = (node.removeClient sid).server)
    (hdeparted : node'.departed = (node.removeClient sid).departed)
    (hfifo : ∀ id, node'.takenOf id ++ node'.queueOf id = node'.eventsOf id)
    (hmono : ∀ e ∈ node.taken, e ∈ node'.taken)
    (hother : ∀ id, id ≠ sid → ∀ reason, .close id reason ∈ node'.taken →
      .close id reason ∈ node.taken)
    (hreason : (∃ reason, .close sid reason ∈ node'.taken) ∨ .closeSocket sid ∈ past') :
    Consistent past' node' := by
  have hsocket (id : Str) : node'.socketOf id = node.socketOf id := by
    rw [socketOf, hserver, hdeparted]
    exact removeClient_socketOf node sid id
  have hold := h.weaken hpast
  refine ⟨?_, ?_, ?_, hfifo, ?_, ?_⟩
  · intro id s hs
    rw [hsocket] at hs
    exact h.sound id s hs
  · intro id s hs
    rw [hsocket] at hs
    exact hold.known id s hs
  · intro id
    rw [hserver, hdeparted, removeClient_clients]
    by_cases hid : id = sid
    · exact .inl (if_pos hid)
    · rw [if_neg hid, removeClient_departed node hid]
      exact h.apart id
  · intro id c hc reason hmem
    rw [hserver, removeClient_clients] at hc
    split at hc
    · cases hc
    · rename_i hid
      exact h.client id c hc reason (hother id hid reason hmem)
  · intro id s hs
    by_cases hid : id = sid
    · rwa [hid]
    · rw [hdeparted, removeClient_departed node hid] at hs
      rcases hold.departed id s hs with ⟨reason, hr⟩ | hdropped
      · exact .inl ⟨reason, hmono _ hr⟩
      · exact .inr hdropped

theorem removeClient_rests (node : Node A κ) (sid : Str) :
    (node.removeClient sid).taken = node.taken ∧ (node.removeClient sid).queue = node.queue := by
  rw [removeClient]
  split <;> exact ⟨rfl, rfl⟩

theorem Consistent.closeSocket {past' : List (Input A κ)} (h : Consistent past node)
    (hpast : ∀ input ∈ past, input ∈ past') {sid : Str} (hdropped : .closeSocket sid ∈ past') :
    Consistent past' (node.closeSocket sid) := by
  obtain ⟨htaken, hqueue⟩ := removeClient_rests node sid
  refine h.of_removeClient hpast rfl rfl ?_ ?_ ?_ (.inr hdropped)
  · intro id
    rw [Node.closeSocket, takenOf, queueOf, eventsOf, htaken, hqueue, removeClient_socketOf]
    exact h.fifo id
  · intro e he
    rwa [Node.closeSocket, htaken]
  · intro id _ reason hmem
    rwa [Node.closeSocket, htaken] at hmem

/-- A client leaves the map when its last event is taken from the channel. -/
theorem Consistent.recv (h : Consistent past node) : Consistent past node.recv := by
  rw [Node.recv]
  split
  swap
  · exact h
  rename_i message queue hstate hqueue
  have hnew {id : Str} {reason : SocketCloseReason} (hmessage : message ≠ .close id reason)
      (hmem : .close id reason ∈ node.taken ++ [message]) : .close id reason ∈ node.taken := by
    rcases List.mem_append.mp hmem with hmem | hmem
    · exact hmem
    · exact absurd (List.mem_singleton.mp hmem).symm hmessage
  cases message with
  | close sid reason =>
    let node' : Node A κ :=
      { node with queue := queue, taken := node.taken ++ [.close sid reason] }
    obtain ⟨htaken, hrest⟩ := removeClient_rests node' sid
    have hmove : (node'.removeClient sid).server = (node.removeClient sid).server ∧
        (node'.removeClient sid).departed = (node.removeClient sid).departed := by
      rw [removeClient, removeClient]
      dsimp only [node']
      split <;> exact ⟨rfl, rfl⟩
    refine h.of_removeClient (fun _ h ↦ h) hmove.1 hmove.2 ?_ ?_ ?_ (.inl ⟨reason, ?_⟩)
    · exact h.shift hqueue hrest htaken (removeClient_socketOf node' sid)
    · intro e he
      rw [htaken]
      exact List.mem_append_left _ he
    · intro id hid r hmem
      rw [htaken] at hmem
      refine hnew ?_ hmem
      intro heq
      cases heq
      exact hid rfl
    · rw [htaken]
      exact List.mem_append_right _ (List.mem_singleton_self _)
  | _ =>
    refine ⟨h.sound, h.known, h.apart, h.shift hqueue rfl rfl (fun _ ↦ rfl), ?_, ?_⟩
    · intro id c hc reason hmem
      exact h.client id c hc reason (hnew SocketEvent.noConfusion hmem)
    · intro id s hs
      rcases h.departed id s hs with ⟨reason, hr⟩ | hdropped
      · exact .inl ⟨reason, List.mem_append_left _ hr⟩
      · exact .inr hdropped

/-- Whoever holds a socket may go on with it, among the clients or not. -/
theorem Consistent.act (h : Consistent past node) (id : Str) (action : Action κ) :
    Consistent past (node.act id action) := by
  rw [Node.act]
  split
  · rename_i client hget
    exact h.evolve hget (perform_evolves client action)
  rename_i hnone
  split
  swap
  · exact h
  rename_i socket hget
  have hheld : node.socketOf id = some socket := by
    rw [socketOf, hnone, hget]
    rfl
  have hev := perform_evolves socket action
  obtain ⟨es, hes, -⟩ := hev.tags.events
  let node' : Node A κ := { node with
    departed := IndexMap.insert id (action.perform socket) node.departed
    queue := node.queue ++ (action.perform socket).trace.events.drop socket.trace.events.length }
  have hsocket (id' : Str) : node'.socketOf id' =
      if id' = id then some (action.perform socket) else node.socketOf id' := by
    rw [socketOf, socketOf, IndexMap.get_insert]
    split
    · rename_i hid
      rw [hid, hnone]
      rfl
    · rfl
  have hevents : (action.perform socket).trace.events = node.eventsOf id ++ es := by
    rw [eventsOf, hheld]
    exact hes
  have hqueue : node'.queue = node.queue ++ es := by
    dsimp only [node']
    rw [hes, List.drop_left]
  have htaken : node'.taken = node.taken := rfl
  obtain ⟨hsound, hfifo⟩ := h.goesOn ((h.sound id socket hheld).evolves hev) hevents
    hqueue htaken hsocket
  refine ⟨hsound, ?_, ?_, hfifo, h.client, ?_⟩
  · intro id' s hs
    rw [hsocket] at hs
    split at hs
    · rename_i hid
      rw [hid]
      exact h.known id socket hheld
    · exact h.known id' s hs
  · intro id'
    dsimp only
    rw [IndexMap.get_insert]
    by_cases hid : id' = id
    · exact .inl (hid ▸ hnone)
    · rw [if_neg hid]
      exact h.apart id'
  · intro id' s hs
    dsimp only at hs
    rw [IndexMap.get_insert] at hs
    split at hs
    · rename_i hid
      rw [hid]
      exact h.departed id socket hget
    · exact h.departed id' s hs

theorem act_own {id : Str} {socket : Socket A κ} (h : node.socketOf id = some socket)
    (action : Action κ) :
    (node.act id action).socketOf id = some (action.perform socket) := by
  rw [Node.act]
  cases hget : IndexMap.get id node.server.clients with
  | some client =>
    rw [socketOf_of_client hget] at h
    cases h
    refine (socketOf_of_clients (clients_updateClient hget _) _ id).trans ?_
    rw [if_pos rfl]
  | none =>
    rw [socketOf, hget, Option.none_or] at h
    dsimp only
    rw [h]
    dsimp only
    rw [socketOf, IndexMap.get_insert, hget, if_pos rfl]
    rfl

/-- The action of the input, and the socket that it is on. -/
def Input.action : Input A κ → Option (Str × Action κ)
  | .act id action => some (id, action)
  | _ => none

/-- How a step goes on with a socket. -/
inductive Turns (input : Input A κ) (id : Str) (socket : Socket A κ) : Socket A κ → Prop
  | rests : (∀ action, input ≠ .act id action) → Turns input id socket socket
  | polled (context : RequestContext) (body : Option (Adapter.Body A)) :
      (∀ action, input ≠ .act id action) →
      Turns input id socket (socket.handlePollingRequest context body).1
  | sent (packet : Packet) : (∀ action, input ≠ .act id action) →
      Turns input id socket (socket.sendPacket packet none)
  | acted (action : Action κ) : input = .act id action →
      Turns input id socket (action.perform socket)

/-- What an input can do to the sockets of a node. -/
inductive Moves (J : Json.Codec) (node : Node A κ) (input : Input A κ) (node' : Node A κ) : Prop
  | stays : (∀ id action, input = .act id action → node.socketOf id = none) →
      (∀ id, node'.socketOf id = node.socketOf id) → Moves J node input node'
  | goesOn {sid : Str} {client client' : Socket A κ} : node.socketOf sid = some client →
      Turns input sid client client' → (∀ id action, input = .act id action → id = sid) →
      (∀ id, node'.socketOf id = if id = sid then some client' else node.socketOf id) →
      Moves J node input node'
  | opens {sid : Str} {client : Socket A κ} (context : RequestContext) (data : HandshakeData A) :
      input.generated = some sid → (∀ P, Handshakes J node.server sid context data P → P client) →
      (∀ id, node'.socketOf id = if id = sid then some client else node.socketOf id) →
      Moves J node input node'

variable {J : Json.Codec}

theorem Moves.updates {input : Input A κ} {sid : Str} {client : Socket A κ}
    (hget : IndexMap.get sid node.server.clients = some client) {f : Socket A κ → Socket A κ}
    (hf : Turns input sid client (f client))
    (hact : ∀ id action, input = .act id action → id = sid) :
    Moves J node input (node.advance sid (node.server.updateClient sid f)) :=
  .goesOn (socketOf_of_client hget) hf hact (socketOf_of_clients (clients_updateClient hget f) _)

theorem Moves.handshakes {input : Input A κ} {sid : Str} (h : input.generated = some sid)
    (context : RequestContext) (data : HandshakeData A) :
    Moves J node input (node.advance sid (node.server.handshake J sid context data).1) := by
  obtain ⟨client, hclient, hclients⟩ := exists_client J node.server sid context data
  exact .opens context data h hclient (socketOf_of_clients hclients _)

theorem act_moves (node : Node A κ) (id : Str) (action : Action κ) :
    Moves J node (.act id action) (node.act id action) := by
  have hact (id' : Str) (action' : Action κ)
      (heq : (Input.act id action : Input A κ) = .act id' action') : id' = id := by
    cases heq
    rfl
  rw [Node.act]
  split
  · rename_i client hget
    exact .updates hget (.acted action rfl) hact
  rename_i hnone
  split
  · rename_i socket hget
    have hsocket : node.socketOf id = some socket := by
      rw [socketOf, hnone, hget]
      rfl
    refine .goesOn hsocket (.acted action rfl) hact (?_ : ∀ id', _ = if id' = id then
      some (action.perform socket) else node.socketOf id')
    intro id'
    rw [socketOf, socketOf, IndexMap.get_insert]
    split
    · rename_i hid
      rw [hid, hnone]
      rfl
    · rfl
  · rename_i hgone
    refine .stays ?_ fun _ ↦ rfl
    intro id' action' heq
    rw [hact id' action' heq, socketOf, hnone, hgone]
    rfl

/-- What an input that acts on no socket can do. -/
theorem Moves.idle {input : Input A κ} {node' : Node A κ}
    (hnone : input.action = none)
    (h : (∀ id, node'.socketOf id = node.socketOf id) ∨
      (∃ sid client, IndexMap.get sid node.server.clients = some client ∧
        ((∃ context body, node' = node.advance sid (node.server.updateClient sid fun _ ↦
            (client.handlePollingRequest context body).1)) ∨
          ∃ packet, node' = node.advance sid (node.server.updateClient sid
            (·.sendPacket packet none)))) ∨
      ∃ sid context data, input.generated = some sid ∧
        node' = node.advance sid (node.server.handshake J sid context data).1) :
    Moves J node input node' := by
  have hno (id : Str) (action : Action κ) : input ≠ .act id action := by
    rintro rfl
    cases hnone
  have hact {P : Str → Prop} (id : Str) (action : Action κ) (heq : input = .act id action) : P id :=
    absurd heq (hno id action)
  rcases h with hsame | ⟨sid, client, hget, ⟨context, body, rfl⟩ | ⟨packet, rfl⟩⟩ |
    ⟨sid, context, data, hgen, rfl⟩
  · exact .stays hact hsame
  · exact .updates hget (.polled context body (hno sid)) hact
  · exact .updates hget (.sent packet (hno sid)) hact
  · exact .handshakes hgen context data

theorem step_moves (J : Json.Codec) (node : Node A κ) (input : Input A κ) :
    Moves J node input (node.step J input) := by
  cases input with
  | handleRequest generatedId context body =>
    refine .idle rfl ?_
    rw [Node.step]
    rcases handleRequest_clients J node.server generatedId context body with
      hsame | ⟨sid, client, hsid, hget, heq⟩ | ⟨hsid, heq⟩
    · rw [hsame, advance_self]
      exact .inl fun _ ↦ rfl
    · rw [heq, hsid]
      exact .inr (.inl ⟨sid, client, hget, .inl ⟨context, body, rfl⟩⟩)
    · rw [heq, hsid, Input.generated, hsid]
      exact .inr (.inr ⟨generatedId, context, .polling, rfl, rfl⟩)
  | handleUpgrade generatedId context socket =>
    refine .idle rfl ?_
    rw [Node.step, Server.handleUpgrade, Input.generated]
    cases hsid : IndexMap.get "sid".toList context.query with
    | some sid =>
      rw [advance_self]
      exact .inl fun _ ↦ rfl
    | none => exact .inr (.inr ⟨generatedId, context, .webSocket socket, rfl, rfl⟩)
  | sendPacket connectionId packet =>
    refine .idle rfl ?_
    rw [Node.step, Server.sendPacket]
    cases hget : IndexMap.get connectionId node.server.clients with
    | some client => exact .inr (.inl ⟨connectionId, client, hget, .inr ⟨packet, rfl⟩⟩)
    | none =>
      rw [advance_self]
      exact .inl fun _ ↦ rfl
  | act sid action => exact act_moves node sid action
  | trySubscribe =>
    refine .idle rfl (.inl fun id ↦ ?_)
    rw [Node.step, trySubscribe]
    split <;> rfl
  | recv =>
    refine .idle rfl (.inl fun id ↦ ?_)
    rw [Node.step, Node.recv]
    split
    · rename_i message queue hstate hqueue
      cases message with
      | close sid reason => exact removeClient_socketOf _ sid id
      | _ => rfl
    · rfl
  | closeSocket connectionId =>
    exact .idle rfl (.inl fun id ↦ removeClient_socketOf node connectionId id)

/-- A socket that is there goes on, unless a handshake takes its place. -/
theorem step_known {input : Input A κ} {id : Str} {socket : Socket A κ} (J : Json.Codec)
    (h : node.socketOf id = some socket) (hfresh : input.generated ≠ some id) :
    ∃ socket', (node.step J input).socketOf id = some socket' ∧ Turns input id socket socket' := by
  cases step_moves J node input with
  | stays hact hsame =>
    refine ⟨socket, (hsame id).trans h, .rests ?_⟩
    intro action heq
    rw [hact id action heq] at h
    cases h
  | @goesOn sid client client' hget hturn hact hsame =>
    rw [hsame]
    split
    · rename_i hid
      subst hid
      rw [hget] at h
      cases h
      exact ⟨client', rfl, hturn⟩
    · rename_i hid
      exact ⟨socket, h, .rests fun action heq ↦ hid (hact id action heq)⟩
  | @opens sid client context data hgen hclient hsame =>
    have hid : id ≠ sid := by
      rintro rfl
      exact hfresh hgen
    rw [hsame, if_neg hid]
    refine ⟨socket, h, .rests ?_⟩
    rintro action rfl
    cases (hgen : none = some sid)

/-- A socket that was not there has been opened by a handshake. -/
theorem step_created {input : Input A κ} {id : Str} {socket : Socket A κ} (J : Json.Codec)
    (h : node.socketOf id = none) (h' : (node.step J input).socketOf id = some socket) :
    input.generated = some id ∧ ∃ context data,
      ∀ P, Handshakes J node.server id context data P → P socket := by
  cases step_moves J node input with
  | stays hact hsame =>
    rw [hsame, h] at h'
    cases h'
  | @goesOn sid client client' hget hturn hact hsame =>
    rw [hsame] at h'
    split at h'
    · rename_i hid
      rw [hid, hget] at h
      cases h
    · rw [h] at h'
      cases h'
  | @opens sid client context data hgen hclient hsame =>
    rw [hsame] at h'
    split at h'
    · rename_i hid
      subst hid
      cases h'
      exact ⟨hgen, context, data, hclient⟩
    · rw [h] at h'
      cases h'

theorem Consistent.step (h : Consistent past node) (J : Json.Codec) (input : Input A κ)
    (hfresh : ∀ id, input.generated = some id → ∀ i ∈ past, i.generated ≠ some id) :
    Consistent (past ++ [input]) (node.step J input) := by
  have hpast : ∀ i ∈ past, i ∈ past ++ [input] := fun i hi ↦ List.mem_append_left _ hi
  have hlast : input ∈ past ++ [input] := by simp
  have hunused : ∀ id, input.generated = some id → node.socketOf id = none := by
    intro id hid
    cases hs : node.socketOf id with
    | none => rfl
    | some socket =>
      obtain ⟨i, hi, hgen⟩ := h.known id socket hs
      exact absurd hgen (hfresh id hid i hi)
  cases input with
  | handleRequest generatedId context body =>
    rw [Node.step]
    rcases handleRequest_clients J node.server generatedId context body with
      hsame | ⟨sid, client, hsid, hget, heq⟩ | ⟨hsid, heq⟩
    · rw [hsame, advance_self]
      exact h.weaken hpast
    · rw [heq, hsid]
      exact (h.evolve hget (handlePollingRequest_evolves client context body)).weaken hpast
    · have hgen : (Input.handleRequest generatedId context body : Input A κ).generated =
          some generatedId := by
        rw [Input.generated, hsid]
        rfl
      rw [heq, hsid]
      exact h.handshake hpast ⟨_, hlast, hgen⟩ (hunused _ hgen) J context .polling
  | handleUpgrade generatedId context socket =>
    rw [Node.step, Server.handleUpgrade]
    cases hsid : IndexMap.get "sid".toList context.query with
    | some sid =>
      rw [advance_self]
      exact h.weaken hpast
    | none =>
      have hgen : (Input.handleUpgrade generatedId context socket : Input A κ).generated =
          some generatedId := by
        rw [Input.generated, hsid]
        rfl
      exact h.handshake hpast ⟨_, hlast, hgen⟩ (hunused _ hgen) J context (.webSocket socket)
  | sendPacket connectionId packet =>
    rw [Node.step, Server.sendPacket]
    cases hget : IndexMap.get connectionId node.server.clients with
    | some client =>
      exact (h.evolve hget (sendPacket_evolves client packet none)).weaken hpast
    | none =>
      rw [advance_self]
      exact h.weaken hpast
  | act id action => exact (h.act id action).weaken hpast
  | trySubscribe =>
    have hsub : Consistent past node.trySubscribe.1 := by
      rw [Node.trySubscribe]
      split
      · exact h
      · exact ⟨h.sound, h.known, h.apart, h.fifo, h.client, h.departed⟩
    exact hsub.weaken hpast
  | recv => exact h.recv.weaken hpast
  | closeSocket connectionId => exact h.closeSocket hpast hlast

theorem consistent_new (options : HandshakeOptions) :
    Consistent ([] : List (Input A κ)) (Node.new options) := by
  refine ⟨?_, ?_, fun _ ↦ .inl rfl, fun _ ↦ rfl, ?_, ?_⟩
  · intro id socket hs
    cases hs
  · intro id socket hs
    cases hs
  · intro id client hc
    cases hc
  · intro id socket hs
    cases hs

/-- Handshakes give away different ids. -/
def Fresh (inputs : List (Input A κ)) : Prop := (inputs.filterMap Input.generated).Nodup

theorem Fresh.of_concat {inputs : List (Input A κ)} {input : Input A κ}
    (h : Fresh (inputs ++ [input])) :
    Fresh inputs ∧ ∀ id, input.generated = some id → ∀ i ∈ inputs, i.generated ≠ some id := by
  rw [Fresh, List.filterMap_append, List.nodup_append] at h
  obtain ⟨hbefore, -, hdisjoint⟩ := h
  refine ⟨hbefore, ?_⟩
  intro id hid i hi hgen
  refine hdisjoint id (List.mem_filterMap.mpr ⟨i, hi, hgen⟩) id ?_ rfl
  rw [List.filterMap_cons_some hid]
  exact List.mem_cons_self ..

theorem consistent_run (J : Json.Codec) (options : HandshakeOptions) {inputs : List (Input A κ)}
    (hfresh : Fresh inputs) : Consistent inputs ((Node.new options).run J inputs) := by
  induction inputs using List.reverseRecOn with
  | nil => exact consistent_new options
  | append_singleton inputs input ih =>
    obtain ⟨hbefore, hlast⟩ := hfresh.of_concat
    rw [run, List.foldl_concat]
    exact (ih hbefore).step J input hlast

/-- The id that a handshake gives away is that of no socket. -/
theorem socketOf_of_fresh (J : Json.Codec) (options : HandshakeOptions)
    {inputs : List (Input A κ)} {input : Input A κ} (h : Fresh (inputs ++ [input])) {id : Str}
    (hid : input.generated = some id) : ((Node.new options).run J inputs).socketOf id = none := by
  obtain ⟨hbefore, hlast⟩ := h.of_concat
  cases hs : ((Node.new options).run J inputs).socketOf id with
  | none => rfl
  | some socket =>
    obtain ⟨i, hi, hgen⟩ := (consistent_run J options hbefore).known id socket hs
    exact absurd hgen (hlast id hid i hi)

theorem mem_takenOf {id : Str} {reason : SocketCloseReason} :
    .close id reason ∈ node.takenOf id ↔ .close id reason ∈ node.taken := by
  rw [takenOf, List.mem_filter]
  simp [SocketEvent.socketId]

theorem Consistent.orderly_eventsOf (h : Consistent past node) (id : Str) :
    ∀ es e later, node.eventsOf id = es ++ e :: later → isClose e = true → later = [] := by
  intro es e later he hclose
  rw [eventsOf] at he
  cases hs : node.socketOf id with
  | none =>
    rw [hs] at he
    exact absurd he.symm (List.append_ne_nil_of_right_ne_nil _ (List.cons_ne_nil _ _))
  | some socket =>
    rw [hs] at he
    exact (h.sound id socket hs).orderly.nothing_later he hclose

/-- A close is the last of what is taken from the channel for its connection. -/
theorem Consistent.close_last (h : Consistent past node) {id : Str}
    {before after : List SocketEvent} {reason : SocketCloseReason}
    (ht : node.takenOf id = before ++ .close id reason :: after) : after = [] := by
  have hfifo := h.fifo id
  rw [ht, List.append_assoc, List.cons_append] at hfifo
  have hnil := h.orderly_eventsOf id before (.close id reason) _ hfifo.symm rfl
  exact (List.append_eq_nil_iff.mp hnil).1

/-- For each connection, what the task has taken from the channel and what waits there are
together what its socket has sent, in that order. A close is taken last, and its connection is
not among the clients any more. -/
theorem taken_fifo (J : Json.Codec) (options : HandshakeOptions) (inputs : List (Input A κ))
    (hfresh : Fresh inputs) (id : Str) :
    let node := (Node.new options : Node A κ).run J inputs
    node.takenOf id ++ node.queueOf id = node.eventsOf id ∧
      ∀ before reason after, node.takenOf id = before ++ .close id reason :: after →
        after = [] ∧ IndexMap.get id node.server.clients = none := by
  intro node
  have h : Consistent inputs node := consistent_run J options hfresh
  refine ⟨h.fifo id, ?_⟩
  intro before reason after ht
  refine ⟨h.close_last ht, ?_⟩
  cases hget : IndexMap.get id node.server.clients with
  | none => rfl
  | some client =>
    have hmem : .close id reason ∈ node.taken := by
      rw [← mem_takenOf, ht]
      simp
    exact absurd hmem (h.client id client hget reason)

/-- A client that comes by polling, and whose transport is closed. -/
def comesAndGoes : List (Input (EngineIoWarp.StandaloneAdapter Base64.standard .wrapping) Unit) :=
  [.handleRequest ['a'] .poll none, .trySubscribe, .act ['a'] (.transportEvent .close), .recv]

theorem taken_fifo_comesAndGoes :
    let node := (Node.new default : Node _ Unit).run Json.standard comesAndGoes
    node.takenOf ['a'] ++ node.queueOf ['a'] = node.eventsOf ['a'] ∧
      ∀ before reason after, node.takenOf ['a'] = before ++ .close ['a'] reason :: after →
        after = [] ∧ IndexMap.get ['a'] node.server.clients = none :=
  taken_fifo Json.standard default comesAndGoes
    (List.nodup_singleton ['a']) ['a']

/-- Who is among the clients: a socket is while its close has neither been taken from the
channel nor asked for, and one that is closed has its close there. -/
theorem clients_exact (J : Json.Codec) (options : HandshakeOptions) (inputs : List (Input A κ))
    (hfresh : Fresh inputs) (id : Str) :
    let node := (Node.new options : Node A κ).run J inputs
    (node.socketOf id ≠ none → IndexMap.get id node.server.clients = none →
        (∃ reason, .close id reason ∈ node.taken) ∨ .closeSocket id ∈ inputs) ∧
      ∀ client, IndexMap.get id node.server.clients = some client →
        (∀ reason, .close id reason ∉ node.taken) ∧
          (client.state.ready = .closed ↔ ∃ reason, .close id reason ∈ node.queue) := by
  intro node
  have h : Consistent inputs node := consistent_run J options hfresh
  constructor
  · intro hheld hnone
    rw [socketOf, hnone, Option.none_or] at hheld
    obtain ⟨socket, hget⟩ := Option.ne_none_iff_exists'.mp hheld
    exact h.departed id socket hget
  · intro client hget
    have hsocket := socketOf_of_client hget
    have hsound := h.sound id client hsocket
    have hevents : node.eventsOf id = client.trace.events := by rw [eventsOf, hsocket]
    refine ⟨h.client id client hget, ?_⟩
    constructor
    · intro hclosed
      obtain ⟨-, -, es, e, he, hclose, -⟩ := hsound.orderly.closed hclosed
      have hmem : e ∈ client.trace.events := by
        rw [he]
        exact List.mem_append_right _ (List.mem_singleton_self e)
      have htag := hsound.events e hmem
      cases e with
      | close sid reason =>
        have hsid : sid = id := htag
        subst hsid
        -- the close has been taken or waits, and it has not been taken
        rw [← hevents, ← h.fifo sid] at hmem
        rcases List.mem_append.mp hmem with hmem | hmem
        · exact absurd (mem_takenOf.mp hmem) (h.client sid client hget reason)
        · exact ⟨reason, (List.mem_filter.mp hmem).1⟩
      | «open» | flush | drain | upgrade | heartbeat | message | error => cases hclose
    · rintro ⟨reason, hmem⟩
      have hq : SocketEvent.close id reason ∈ node.queueOf id :=
        List.mem_filter.mpr ⟨hmem, by simp [SocketEvent.socketId]⟩
      have hin : .close id reason ∈ node.eventsOf id := by
        rw [← h.fifo id]
        exact List.mem_append_right _ hq
      rw [hevents] at hin
      by_contra hne
      cases hsound.orderly.unclosed hne _ hin

theorem clients_exact_comesAndGoes :
    let node := (Node.new default : Node _ Unit).run Json.standard comesAndGoes
    (node.socketOf ['a'] ≠ none → IndexMap.get ['a'] node.server.clients = none →
        (∃ reason, .close ['a'] reason ∈ node.taken) ∨ .closeSocket ['a'] ∈ comesAndGoes) ∧
      ∀ client, IndexMap.get ['a'] node.server.clients = some client →
        (∀ reason, .close ['a'] reason ∉ node.taken) ∧
          (client.state.ready = .closed ↔ ∃ reason, .close ['a'] reason ∈ node.queue) :=
  clients_exact Json.standard default comesAndGoes
    (List.nodup_singleton ['a']) ['a']

end Node

end SocketIoRust.EngineIoServer
