import SocketIoRust.EngineIoWarp.AdapterWarp

namespace SocketIoRust.EngineIoServer

open Library EngineIoParser

structure CookieOptions where
  name : Str
  path : Str
  httpOnly : Bool
deriving DecidableEq, Repr

def SetCookie.fromCookieOptions (cookieOptions : Option CookieOptions) (value : Str) :
    Option SetCookie :=
  match cookieOptions with
  | some options => some ⟨options.name, value, options.path, options.httpOnly, true⟩
  | none => none

namespace RequestContext

def withSetCookie (self : RequestContext) (setCookie : Option SetCookie) : RequestContext :=
  { self with setCookie := setCookie }

def queryContainsKey (self : RequestContext) (key : Str) : Bool :=
  (IndexMap.get key self.query).isSome

end RequestContext

/-- The options of a server that its handshakes use. -/
structure HandshakeOptions extends ServerOptions where
  initialPacket : Option Packet
  cookie : Option CookieOptions
deriving DecidableEq, Repr

instance : Inhabited HandshakeOptions :=
  ⟨⟨⟨5000, 25000⟩, none, some ⟨"io".toList, "/".toList, true⟩⟩⟩

variable (A : Type) [Adapter A] in
inductive HandshakeData where
  | polling
  | webSocket : Adapter.WsHandle A → HandshakeData

/-- The events for the owner of a server, as far as a handshake issues them. -/
inductive ServerEvent where
  | connection : (connectionId : Str) → ServerEvent
deriving DecidableEq, Repr

/-- The clients of a server, the events for which it has called `send`, which it never
awaits, and the next channel that is not in use yet. -/
structure Server (A κ : Type) [Adapter A] where
  clients : List (Str × Socket A κ)
  events : List ServerEvent
  options : HandshakeOptions
  nextChannel : ℕ

variable {A κ : Type} [Adapter A]

def Socket.getTransportOrFail (socket : Socket A κ) : Except ServerError (Transport A) :=
  match socket.state.transport with
  | some transport => .ok transport
  | none => .error .unknown

def Socket.getTransportKind (socket : Socket A κ) : Option TransportKind :=
  socket.state.transport.map Transport.getTransportKind

namespace Server

/-- What is done to a client's socket, which the map only points to. -/
def updateClient (server : Server A κ) (sid : Str) (f : Socket A κ → Socket A κ) : Server A κ :=
  match IndexMap.get sid server.clients with
  | some client => { server with clients := IndexMap.insert sid (f client) server.clients }
  | none => server

def emit (server : Server A κ) (event : ServerEvent) : Server A κ :=
  { server with events := server.events ++ [event] }

def getClientOrError (server : Server A κ) (id : Str) : Except ServerError (Socket A κ) :=
  match IndexMap.get id server.clients with
  | some client => .ok client
  | none => .error .unknownSid

def supportsBinary (context : RequestContext) : Bool := !context.queryContainsKey "b64".toList

def jsonp (context : RequestContext) : Bool :=
  !supportsBinary context && !context.queryContainsKey "j".toList

def transportCreateData (context : RequestContext) : HandshakeData A → TransportCreateData A
  | .polling => .polling (jsonp context)
  | .webSocket socket => .webSocket (supportsBinary context) socket

def handshakeContext (server : Server A κ) (sid : Str) (context : RequestContext) :
    RequestContext :=
  context.withSetCookie (SetCookie.fromCookieOptions server.options.cookie sid)

/-- A handshake up to where it has to be answered: the client is registered, its socket is
opened and sends the initial packet. The subscriber to its transport is a task of its own. -/
def register (J : Json.Codec) (server : Server A κ) (sid : Str) (context : RequestContext)
    (data : HandshakeData A) : Server A κ :=
  let socket := Socket.new κ sid (server.handshakeContext sid context)
    (transportCreateData context data) server.nextChannel
  let server := { server with
    clients := IndexMap.insert sid socket server.clients
    nextChannel := server.nextChannel + 3 }
  let server := server.updateClient sid (·.open J server.options.toServerOptions)
  match server.options.initialPacket with
  | some initialMessagePacket => server.updateClient sid (·.sendPacket initialMessagePacket none)
  | none => server

/-- The rest of a handshake: a websocket is told that it is a bad request when all is done. -/
def respond (server : Server A κ) (sid : Str) (context : RequestContext) :
    Server A κ × Outcome ServerError (Str × Adapter.Response A) :=
  match server.getClientOrError sid with
  | .error e => (server, .err e)
  | .ok client =>
    match client.getTransportOrFail with
    | .error e => (server, .err e)
    | .ok (.polling _) =>
      match client.handlePollingRequest context none with
      | (client, _, .ok response) =>
        ((server.updateClient sid fun _ ↦ client).emit (.connection sid), .ok (sid, response))
      | (client, _, .err e) => (server.updateClient sid fun _ ↦ client, .err e)
      | (client, _, .panic) => (server.updateClient sid fun _ ↦ client, .panic)
    | .ok (.webSocket _) => (server.emit (.connection sid), .err .badRequest)

/-- The id is the one that was generated. -/
def handshake (J : Json.Codec) (server : Server A κ) (sid : Str) (context : RequestContext)
    (data : HandshakeData A) : Server A κ × Outcome ServerError (Str × Adapter.Response A) :=
  (server.register J sid context data).respond sid (server.handshakeContext sid context)

def verifyRequest (server : Server A κ) (sid : Option Str) (upgrade : Bool)
    (transportKind : TransportKind) (httpMethod : HttpMethod) : Except ServerError Unit :=
  match sid with
  | some sid =>
    match IndexMap.get sid server.clients with
    | some client =>
      if !upgrade && decide (some transportKind ≠ client.getTransportKind) then .error .badRequest
      else .ok ()
    | none => .error .unknownSid
  | none => if httpMethod ≠ .get then .error .badHandshakeMethod else .ok ()

def handleRequest (J : Json.Codec) (server : Server A κ) (generatedId : Str)
    (context : RequestContext) (body : Option (Adapter.Body A)) :
    Server A κ × Outcome ServerError (Adapter.Response A) :=
  let sid := IndexMap.get "sid".toList context.query
  match server.verifyRequest sid false context.transportKind context.httpMethod with
  | .error e => (server, .err e)
  | .ok () =>
    match sid with
    | some sid =>
      match server.getClientOrError sid with
      | .error e => (server, .err e)
      | .ok client =>
        let (client, _, result) := client.handlePollingRequest context body
        (server.updateClient sid fun _ ↦ client, result)
    | none =>
      let (server, result) := server.handshake J generatedId context .polling
      (server, result.map Prod.snd)

/-- A handshake that fails leaves no trace, and one that succeeds adds its client. -/
structure AllOrNothing (server server' : Server A κ)
    (result : Outcome ServerError (Str × Adapter.Response A)) : Prop where
  err : ∀ e, result = .err e → server'.clients = server.clients ∧ server'.events = server.events
  ok : ∀ sid response, result = .ok (sid, response) →
    IndexMap.get sid server.clients = none ∧ ∃ socket, ∀ id,
      IndexMap.get id server'.clients = if id = sid then some socket
        else IndexMap.get id server.clients

/-- The one difference between two servers is a client. -/
structure Registered (server server' : Server A κ) (sid : Str) (client : Socket A κ) : Prop where
  events : server'.events = server.events
  clients : ∀ id, IndexMap.get id server'.clients =
    if id = sid then some client else IndexMap.get id server.clients

theorem Registered.updateClient {server server' : Server A κ} {sid : Str} {client : Socket A κ}
    (h : Registered server server' sid client) (f : Socket A κ → Socket A κ) :
    Registered server (server'.updateClient sid f) sid (f client) := by
  have hclient : IndexMap.get sid server'.clients = some client := by
    rw [h.clients, if_pos rfl]
  rw [Server.updateClient, hclient]
  refine ⟨h.events, ?_⟩
  intro id
  rw [IndexMap.get_insert, h.clients]
  split <;> rfl

@[simp] theorem options_updateClient (server : Server A κ) (sid : Str)
    (f : Socket A κ → Socket A κ) : (server.updateClient sid f).options = server.options := by
  rw [updateClient]
  split <;> rfl

/-- An open socket that keeps its transport. -/
structure OpenOn (transport : Option (Transport A)) (socket : Socket A κ) : Prop where
  ready : socket.state.ready = .open
  transport : socket.state.transport = transport

theorem OpenOn.flush {transport : Option (Transport A)} {socket : Socket A κ}
    (h : OpenOn transport socket) : OpenOn transport socket.flush.1 := by
  by_cases hf : socket.Flushes
  · rw [Socket.flush_of_flushes hf]
    refine ⟨h.ready, ?_⟩
    dsimp only
    rw [Socket.transportAfterFlush, h.ready]
    exact h.transport
  · rw [Socket.flush_of_not_flushes hf]
    exact h

theorem OpenOn.sendPacket {transport : Option (Transport A)} {socket : Socket A κ}
    (h : OpenOn transport socket) (packet : Packet) (callback : Option κ) :
    OpenOn transport (socket.sendPacket packet callback) := by
  rw [Socket.sendPacket, if_pos (.inr h.ready)]
  exact OpenOn.flush ⟨h.ready, h.transport⟩

theorem openOn_open (J : Json.Codec) (options : ServerOptions) (socket : Socket A κ) :
    OpenOn socket.state.transport (socket.open J options) := by
  have hopen : OpenOn socket.state.transport
      ({ socket with state := { socket.state with ready := .open } } : Socket A κ) := ⟨rfl, rfl⟩
  have hsent := hopen.sendPacket
  exact ⟨(hsent _ _).ready, (hsent _ _).transport⟩

def newTransport (server : Server A κ) (sid : Str) (context : RequestContext)
    (data : HandshakeData A) : Transport A :=
  .create (server.handshakeContext sid context) (transportCreateData context data)
    ⟨server.nextChannel⟩ (server.nextChannel + 2)

theorem register_spec (J : Json.Codec) (server : Server A κ) (sid : Str) (context : RequestContext)
    (data : HandshakeData A) :
    ∃ client, OpenOn (some (server.newTransport sid context data)) client ∧
      Registered server (server.register J sid context data) sid client := by
  have hopen := openOn_open J server.options.toServerOptions (Socket.new κ sid
    (server.handshakeContext sid context) (transportCreateData context data) server.nextChannel)
  have hnew : Registered server { server with
      clients := IndexMap.insert sid (Socket.new κ sid (server.handshakeContext sid context)
        (transportCreateData context data) server.nextChannel) server.clients
      nextChannel := server.nextChannel + 3 } sid _ :=
    ⟨rfl, fun id ↦ IndexMap.get_insert sid id _ server.clients⟩
  have hopened := hnew.updateClient (·.open J server.options.toServerOptions)
  rw [register]
  simp only [options_updateClient]
  cases server.options.initialPacket with
  | none => exact ⟨_, hopen, hopened⟩
  | some packet =>
    exact ⟨_, hopen.sendPacket packet none, hopened.updateClient (·.sendPacket packet none)⟩

/-- What the polling transport of a new client replies to the request. -/
def handshakeReply (server : Server A κ) (sid : Str) (context : RequestContext) :
    Outcome ServerError (RequestReply (Adapter.Response A)) :=
  (Adapter.handleRequest (A := A)
    (Adapter.newPolling ⟨1024, none, jsonp context⟩ ⟨server.nextChannel + 2⟩ ⟨server.nextChannel⟩)
    (server.handshakeContext sid context) none).2

/-- The request is one by polling, and the transport replies with a response of its own. -/
def AnswersDirectly (server : Server A κ) (sid : Str) (context : RequestContext) :
    HandshakeData A → Prop
  | .polling => (∃ response, server.handshakeReply sid context = .ok (.response response)) ∨
      server.handshakeReply sid context = .panic
  | .webSocket _ => False

/-- The answer to a poll: a flush returns no packets that it could be answered with. -/
def pollAnswer {ρ : Type} : Outcome ServerError (RequestReply ρ) → Outcome ServerError ρ
  | .ok (.response response) => .ok response
  | .ok (.action .drain) => .err .badRequest
  | .ok (.action _) => .err .unknown
  | .err e => .err e
  | .panic => .panic

theorem handlePollingRequest_snd {socket : Socket A κ} {transport : Adapter.Polling A}
    (h : socket.state.transport = some (.polling transport)) (context : RequestContext)
    (body : Option (Adapter.Body A)) :
    (socket.handlePollingRequest context body).2.2 =
      pollAnswer (Adapter.handleRequest transport context body).2 := by
  have hflush := socket.flush_snd
  rw [Socket.handlePollingRequest, h]
  dsimp only [Transport.asPollingOrFail]
  generalize Adapter.handleRequest transport context body = answer
  obtain ⟨events, reply⟩ := answer
  cases reply with
  | ok reply =>
    cases reply with
    | action event =>
      cases event with
      | drain =>
        generalize socket.flush = flushed at hflush
        obtain ⟨flushed, packets⟩ := flushed
        cases hflush
        rfl
      | error | packet | close => rfl
    | response response => rfl
  | err e => rfl
  | panic => rfl

theorem getClientOrError_registered {server server' : Server A κ} {sid : Str}
    {client : Socket A κ} (h : Registered server server' sid client) :
    server'.getClientOrError sid = .ok client := by
  rw [getClientOrError, h.clients, if_pos rfl]

theorem getTransportOrFail_openOn {transport : Transport A} {socket : Socket A κ}
    (h : OpenOn (some transport) socket) : socket.getTransportOrFail = .ok transport := by
  rw [Socket.getTransportOrFail, h.transport]

theorem respond_webSocket {server server' : Server A κ} {sid : Str} {client : Socket A κ}
    {transport : Adapter.WebSocket A} (h : Registered server server' sid client)
    (ht : client.getTransportOrFail = .ok (.webSocket transport)) (context : RequestContext) :
    server'.respond sid context = (server'.emit (.connection sid), .err .badRequest) := by
  simp only [respond, getClientOrError_registered h, ht]

/-- The answer to a poll is the answer of the handshake, and the client stays in any case. -/
theorem respond_polling {server server' : Server A κ} {sid : Str} {client : Socket A κ}
    {transport : Adapter.Polling A} (h : Registered server server' sid client)
    (ht : client.getTransportOrFail = .ok (.polling transport)) (context : RequestContext) :
    (∃ client', ∀ id, IndexMap.get id (server'.respond sid context).1.clients =
      if id = sid then some client' else IndexMap.get id server.clients) ∧
      (server'.respond sid context).2 =
        (client.handlePollingRequest context none).2.2.map fun response ↦ (sid, response) := by
  simp only [respond, getClientOrError_registered h, ht]
  generalize client.handlePollingRequest context none = answer
  obtain ⟨client', events, result⟩ := answer
  have hclients := (h.updateClient fun _ ↦ client').clients
  cases result with
  | ok response => exact ⟨⟨client', hclients⟩, rfl⟩
  | err e => exact ⟨⟨client', hclients⟩, rfl⟩
  | panic => exact ⟨⟨client', hclients⟩, rfl⟩

/-- However a handshake ends, its client is there, and it fails unless it is answered
directly. -/
theorem handshake_spec (J : Json.Codec) (server : Server A κ) (sid : Str)
    (context : RequestContext) (data : HandshakeData A) :
    (∃ client, ∀ id, IndexMap.get id (server.handshake J sid context data).1.clients =
      if id = sid then some client else IndexMap.get id server.clients) ∧
      ((∃ e, (server.handshake J sid context data).2 = .err e) ↔
        ¬ server.AnswersDirectly sid context data) ∧
      ∀ sid' response, (server.handshake J sid context data).2 = .ok (sid', response) →
        sid' = sid := by
  obtain ⟨client, hopen, hreg⟩ := server.register_spec J sid context data
  have htransport := getTransportOrFail_openOn hopen
  cases data with
  | webSocket socket =>
    rw [handshake, respond_webSocket hreg htransport]
    refine ⟨⟨client, hreg.clients⟩, ?_, ?_⟩
    · simp [AnswersDirectly]
    · simp
  | polling =>
    obtain ⟨hclients, hsnd⟩ := respond_polling hreg htransport (server.handshakeContext sid context)
    refine ⟨hclients, ?_⟩
    have hanswer : (client.handlePollingRequest (server.handshakeContext sid context) none).2.2 =
        pollAnswer (server.handshakeReply sid context) := handlePollingRequest_snd hopen.transport _ _
    rw [handshake, hsnd, hanswer, AnswersDirectly]
    generalize server.handshakeReply sid context = reply
    cases reply with
    | ok reply =>
      cases reply with
      | action event => cases event <;> simp [pollAnswer]
      | response response => simp [pollAnswer]
    | err e => simp [pollAnswer]
    | panic => simp [pollAnswer]

theorem handshake_allOrNothing_iff (J : Json.Codec) {server : Server A κ} {sid : Str}
    (hfresh : IndexMap.get sid server.clients = none) (context : RequestContext)
    (data : HandshakeData A) :
    AllOrNothing server (server.handshake J sid context data).1
        (server.handshake J sid context data).2 ↔ server.AnswersDirectly sid context data := by
  obtain ⟨⟨client, hclients⟩, herr, hok⟩ := server.handshake_spec J sid context data
  constructor
  · intro h
    by_contra hnot
    obtain ⟨e, he⟩ := herr.mpr hnot
    have hsid := hclients sid
    rw [(h.err e he).1, hfresh, if_pos rfl] at hsid
    cases hsid
  · intro h
    refine ⟨?_, ?_⟩
    · intro e he
      exact absurd h (herr.mp ⟨e, he⟩)
    · intro sid' response hresult
      obtain rfl := hok sid' response hresult
      exact ⟨hfresh, client, hclients⟩

end Server

def emptyServer : Server (EngineIoWarp.StandaloneAdapter Base64.standard .wrapping) Unit :=
  ⟨[], [], default, 0⟩

theorem handshake_allOrNothing_options :
    Server.AllOrNothing emptyServer
      (emptyServer.handshake Json.standard ['a'] { RequestContext.poll with httpMethod := .options }
        .polling).1
      (emptyServer.handshake Json.standard ['a'] { RequestContext.poll with httpMethod := .options }
        .polling).2 :=
  (Server.handshake_allOrNothing_iff Json.standard rfl _ _).mpr (.inl ⟨_, rfl⟩)

/-- The first poll of a client is refused, and the client stays. -/
theorem handshake_poll_refused :
    (emptyServer.handshake Json.standard ['a'] .poll .polling).2 = .err .badRequest ∧
      ((emptyServer.handshake Json.standard ['a'] .poll .polling).1.clients.map Prod.fst) =
        [['a']] ∧
      ¬ ∀ (server : Server (EngineIoWarp.StandaloneAdapter Base64.standard .wrapping) Unit)
        (sid : Str) (context : RequestContext) (data), IndexMap.get sid server.clients = none →
          Server.AllOrNothing server (server.handshake Json.standard sid context data).1
            (server.handshake Json.standard sid context data).2 := by
  refine ⟨rfl, rfl, ?_⟩
  intro h
  have herr := ((h emptyServer ['a'] .poll .polling rfl).err .badRequest rfl).1
  cases herr

open EngineIoWarp.Polling EngineIoWarp.Polling.WarpPollingTransport in
/-- The polling transport leaves everything but a GET and a POST to no socket. -/
theorem Server.answersDirectly_warp_iff {B : Base64.Codec} {o : Overflow}
    (server : Server (EngineIoWarp.StandaloneAdapter B o) κ) (sid : Str) (context : RequestContext)
    (data : HandshakeData (EngineIoWarp.StandaloneAdapter B o)) :
    server.AnswersDirectly sid context data ↔
      data = .polling ∧ context.httpMethod ≠ .get ∧ context.httpMethod ≠ .post := by
  cases data with
  | webSocket socket => simp [AnswersDirectly]
  | polling =>
    have hreply : server.handshakeReply sid context =
        (WarpPollingTransport.handleRequest B o
          (.new ⟨1024, none, jsonp context⟩ ⟨server.nextChannel + 2⟩ ⟨server.nextChannel⟩)
          (server.handshakeContext sid context) none).2 := rfl
    have hmethod : (server.handshakeContext sid context).httpMethod = context.httpMethod := rfl
    rw [AnswersDirectly, hreply, WarpPollingTransport.handleRequest, hmethod]
    generalize (WarpPollingTransport.new _ _ _).mode = mode
    cases context.httpMethod with
    | get => simp [handlePollRequest]
    | post => simp [handleDataRequest]
    | options => cases mode <;> simp [handleOptionsRequest, respondWithStatusCodeOnly]
    | put | delete | head | trace | connect | patch => simp [respondWithStatusCodeOnly]

/-- Only a GET may begin a handshake, and a GET is a poll: no one gets in by polling. -/
theorem Server.handleRequest_refused {B : Base64.Codec} {o : Overflow} (J : Json.Codec)
    (server : Server (EngineIoWarp.StandaloneAdapter B o) κ) (generatedId : Str)
    {context : RequestContext} (h : IndexMap.get "sid".toList context.query = none)
    (body : Option Bytes) :
    ∃ e, (server.handleRequest J generatedId context body).2 = .err e := by
  rw [handleRequest, h]
  dsimp only
  rw [verifyRequest]
  by_cases hmethod : context.httpMethod = .get
  · have hnot : ¬ server.AnswersDirectly generatedId context .polling := by
      rw [answersDirectly_warp_iff]
      exact fun h ↦ h.2.1 hmethod
    obtain ⟨-, herr, -⟩ := server.handshake_spec J generatedId context .polling
    obtain ⟨e, he⟩ := herr.mpr hnot
    refine ⟨e, ?_⟩
    rw [if_neg (not_not.mpr hmethod)]
    dsimp only
    rw [he, Outcome.map_err]
  · refine ⟨.badHandshakeMethod, ?_⟩
    rw [if_pos hmethod]

end SocketIoRust.EngineIoServer
