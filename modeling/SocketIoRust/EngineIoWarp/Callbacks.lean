import SocketIoRust.EngineIoServer.Conservation
import SocketIoRust.EngineIoServer.Node
import SocketIoRust.Library.Runs

namespace SocketIoRust.EngineIoWarp.Callbacks

open Library Library.Runs EngineIoParser EngineIoServer EngineIoServer.Node
open EngineIoServer.Conservation (batch_callbacks)
open EngineIoServer.Evolution (Handshakes)
open EngineIoServer.Lifecycle (Action)
open Websocket (Message subscribeToWebsocketMessages)

/-- The events that a transport sends: for the frames of a websocket, when these end, and for
a request by polling. -/
inductive Emits (B : Base64.Codec) (o : Overflow) : TransportEvent → Prop
  | frame {ε : Type} {results : List (Except ε Message)} {packet : Packet}
      (context : RequestContext) : .packet packet ∈ subscribeToWebsocketMessages results →
      Emits B o (.packet context packet)
  | ended {ε : Type} {results : List (Except ε Message)} :
      .close ∈ subscribeToWebsocketMessages results → Emits B o .close
  | requested {transport : Polling.WarpPollingTransport} {context : RequestContext}
      {body : Option Bytes} {event : TransportEvent} :
      event ∈ (transport.handleRequest B o context body).1 → Emits B o event

theorem Emits.ne_drain {B : Base64.Codec} {o : Overflow} {event : TransportEvent}
    (h : Emits B o event) : event ≠ .drain := by
  rintro rfl
  cases h with
  | requested h =>
    rw [Polling.WarpPollingTransport.handleRequest] at h
    split at h
    · cases h
    · simp only [Polling.WarpPollingTransport.handleDataRequest] at h
      split at h
      · obtain ⟨packet, -, hevent⟩ := List.mem_map.mp h
        cases hevent
      · cases h
      · cases h
    · cases h
    · cases h

section Socket

variable {A κ : Type} [Adapter A] {socket socket' socket'' : Socket A κ} {accepted : List κ}

/-- The callbacks that wait for a flush, and those that wait for a drain. -/
def held (socket : Socket A κ) : List κ :=
  socket.state.flushedCallbacks.flatMap CallbackBatch.callbacks ++ socket.state.pendingCallbacks

/-- The callback that an action gives to a socket which takes it. -/
def accepts (socket : Socket A κ) : Action κ → List κ
  | .sendPacket _ callback =>
    if socket.state.ready = .opening ∨ socket.state.ready = .open then callback.toList else []
  | .close _ => []
  | .transportEvent _ => []

/-- No callback is executed, and a socket that is not closed holds all that it has accepted. -/
structure Keeps (accepted : List κ) (socket : Socket A κ) : Prop where
  executed : socket.trace.executed = []
  held : held socket <+: accepted
  unclosed : socket.state.ready ≠ .closed → Callbacks.held socket = accepted

/-- The socket goes on with the same callbacks. -/
structure Same (socket socket' : Socket A κ) : Prop where
  executed : socket'.trace.executed = socket.trace.executed
  held : held socket' = held socket
  closed : socket.state.ready = .closed → socket'.state.ready = .closed

theorem Same.of_eq (hs : socket'.state.flushedCallbacks = socket.state.flushedCallbacks)
    (hp : socket'.state.pendingCallbacks = socket.state.pendingCallbacks)
    (hr : socket.state.ready = .closed → socket'.state.ready = .closed)
    (he : socket'.trace.executed = socket.trace.executed) : Same socket socket' :=
  ⟨he, by rw [Callbacks.held, Callbacks.held, hs, hp], hr⟩

theorem Same.refl (socket : Socket A κ) : Same socket socket := .of_eq rfl rfl id rfl

theorem Same.trans (h : Same socket socket') (h' : Same socket' socket'') : Same socket socket'' :=
  ⟨h'.executed.trans h.executed, h'.held.trans h.held, fun hc ↦ h'.closed (h.closed hc)⟩

theorem Keeps.same (h : Keeps accepted socket) (hs : Same socket socket') :
    Keeps accepted socket' := by
  refine ⟨hs.executed.trans h.executed, ?_, ?_⟩
  · rw [hs.held]
    exact h.held
  · intro hready
    rw [hs.held]
    exact h.unclosed fun hc ↦ hready (hs.closed hc)

theorem flush_same (socket : Socket A κ) : Same socket socket.flush.1 := by
  by_cases hf : socket.Flushes
  · rw [Socket.flush_of_flushes hf]
    refine ⟨rfl, ?_, id⟩
    rw [held, held, List.flatMap_append, batch_callbacks, List.append_nil]
  · rw [Socket.flush_of_not_flushes hf]
    exact .refl socket

theorem Keeps.sendPacket (h : Keeps accepted socket) (packet : Packet) (callback : Option κ) :
    Keeps (accepted ++ accepts socket (.sendPacket packet callback))
      (socket.sendPacket packet callback) := by
  rw [Socket.sendPacket, accepts]
  split
  · rename_i hready
    have hheld : Callbacks.held socket = accepted :=
      h.unclosed (by rcases hready with hr | hr <;> simp [hr])
    have hpushed : Keeps (accepted ++ callback.toList)
        { socket with state := socket.state.pushPacket packet callback } := by
      have heq : Callbacks.held { socket with
          state := socket.state.pushPacket packet callback } = accepted ++ callback.toList := by
        rw [← hheld, Callbacks.held, Callbacks.held, List.append_assoc]
        rfl
      exact ⟨h.executed, by rw [heq], fun _ ↦ heq⟩
    exact hpushed.same (flush_same _)
  · rw [List.append_nil]
    exact h

theorem sendPacket_same (socket : Socket A κ) (packet : Packet) :
    Same socket (socket.sendPacket packet none) := by
  rw [Socket.sendPacket]
  split
  · have hpush : Same socket { socket with state := socket.state.pushPacket packet none } :=
      .of_eq rfl (List.append_nil _) id rfl
    exact hpush.trans (flush_same _)
  · exact .refl socket

theorem close_same (socket : Socket A κ) (discard : Bool) : Same socket (socket.close discard) := by
  rw [Socket.close]
  split
  · rename_i hopen
    have hready : socket.state.ready = .closed → False := by
      rw [hopen]
      exact ReadyState.noConfusion
    dsimp only
    split <;> exact .of_eq rfl rfl (fun hc ↦ (hready hc).elim) rfl
  · exact .refl socket

/-- A close forgets the callbacks that wait for a flush. -/
theorem Keeps.onClose (h : Keeps accepted socket) (reason : SocketCloseReason) :
    Keeps accepted (socket.onClose reason) := by
  rw [Socket.onClose]
  split
  · refine ⟨h.executed, ?_, fun hready ↦ absurd rfl hready⟩
    refine List.IsPrefix.trans ?_ h.held
    change socket.state.flushedCallbacks.flatMap CallbackBatch.callbacks ++ [] <+: _
    rw [List.append_nil]
    exact List.prefix_append _ _
  · exact h

theorem Keeps.onTransportError (h : Keeps accepted socket) (error : TransportError) :
    Keeps accepted (socket.onTransportError error) := by
  simp only [Socket.onTransportError]
  split
  · split <;> exact h.onClose _
  · exact h

theorem onPacket_same (socket : Socket A κ) (context : RequestContext) (packet : Packet) :
    Same socket (socket.onPacket context packet) := by
  have hemit (socket : Socket A κ) (event : SocketEvent) : Same socket (socket.emit event) :=
    .of_eq rfl rfl id rfl
  rw [Socket.onPacket]
  dsimp only
  split
  swap
  · exact .refl socket
  split
  · exact (sendPacket_same socket _).trans (hemit _ _)
  · split
    · have hdropped : Same socket socket.closeTransport := .of_eq rfl rfl id rfl
      exact (hdropped.trans (hemit _ _)).trans (flush_same _)
    · exact .refl socket
  · exact hemit socket _
  · exact .refl socket

/-- Only a drain would execute a callback. -/
theorem Keeps.perform (h : Keeps accepted socket) {action : Action κ}
    (hdrain : action ≠ .transportEvent .drain) :
    Keeps (accepted ++ accepts socket action) (action.perform socket) := by
  cases action with
  | sendPacket packet callback => exact h.sendPacket packet callback
  | close discard =>
    rw [accepts, List.append_nil]
    exact h.same (close_same socket discard)
  | transportEvent event =>
    rw [accepts, List.append_nil]
    cases event with
    | error error => exact h.onTransportError error
    | packet context packet => exact h.same (onPacket_same socket context packet)
    | drain => exact absurd rfl hdrain
    | close => exact h.onClose _

theorem handlePollingRequest_same (socket : Socket A κ) (context : RequestContext)
    (body : Option (Adapter.Body A)) :
    Same socket (socket.handlePollingRequest context body).1 := by
  have hflush := flush_same socket
  rw [Socket.handlePollingRequest]
  split
  · exact .refl socket
  split
  · exact .refl socket
  dsimp only
  split
  · split
    · rename_i heq
      rwa [heq] at hflush
    · rename_i heq
      rwa [heq] at hflush
  all_goals exact .refl socket

/-- No callback comes with a handshake. -/
theorem handshake_keeps (J : Json.Codec) (server : Server A κ) (sid : Str)
    (context : RequestContext) (data : HandshakeData A) :
    Handshakes J server sid context data (Keeps []) := by
  refine ⟨?_, ?_, ?_⟩
  · have hopened : Keeps [] { Socket.new κ sid (server.handshakeContext sid context)
        (Server.transportCreateData context data) server.nextChannel with
        state := { (Socket.new κ sid (server.handshakeContext sid context)
          (Server.transportCreateData context data) server.nextChannel).state with
            ready := .open } } := ⟨rfl, List.prefix_rfl, fun _ ↦ rfl⟩
    exact (hopened.same (sendPacket_same _ _)).same (.of_eq rfl rfl id rfl)
  · intro socket packet h
    exact h.same (sendPacket_same socket packet)
  · intro socket context h
    exact h.same (handlePollingRequest_same socket context none)

end Socket

section Node

variable {A κ : Type} [Adapter A] {node : Node A κ} {log : List (Str × κ)} {id : Str}

/-- The callback that a socket takes, with the id of the socket. -/
def accepted (node : Node A κ) : Input A κ → List (Str × κ)
  | .act id action =>
    match node.socketOf id with
    | some socket => (accepts socket action).map fun callback ↦ (id, callback)
    | none => []
  | _ => []

theorem notesOf_accepted_of_ne {input : Input A κ} (h : ∀ action, input ≠ .act id action) :
    notesOf id (accepted node input) = [] := by
  cases input with
  | act sid action =>
    have hne : sid ≠ id := by
      rintro rfl
      exact h action rfl
    rw [accepted]
    split
    · rw [notesOf_map, if_neg hne]
    · rfl
  | _ => rfl

/-- The log has all callbacks that the sockets have accepted. -/
structure Accounts (node : Node A κ) (log : List (Str × κ)) : Prop where
  keeps : ∀ id socket, node.socketOf id = some socket → Keeps (notesOf id log) socket
  absent : ∀ id, node.socketOf id = none → notesOf id log = []

theorem accounts_new (options : HandshakeOptions) : Accounts (Node.new options : Node A κ) [] where
  keeps _ _ h := nomatch h
  absent _ _ := rfl

theorem Accounts.step (h : Accounts node log) (J : Json.Codec) {input : Input A κ}
    (hfresh : ∀ id, input.generated = some id → node.socketOf id = none)
    (hdrain : ∀ id, input ≠ .act id (.transportEvent .drain)) :
    Accounts (node.step J input) (log ++ accepted node input) := by
  have hnone {id : Str} (hid : node.socketOf id = none) :
      notesOf id (log ++ accepted node input) = [] := by
    rw [notesOf_append, h.absent id hid, List.nil_append]
    cases input with
    | act sid action =>
      by_cases hsid : sid = id
      · rw [accepted, hsid, hid]
        rfl
      · refine notesOf_accepted_of_ne ?_
        rintro action' heq
        cases heq
        exact hsid rfl
    | _ => rfl
  have hknown {id : Str} {socket : Socket A κ} (hid : node.socketOf id = some socket) :=
    step_known J hid fun hgen ↦ by
      rw [hfresh id hgen] at hid
      cases hid
  refine ⟨?_, ?_⟩
  · intro id socket' hsocket'
    cases hid : node.socketOf id with
    | none =>
      obtain ⟨-, context, data, hall⟩ := step_created J hid hsocket'
      rw [hnone hid]
      exact hall _ (handshake_keeps J node.server id context data)
    | some socket =>
      obtain ⟨socket'', hsocket'', hturn⟩ := hknown hid
      rw [hsocket'] at hsocket''
      cases hsocket''
      have hkeeps := h.keeps id socket hid
      rw [notesOf_append]
      cases hturn with
      | rests hno =>
        rw [notesOf_accepted_of_ne hno, List.append_nil]
        exact hkeeps
      | polled context body hno =>
        rw [notesOf_accepted_of_ne hno, List.append_nil]
        exact hkeeps.same (handlePollingRequest_same socket context body)
      | sent packet hno =>
        rw [notesOf_accepted_of_ne hno, List.append_nil]
        exact hkeeps.same (sendPacket_same socket packet)
      | acted action heq =>
        subst heq
        rw [accepted, hid, notesOf_map, if_pos rfl]
        refine hkeeps.perform ?_
        rintro rfl
        exact hdrain id rfl
  · intro id hid'
    cases hid : node.socketOf id with
    | none => exact hnone hid
    | some socket =>
      obtain ⟨socket', hsocket', -⟩ := hknown hid
      rw [hid'] at hsocket'
      cases hsocket'

end Node

/-- No one who gives a callback with a packet ever hears of it: no transport sends a drain, so
that no callback is executed. The sockets hold all that they have taken, in order, but for
those that a close forgets. -/
theorem never_executed {B : Base64.Codec} {o : Overflow} {κ : Type} (J : Json.Codec)
    (options : HandshakeOptions) {inputs : List (Input (StandaloneAdapter B o) κ)}
    (hfresh : Fresh inputs)
    (hevents : ∀ id event, .act id (.transportEvent event) ∈ inputs → Emits B o event) :
    let start : Node (StandaloneAdapter B o) κ := .new options
    ∀ id socket, (start.run J inputs).socketOf id = some socket →
      Keeps (notesOf id (noted (step J) accepted start inputs)) socket := by
  intro start
  have haccounts : Accounts (start.run J inputs) (noted (step J) accepted start inputs) := by
    induction inputs using List.reverseRecOn with
    | nil => exact accounts_new options
    | append_singleton inputs input ih =>
      rw [noted_concat, run, List.foldl_concat]
      refine (ih hfresh.of_concat.1 ?_).step J ?_ ?_
      · intro id event hmem
        exact hevents id event (List.mem_append_left _ hmem)
      · intro id hid
        exact socketOf_of_fresh J options hfresh hid
      · rintro id rfl
        exact (hevents id .drain (by simp)).ne_drain rfl
  exact haccounts.keeps

/-- A websocket on which a packet is sent with a callback, until the client closes it. -/
def sendsOnce : List (Input (StandaloneAdapter Base64.standard .wrapping) Unit) :=
  [.handleUpgrade ['a'] .poll ⟨0⟩,
    .act ['a'] (.sendPacket ⟨.message, .text "hello".toList⟩ (some ())),
    .act ['a'] (.transportEvent .close)]

theorem never_executed_once :
    let start : Node (StandaloneAdapter Base64.standard .wrapping) Unit := .new default
    ∀ id socket, (start.run Json.standard sendsOnce).socketOf id = some socket →
      Keeps (notesOf id (noted (step Json.standard) accepted start sendsOnce)) socket := by
  refine never_executed Json.standard default (List.nodup_singleton ['a']) ?_
  intro id event hmem
  have hclose : id = ['a'] ∧ event = .close := by simpa [sendsOnce] using hmem
  have hended : .close ∈ subscribeToWebsocketMessages ([] : List (Except Unit Message)) :=
    List.mem_singleton_self _
  rw [hclose.2]
  exact .ended hended

end SocketIoRust.EngineIoWarp.Callbacks
