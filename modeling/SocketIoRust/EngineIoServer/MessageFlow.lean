import SocketIoRust.EngineIoServer.Node
import SocketIoRust.Library.Sessions

namespace SocketIoRust.EngineIoServer.MessageFlow

open Library Library.Refinement EngineIoParser Lifecycle Evolution

/-- The message of a client, with the request context in which it came. -/
abbrev Message := RequestContext × PacketData

def messageOf : SocketEvent → Option Message
  | .message _ context data => some (context, data)
  | _ => none

/-- What is heard of a client by one who knows only whether its socket is open. -/
def hear {κ : Type} : Bool → Action κ → Bool × Option Message
  | true, .transportEvent (.packet context packet) =>
    (true, if packet.packetType = .message then some (context, packet.data) else none)
  | true, .transportEvent .drain => (true, none)
  | true, .transportEvent (.error _) => (false, none)
  | true, .transportEvent .close => (false, none)
  | true, .close _ => (false, none)
  | true, .sendPacket _ _ => (true, none)
  | false, _ => (false, none)

def heard {κ : Type} : Bool → List (Action κ) → List Message
  | _, [] => []
  | «open», action :: actions => (hear «open» action).2.toList ++ heard (hear «open» action).1 actions

variable {A κ : Type} [Adapter A] {socket socket' socket'' : Socket A κ}

def isOpen (socket : Socket A κ) : Bool := decide (socket.state.ready = .open)

def messages (socket : Socket A κ) : List Message := socket.trace.events.filterMap messageOf

/-- The socket is as ready as before, and no message has come. -/
structure Quiet (socket socket' : Socket A κ) : Prop where
  ready : socket'.state.ready = socket.state.ready
  messages : messages socket' = messages socket

theorem Quiet.refl (socket : Socket A κ) : Quiet socket socket := ⟨rfl, rfl⟩

theorem Quiet.trans (h : Quiet socket socket') (h' : Quiet socket' socket'') :
    Quiet socket socket'' := ⟨h'.ready.trans h.ready, h'.messages.trans h.messages⟩

theorem Quiet.isOpen (h : Quiet socket socket') :
    MessageFlow.isOpen socket' = MessageFlow.isOpen socket := by
  rw [MessageFlow.isOpen, h.ready]
  rfl

theorem messages_emit (socket : Socket A κ) (e : SocketEvent) :
    messages (socket.emit e) = messages socket ++ (messageOf e).toList := by
  refine List.filterMap_append.trans ?_
  cases h : messageOf e <;> simp [messages, h]

theorem emit_quiet (socket : Socket A κ) {e : SocketEvent} (he : messageOf e = none) :
    Quiet socket (socket.emit e) := by
  refine ⟨rfl, ?_⟩
  rw [messages_emit, he]
  exact List.append_nil _

theorem flush_quiet (socket : Socket A κ) : Quiet socket socket.flush.1 := by
  by_cases hf : socket.Flushes
  · rw [Socket.flush_of_flushes hf]
    refine ⟨rfl, ?_⟩
    exact List.filterMap_append.trans (List.append_nil _)
  · rw [Socket.flush_of_not_flushes hf]
    exact .refl socket

theorem sendPacket_quiet (socket : Socket A κ) (packet : Packet) (callback : Option κ) :
    Quiet socket (socket.sendPacket packet callback) := by
  rw [Socket.sendPacket]
  split
  · have hpush : Quiet socket
        { socket with state := socket.state.pushPacket packet callback } := ⟨rfl, rfl⟩
    exact hpush.trans (flush_quiet _)
  · exact .refl socket

theorem onDrain_quiet (socket : Socket A κ) : Quiet socket socket.onDrain := by
  obtain ⟨hready, -, -, hevents⟩ := onDrain_rests socket
  exact ⟨hready, congrArg (List.filterMap messageOf) hevents⟩

theorem handlePollingRequest_quiet (socket : Socket A κ) (context : RequestContext)
    (body : Option (Adapter.Body A)) :
    Quiet socket (socket.handlePollingRequest context body).1 := by
  have hflush := flush_quiet socket
  rw [Socket.handlePollingRequest]
  split
  · exact .refl socket
  split
  · exact .refl socket
  dsimp only
  split
  · split
    · rename_i heq
      rwa [heq] at hflush
    · rename_i heq
      rwa [heq] at hflush
  all_goals exact .refl socket

/-- An action means to a socket what is heard of it. -/
def Hears (socket : Socket A κ) (action : Action κ) (socket' : Socket A κ) : Prop :=
  isOpen socket' = (hear (isOpen socket) action).1 ∧
    messages socket' = messages socket ++ (hear (isOpen socket) action).2.toList

theorem Hears.quiet {action : Action κ} (h : Quiet socket socket')
    (hear_eq : hear (isOpen socket) action = (isOpen socket, none)) :
    Hears socket action socket' := by
  rw [Hears, hear_eq]
  exact ⟨h.isOpen, h.messages.trans (List.append_nil _).symm⟩

theorem hear_false (action : Action κ) : hear false action = (false, none) := by
  cases action <;> rfl

/-- The socket is not open any more, and no message has come. -/
structure Shuts (socket socket' : Socket A κ) : Prop where
  ready : socket'.state.ready ≠ .open
  messages : messages socket' = messages socket

theorem Hears.shut {action : Action κ} (h : Shuts socket socket')
    (hear_eq : hear (isOpen socket) action = (false, none)) : Hears socket action socket' := by
  rw [Hears, hear_eq]
  exact ⟨decide_eq_false h.ready, h.messages.trans (List.append_nil _).symm⟩

theorem onClose_shuts (socket : Socket A κ) (reason : SocketCloseReason) :
    Shuts socket (socket.onClose reason) := by
  rw [Socket.onClose]
  split
  · refine ⟨ReadyState.noConfusion, ?_⟩
    exact (messages_emit _ _).trans (List.append_nil _)
  · rename_i h
    rw [not_not] at h
    exact ⟨by rw [h]; exact ReadyState.noConfusion, rfl⟩

theorem close_shuts (socket : Socket A κ) (discard : Bool) :
    Shuts socket (socket.close discard) := by
  rw [Socket.close]
  split
  · dsimp only
    split <;> exact ⟨ReadyState.noConfusion, rfl⟩
  · rename_i h
    exact ⟨h, rfl⟩

theorem onTransportError_shuts (socket : Socket A κ) (error : TransportError) :
    Shuts socket (socket.onTransportError error) := by
  simp only [Socket.onTransportError]
  split
  · split <;> exact onClose_shuts socket _
  · rename_i h
    exact ⟨fun hopen ↦ h (.inr hopen), rfl⟩

theorem onPacket_hears (socket : Socket A κ) (context : RequestContext) (packet : Packet) :
    Hears socket (.transportEvent (.packet context packet)) (socket.onPacket context packet) := by
  by_cases hready : socket.state.ready = .open
  swap
  · rw [Socket.onPacket, if_neg hready]
    exact .shut ⟨hready, rfl⟩ (by rw [isOpen, decide_eq_false hready, hear_false])
  have hopen : isOpen socket = true := decide_eq_true hready
  rw [Socket.onPacket, if_pos hready]
  have hquiet {socket' : Socket A κ} (h : Quiet socket socket')
      (htype : packet.packetType ≠ .message) :
      Hears socket (.transportEvent (.packet context packet)) socket' := by
    refine .quiet h ?_
    rw [hopen, hear, if_neg htype]
  dsimp only
  split
  · rename_i htype
    exact hquiet ((sendPacket_quiet socket _ _).trans (emit_quiet _ rfl)) (by rw [htype]; decide)
  · rename_i htype
    split
    · have hdropped : Quiet socket socket.closeTransport := ⟨rfl, rfl⟩
      exact hquiet ((hdropped.trans (emit_quiet _ rfl)).trans (flush_quiet _))
        (by rw [htype]; decide)
    · exact hquiet (.refl socket) (by rw [htype]; decide)
  · rename_i htype
    rw [Hears, hopen, hear, if_pos htype]
    exact ⟨hopen, messages_emit socket _⟩
  · rename_i htype
    exact hquiet (.refl socket) htype

theorem perform_hears (socket : Socket A κ) (action : Action κ) :
    Hears socket action (action.perform socket) := by
  have hshut {socket' : Socket A κ} (h : Shuts socket socket')
      (ht : hear true action = (false, none)) : Hears socket action socket' := by
    refine .shut h ?_
    cases isOpen socket with
    | true => exact ht
    | false => exact hear_false action
  have hquiet {socket' : Socket A κ} (h : Quiet socket socket')
      (ht : hear true action = (true, none)) : Hears socket action socket' := by
    refine .quiet h ?_
    cases isOpen socket with
    | true => exact ht
    | false => exact hear_false action
  cases action with
  | sendPacket packet callback => exact hquiet (sendPacket_quiet socket packet callback) rfl
  | close discard => exact hshut (close_shuts socket discard) rfl
  | transportEvent event =>
    cases event with
    | error error => exact hshut (onTransportError_shuts socket error) rfl
    | packet context packet => exact onPacket_hears socket context packet
    | drain => exact hquiet ((flush_quiet socket).trans (onDrain_quiet _)) rfl
    | close => exact hshut (onClose_shuts socket _) rfl

section Sessions

open Node

variable {node : Node A κ} {id : Str}

/-- Someone who hears of one client: whether its socket is open, and its messages so far. -/
def listener : Machine (Bool × List Message) (Option (Action κ)) Unit where
  step heard
    | some action => (((hear heard.1 action).1, heard.2 ++ (hear heard.1 action).2.toList), ())
    | none => (heard, ())

theorem listener_run («open» : Bool) (before : List Message) (actions : List (Option (Action κ))) :
    (listener.run («open», before) actions).1.2 =
      before ++ heard «open» actions.reduceOption := by
  induction actions generalizing «open» before with
  | nil => exact (List.append_nil _).symm
  | cons action actions ih =>
    rw [Machine.run_cons]
    refine (ih _ _).trans ?_
    cases action with
    | some action =>
      rw [List.reduceOption_cons_of_some, heard, ← List.append_assoc]
      rfl
    | none => rw [List.reduceOption_cons_of_none]; rfl

def inputs (J : Json.Codec) : Machine (Node A κ) (Input A κ) Unit where
  step node input := (node.step J input, ())

theorem inputs_run (J : Json.Codec) (node : Node A κ) (is : List (Input A κ)) :
    ((inputs J).run node is).1 = node.run J is := by
  induction is generalizing node with
  | nil => rfl
  | cons input is ih =>
    rw [Machine.run_cons]
    exact ih _

/-- The action on the socket `id`. -/
def actionOn (id : Str) : Input A κ → Option (Action κ)
  | .act sid action => if sid = id then some action else none
  | _ => none

/-- What a node knows of the socket `id` is what is heard of it. -/
def Holds (id : Str) (node : Node A κ) (heard : Bool × List Message) : Prop :=
  ∃ socket, node.socketOf id = some socket ∧ heard = (isOpen socket, messages socket)

/-- A socket that a handshake has just opened. -/
theorem handshake_opened (J : Json.Codec) (server : Server A κ) (sid : Str)
    (context : RequestContext) (data : HandshakeData A) :
    Handshakes J server sid context data fun client ↦
      isOpen client = true ∧ messages client = [] := by
  have hkeep {socket socket' : Socket A κ} (hq : Quiet socket socket')
      (h : isOpen socket = true ∧ messages socket = []) :
      isOpen socket' = true ∧ messages socket' = [] :=
    ⟨hq.isOpen.trans h.1, hq.messages.trans h.2⟩
  refine ⟨?_, ?_, ?_⟩
  · rw [Socket.open]
    exact hkeep ((sendPacket_quiet _ _ _).trans (emit_quiet _ rfl)) ⟨rfl, rfl⟩
  · intro socket packet h
    exact hkeep (sendPacket_quiet socket packet none) h
  · intro socket context h
    exact hkeep (handlePollingRequest_quiet socket context none) h

/-- No other input makes a socket move. -/
theorem step_other {socket : Socket A κ} (J : Json.Codec) (input : Input A κ)
    (hown : actionOn id input = none) (hfresh : input.generated ≠ some id)
    (h : node.socketOf id = some socket) :
    ∃ socket', (node.step J input).socketOf id = some socket' ∧ Quiet socket socket' := by
  obtain ⟨socket', hsocket', hturn⟩ := step_known J h hfresh
  refine ⟨socket', hsocket', ?_⟩
  cases hturn with
  | rests => exact .refl socket
  | polled context body => exact handlePollingRequest_quiet socket context body
  | sent packet => exact sendPacket_quiet socket packet none
  | acted action hinput =>
    rw [hinput, actionOn, if_pos rfl] at hown
    cases hown

/-- A socket that was not there is open, and no message has come. -/
theorem step_new {socket : Socket A κ} (J : Json.Codec) (input : Input A κ)
    (h : node.socketOf id = none) (h' : (node.step J input).socketOf id = some socket) :
    input.generated = some id ∧ isOpen socket = true ∧ messages socket = [] := by
  obtain ⟨hgen, context, data, hsocket⟩ := step_created J h h'
  exact ⟨hgen, hsocket _ (handshake_opened J node.server id context data)⟩

/-- Each client has the node for itself. -/
theorem session (J : Json.Codec) (id : Str) :
    Session (inputs (A := A) (κ := κ) J) listener (Holds id)
      (fun input ↦ input.generated ≠ some id) (fun input ↦ (actionOn id input).isSome)
      (actionOn id) where
  step_own node heard input _ hown h := by
    obtain ⟨action, haction⟩ := Option.isSome_iff_exists.mp hown
    obtain ⟨socket, hsocket, rfl⟩ := h
    have hinput : input = .act id action := by
      cases input with
      | act sid a =>
        rw [actionOn] at haction
        split at haction
        · rename_i hsid
          cases haction
          rw [hsid]
        · cases haction
      | _ => cases haction
    rw [hinput]
    obtain ⟨hready, hmessages⟩ := perform_hears socket action
    refine ⟨⟨_, act_own hsocket action, ?_⟩, rfl⟩
    rw [hready, hmessages, actionOn, if_pos rfl]
    rfl
  step_other node heard input hfresh hown h := by
    obtain ⟨socket, hsocket, rfl⟩ := h
    have hnone : actionOn id input = none := Option.not_isSome_iff_eq_none.mp (by simp [hown])
    obtain ⟨socket', hsocket', hquiet⟩ := step_other J input hnone hfresh hsocket
    refine ⟨socket', hsocket', ?_⟩
    rw [hquiet.isOpen, hquiet.messages]

theorem reduceOption_actionOn (id : Str) (is : List (Input A κ)) :
    ((is.filter fun input ↦ (actionOn id input).isSome).map (actionOn id)).reduceOption =
      is.filterMap (actionOn id) := by
  induction is with
  | nil => rfl
  | cons input is ih =>
    cases h : actionOn id input with
    | some action =>
      rw [List.filter_cons_of_pos (by simp [h]), List.map_cons, h,
        List.reduceOption_cons_of_some, List.filterMap_cons_some h, ih]
    | none => rw [List.filter_cons_of_neg (by simp [h]), List.filterMap_cons_none h, ih]

/-- The messages of a connection that have been taken from the channel, and those that wait
there. -/
def messagesOf (id : Str) (node : Node A κ) : List Message :=
  (node.takenOf id ++ node.queueOf id).filterMap messageOf

theorem messagesOf_eq {past : List (Input A κ)} (h : Consistent past node) (id : Str) :
    messagesOf id node = (node.eventsOf id).filterMap messageOf := by
  rw [messagesOf, h.fifo id]

theorem Holds.run {«open» : Bool} {before : List Message} (h : Holds id node («open», before))
    (J : Json.Codec) {is : List (Input A κ)} (hfresh : ∀ input ∈ is, input.generated ≠ some id) :
    ∃ socket, (node.run J is).socketOf id = some socket ∧
      messages socket = before ++ heard «open» (is.filterMap (actionOn id)) := by
  obtain ⟨⟨socket, hsocket, hheard⟩, -⟩ := (session J id).run h hfresh
  rw [inputs_run] at hsocket
  refine ⟨socket, hsocket, ?_⟩
  have hmessages := congrArg Prod.snd hheard
  rw [listener_run, reduceOption_actionOn] at hmessages
  exact hmessages.symm

/-- The messages of a connection are, in order and each once, those of the packets that were
handled while its socket was open, whatever else happens on the server: they have all been
taken from the channel or wait there, and nothing else has. -/
theorem messages_exact (J : Json.Codec) (options : HandshakeOptions)
    (before after : List (Input A κ)) (hfresh : Fresh (before ++ after)) (id : Str) :
    let node := (Node.new options : Node A κ).run J before
    let node' := node.run J after
    (∀ socket, node.socketOf id = some socket →
      messagesOf id node' = messagesOf id node ++
        heard (isOpen socket) (after.filterMap (actionOn id))) ∧
    (node.socketOf id = none → ∀ input later, after = input :: later →
      (node.step J input).socketOf id ≠ none →
        messagesOf id node' = heard true (later.filterMap (actionOn id))) := by
  intro node node'
  have hsplit := hfresh
  rw [Fresh, List.filterMap_append, List.nodup_append] at hsplit
  obtain ⟨hbefore, hafter, hdisjoint⟩ := hsplit
  have h : Consistent before node := consistent_run J options hbefore
  have h' : Consistent (before ++ after) node' := by
    have hrun := consistent_run (A := A) J options hfresh
    rwa [Node.run, List.foldl_append] at hrun
  constructor
  · intro socket hsocket
    have hunused : ∀ input ∈ after, input.generated ≠ some id := by
      intro input hinput hgen
      obtain ⟨i, hi, hknown⟩ := h.known id socket hsocket
      exact hdisjoint id (List.mem_filterMap.mpr ⟨i, hi, hknown⟩) id
        (List.mem_filterMap.mpr ⟨input, hinput, hgen⟩) rfl
    obtain ⟨socket', hsocket', hmessages⟩ := Holds.run ⟨socket, hsocket, rfl⟩ J hunused
    rw [messagesOf_eq h', messagesOf_eq h, eventsOf, eventsOf, hsocket, hsocket']
    exact hmessages
  · rintro hnone input later rfl hnew
    obtain ⟨socket, hsocket⟩ := Option.ne_none_iff_exists'.mp hnew
    obtain ⟨hgen, hopen, hempty⟩ := step_new J input hnone hsocket
    rw [List.filterMap_cons_some hgen, List.nodup_cons] at hafter
    have hunused : ∀ input ∈ later, input.generated ≠ some id :=
      fun i hi hid ↦ hafter.1 (List.mem_filterMap.mpr ⟨i, hi, hid⟩)
    have hholds : Holds id (node.step J input) (true, []) :=
      ⟨socket, hsocket, by rw [hopen, hempty]⟩
    obtain ⟨socket', hsocket', hmessages⟩ := hholds.run J hunused
    have hrun : node'.socketOf id = some socket' := hsocket'
    rw [messagesOf_eq h', eventsOf, hrun]
    exact hmessages

/-- A client that comes by polling and sends a text. -/
def saysHello : List (Input (EngineIoWarp.StandaloneAdapter Base64.standard .wrapping) Unit) :=
  [.act ['a'] (.transportEvent (.packet .poll ⟨.message, .text "hello".toList⟩)), .trySubscribe,
    .recv]

theorem messages_exact_hello :
    let node := (Node.new default : Node _ Unit).run Json.standard [.handleRequest ['a'] .poll none]
    let node' := node.run Json.standard saysHello
    (∀ socket, node.socketOf ['a'] = some socket →
      messagesOf ['a'] node' = messagesOf ['a'] node ++
        heard (isOpen socket) (saysHello.filterMap (actionOn ['a']))) ∧
    (node.socketOf ['a'] = none → ∀ input later, saysHello = input :: later →
      (node.step Json.standard input).socketOf ['a'] ≠ none →
        messagesOf ['a'] node' = heard true (later.filterMap (actionOn ['a']))) :=
  messages_exact Json.standard default [.handleRequest ['a'] .poll none] saysHello
    (List.nodup_singleton ['a']) ['a']

end Sessions

end SocketIoRust.EngineIoServer.MessageFlow
