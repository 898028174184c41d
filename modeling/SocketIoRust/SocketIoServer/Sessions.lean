import SocketIoRust.SocketIoServer.HandlerOrder
import SocketIoRust.SocketIoServer.Requests
import SocketIoRust.SocketIoParser.Grammar
import SocketIoRust.Library.Sessions

namespace SocketIoRust.SocketIoServer.Sessions

open Library Library.Refinement SocketIoParser HandlerOrder
open Connection (Pending)
open Library.Outcome (ok err)

section Operations

variable {D : Type} [Connection.Decoder D]
variable (decodeProtoPacket : Str → Outcome HandleEngineMessageError ProtoPacket)

/-- What an operation passes to `handle_packet_from_client`. -/
def delivered (shared : Shared D) : Operation → Option Delivery
  | .engineEvent (.message message) => (shared.handleNewMessage decodeProtoPacket message).2
  | _ => none

def operations : Machine (Shared D) Operation (Option Delivery) where
  step shared operation :=
    (shared.perform decodeProtoPacket operation, delivered decodeProtoPacket shared operation)

theorem operations_run (shared : Shared D) (ops : List Operation) :
    ((operations decodeProtoPacket).run shared ops).1 = shared.run decodeProtoPacket ops := by
  induction ops generalizing shared with
  | nil => rfl
  | cons operation ops ih =>
    rw [Machine.run_cons, ih]
    rfl

end Operations

def isMessageOf (e : Str) : Operation → Bool
  | .engineEvent (.message message) => decide (message.connectionId = e)
  | _ => false

def Closes (e : Str) (operation : Operation) : Prop :=
  ∃ reason, operation = .engineEvent (.close e reason)

theorem removeConnection_decoderOf {D : Type} (shared : Shared D) (e e' : Str) :
    (shared.removeConnection e').1.decoderOf e = if e = e' then none else shared.decoderOf e := by
  rw [Shared.decoderOf, Shared.decoderOf, Shared.removeConnection]
  split
  · dsimp only
    rw [IndexMap.get_erase]
    split <;> rfl
  · rename_i hnone
    split
    · rename_i he
      rw [he, hnone, Option.map_none]
    · rfl

variable {decodeProtoPacket : Str → Outcome HandleEngineMessageError ProtoPacket}
  {shared : Shared DefaultDecoder} {e : Str} {pending : Option Pending}

theorem keepsDecoder_setState {e' : Str} (he : e' ≠ e) (connection : Connection DefaultDecoder)
    (state : ConnectionState DefaultDecoder) :
    Shared.KeepsDecoder e shared (shared.setState connection e' state) := by
  rw [Shared.KeepsDecoder, Shared.decoderOf_setState, if_neg (Ne.symm he)]
  exact .inl rfl

/-- A message of another connection leaves what is pending alone. -/
theorem handleNewMessage_of_ne (shared : Shared DefaultDecoder) {message : Message}
    (hm : message.connectionId ≠ e) :
    Shared.KeepsDecoder e shared (shared.handleNewMessage decodeProtoPacket message).1 := by
  have hhandles := Shared.handleNewMessage_handles decodeProtoPacket shared message
  generalize shared.handleNewMessage decodeProtoPacket message = result at hhandles ⊢
  cases hhandles with
  | ignored => exact .inl rfl
  | failed error => exact .inl rfl
  | announced hdecode hget hset => exact keepsDecoder_setState hm _ _
  | decoded hdecode => exact Shared.handlePacketFromClient_keepsDecoders shared message _ e
  | collected buffer hget => exact keepsDecoder_setState hm _ _
  | reassembled hget hdone =>
    exact (keepsDecoder_setState hm _ _).trans
      (Shared.handlePacketFromClient_keepsDecoders _ message _ e)

variable (decodeProtoPacket) in
theorem perform_keepsDecoder (shared : Shared DefaultDecoder) {operation : Operation}
    (hown : isMessageOf e operation = false) (hopen : ¬ Closes e operation) :
    Shared.KeepsDecoder e shared (shared.perform decodeProtoPacket operation) := by
  cases operation with
  | getNamespace name =>
    exact Shared.KeepsDecoders.of_connections
      (Shared.getOrCreateNamespace_connections shared name) e
  | makeDynamicNamespace descriptor => exact .inl rfl
  | clientConnect context name e' auth environment =>
    exact Shared.handleClientConnect_keepsDecoders shared context name e' auth environment e
  | «of» descriptor =>
    cases descriptor with
    | text name =>
      exact Shared.KeepsDecoders.of_connections
        (Shared.getOrCreateNamespace_connections shared name) e
    | regex regex => exact .inl rfl
    | function f => exact .inl rfl
  | engineEvent event =>
    cases event with
    | connection connectionId | flush connectionId | drain connectionId | error connectionId =>
      exact .inl rfl
    | message message => exact handleNewMessage_of_ne shared (of_decide_eq_false hown)
    | close e' reason =>
      have he : e' ≠ e := by
        rintro rfl
        exact hopen ⟨reason, rfl⟩
      have hkeeps := removeConnection_decoderOf shared e e'
      rw [if_neg (Ne.symm he)] at hkeeps
      exact .inl hkeeps

def arrivalOfOperation (decodeProtoPacket : Str → Outcome HandleEngineMessageError ProtoPacket) :
    Operation → Arrival
  | .engineEvent (.message message) => arrivalOf decodeProtoPacket message
  | _ => .other

/-- Each connection has the server for itself. -/
theorem session (decodeProtoPacket : Str → Outcome HandleEngineMessageError ProtoPacket)
    (e : Str) :
    Session (operations decodeProtoPacket) arrivals (Holds e) (fun operation ↦ ¬ Closes e operation)
      (isMessageOf e) (arrivalOfOperation decodeProtoPacket) where
  step_own shared pending operation _ hown h := by
    cases operation with
    | engineEvent event =>
      cases event with
      | message message => exact handleNewMessage_simulates (of_decide_eq_true hown) h
      | _ => cases hown
    | _ => cases hown
  step_other shared pending operation hopen hown h :=
    (perform_keepsDecoder decodeProtoPacket shared hown hopen).some h

/-- Whatever has happened to a server, it knows nothing of a connection or has a record of it,
and what is pending there is a packet of which attachments are missing. -/
theorem exists_record (decodeProtoPacket : Str → Outcome HandleEngineMessageError ProtoPacket)
    (e : Str) (ops : List Operation) : ∃ record,
      HasRecord e ((Shared.new : Shared DefaultDecoder).run decodeProtoPacket ops) record := by
  have hstart : ∃ record, HasRecord e (Shared.new : Shared DefaultDecoder) record := ⟨none, rfl⟩
  refine Runs.foldl_invariant (I := fun shared ↦ ∃ record, HasRecord e shared record) ?_ hstart ops
  rintro shared operation ⟨record, h⟩
  by_cases hclose : Closes e operation
  · obtain ⟨reason, rfl⟩ := hclose
    exact ⟨none, (removeConnection_decoderOf shared e e).trans (if_pos rfl)⟩
  cases hown : isMessageOf e operation with
  | false =>
    rcases perform_keepsDecoder decodeProtoPacket shared hown hclose with hsame | ⟨-, hnew⟩
    · exact ⟨record, hsame.trans h⟩
    · exact ⟨some none, hnew⟩
  | true =>
    cases operation with
    | engineEvent event =>
      cases event with
      | message message =>
        obtain rfl : message.connectionId = e := of_decide_eq_true hown
        cases record with
        | some pending => exact ⟨some _, (handleNewMessage_simulates rfl h).1⟩
        | none => exact ⟨_, (handleNewMessage_unknown h).1⟩
      | connection | flush | drain | error | close => cases hown
    | getNamespace | makeDynamicNamespace | clientConnect | «of» => cases hown

/-- Whatever the server does for others in between, what is delivered for a connection is
what comes of its own messages, until it is closed. -/
theorem deliveries_own (decodeProtoPacket : Str → Outcome HandleEngineMessageError ProtoPacket)
    (shared : Shared DefaultDecoder) (e : Str) (pending : Option Pending)
    (h : Holds e shared pending) (ops : List Operation)
    (hopen : ∀ operation ∈ ops, ¬ Closes e operation) :
    (answersTo (isMessageOf e) ops ((operations decodeProtoPacket).run shared ops).2).reduceOption =
        received pending ((ops.filter (isMessageOf e)).map (arrivalOfOperation decodeProtoPacket)) ∧
      Holds e (shared.run decodeProtoPacket ops)
        (arrivals.run pending
          ((ops.filter (isMessageOf e)).map (arrivalOfOperation decodeProtoPacket))).1 := by
  obtain ⟨hlast, hanswers⟩ := (session decodeProtoPacket e).run h hopen
  rw [hanswers, ← operations_run]
  exact ⟨rfl, hlast⟩

def closeOf (e : Str) : Operation := .engineEvent (.close e .transportClosed)

def mixed : List Operation :=
  [.getNamespace ['a'], .engineEvent (.message (messageOf (.text "2[\"a\"]".toList))),
    closeOf ['f'], .engineEvent (.message (messageOf (.binary [1])))]

theorem deliveries_own_mixed :
    (answersTo (isMessageOf ['e']) mixed ((operations readText).run connected mixed).2).reduceOption =
        received none ((mixed.filter (isMessageOf ['e'])).map (arrivalOfOperation readText)) ∧
      Holds ['e'] (connected.run readText mixed)
        (arrivals.run none
          ((mixed.filter (isMessageOf ['e'])).map (arrivalOfOperation readText))).1 :=
  deliveries_own readText connected ['e'] none rfl mixed (by
    simp [mixed, Closes, closeOf])

section BinaryFrames

variable {J : Json.Codec} {o : Overflow}

/-- No connection waits for attachments. -/
def NoDecoder (shared : Shared DefaultDecoder) : Prop :=
  ∀ e decoder, shared.decoderOf e ≠ some (some decoder)

theorem NoDecoder.keeps {shared' : Shared DefaultDecoder} (h : NoDecoder shared)
    (hk : Shared.KeepsDecoders shared shared') : NoDecoder shared' :=
  fun e decoder hd ↦ h e decoder (hk.some_some hd)

theorem NoDecoder.decoder_eq_none (h : NoDecoder shared) {connection : Connection DefaultDecoder}
    (hget : IndexMap.get e shared.connections = some connection) :
    connection.state.decoder = none := by
  cases hd : connection.state.decoder with
  | none => rfl
  | some decoder => exact absurd (Shared.decoderOf_eq_some.mpr ⟨connection, hget, hd⟩) (h e decoder)

theorem setState_self {connection : Connection DefaultDecoder}
    (hget : IndexMap.get e shared.connections = some connection) :
    shared.setState connection e connection.state = shared := by
  rw [Shared.setState]
  have hinsert := IndexMap.insert_of_get hget
  cases connection
  rw [hinsert]

theorem decodeBinaryData_of_none {state : ConnectionState DefaultDecoder}
    (h : state.decoder = none) (buffer : Bytes) :
    Connection.decodeBinaryData state buffer = (state, err .invalidDecoderState) := by
  rw [Connection.decodeBinaryData, h]

theorem decodeProtoPacket_plain {text : Str} {packet : ProtoPacket}
    (h : DefaultDecoder.decodeProtoPacket J o text = ok packet) :
    ∃ p, packet = .plain p ∧ BinaryPacketType.tryFrom p.packetType = none := by
  obtain ⟨s, -, rfl⟩ := exists_sentence h
  exact ⟨s.packet, rfl, s.not_binary⟩

theorem handleNewMessage_noDecoder (h : NoDecoder shared) (message : Message) :
    NoDecoder (shared.handleNewMessage (DefaultDecoder.decodeProtoPacket J o) message).1 ∧
      ∀ d, (shared.handleNewMessage (DefaultDecoder.decodeProtoPacket J o) message).2 = some d →
        ∃ p, d = .decoded p ∧ BinaryPacketType.tryFrom p.packetType = none := by
  have hhandles :=
    Shared.handleNewMessage_handles (DefaultDecoder.decodeProtoPacket J o) shared message
  generalize shared.handleNewMessage _ message = result at hhandles ⊢
  cases hhandles with
  | ignored => exact ⟨h, fun d hd ↦ nomatch hd⟩
  | failed error => exact ⟨h.keeps (.of_connections rfl), fun d hd ↦ nomatch hd⟩
  | announced hdecode hget hset =>
    obtain ⟨p, hp, -⟩ := decodeProtoPacket_plain hdecode
    cases hp
  | @decoded text packet hdecode =>
    obtain ⟨p, hp, hplain⟩ := decodeProtoPacket_plain hdecode
    cases hp
    refine ⟨h.keeps (Shared.handlePacketFromClient_keepsDecoders shared message _), ?_⟩
    intro d hd
    cases hd
    exact ⟨packet, rfl, hplain⟩
  | @collected connection buffer hget =>
    rw [decodeBinaryData_of_none (h.decoder_eq_none hget), setState_self hget]
    exact ⟨h, fun d hd ↦ nomatch hd⟩
  | @reassembled connection buffer packet hget hdone =>
    rw [decodeBinaryData_of_none (h.decoder_eq_none hget)] at hdone
    cases hdone

def isBinaryFrame : Operation → Bool
  | .engineEvent (.message ⟨_, _, .binary _, _⟩) => true
  | _ => false

theorem perform_noDecoder (h : NoDecoder shared) (operation : Operation) :
    NoDecoder (shared.perform (DefaultDecoder.decodeProtoPacket J o) operation) ∧
      ∀ d, delivered (DefaultDecoder.decodeProtoPacket J o) shared operation = some d →
        ∃ p, d = .decoded p ∧ BinaryPacketType.tryFrom p.packetType = none := by
  cases operation with
  | getNamespace name =>
    exact ⟨h.keeps (.of_connections (Shared.getOrCreateNamespace_connections shared name)),
      fun d hd ↦ nomatch hd⟩
  | makeDynamicNamespace descriptor =>
    exact ⟨h.keeps (.of_connections rfl), fun d hd ↦ nomatch hd⟩
  | clientConnect context name e auth environment =>
    exact ⟨h.keeps (Shared.handleClientConnect_keepsDecoders shared context name e auth environment),
      fun d hd ↦ nomatch hd⟩
  | «of» descriptor =>
    cases descriptor with
    | text name =>
      exact ⟨h.keeps (.of_connections (Shared.getOrCreateNamespace_connections shared name)),
        fun d hd ↦ nomatch hd⟩
    | regex regex => exact ⟨h.keeps (.of_connections rfl), fun d hd ↦ nomatch hd⟩
    | function f => exact ⟨h.keeps (.of_connections rfl), fun d hd ↦ nomatch hd⟩
  | engineEvent event =>
    cases event with
    | connection connectionId | flush connectionId | drain connectionId | error connectionId =>
      exact ⟨h, fun d hd ↦ nomatch hd⟩
    | message message => exact handleNewMessage_noDecoder h message
    | close e reason =>
      refine ⟨?_, fun d hd ↦ nomatch hd⟩
      intro e' decoder hd
      have hremoved := (removeConnection_decoderOf shared e' e).symm.trans hd
      split at hremoved
      · cases hremoved
      · exact h e' decoder hremoved

theorem step_binaryFrame (h : NoDecoder shared) {operation : Operation}
    (hb : isBinaryFrame operation = true) :
    (operations (DefaultDecoder.decodeProtoPacket J o)).step shared operation = (shared, none) := by
  cases operation with
  | engineEvent event =>
    cases event with
    | message message =>
      obtain ⟨context, e, data, environment⟩ := message
      cases data with
      | binary buffer =>
        simp only [operations, Shared.perform, Shared.handleEngineEvent, delivered,
          Shared.handleNewMessage]
        cases hget : IndexMap.get e shared.connections with
        | none => rfl
        | some connection =>
          dsimp only
          rw [decodeBinaryData_of_none (h.decoder_eq_none hget), setState_self hget]
      | _ => cases hb
    | _ => cases hb
  | _ => cases hb

theorem noDecoder_new : NoDecoder (Shared.new : Shared DefaultDecoder) := by
  intro e decoder hd
  cases hd

/-- As texts are decoded, binary frames are noise to a server: what it is and what it
delivers in any run is the same without them, and no packet is ever put together. -/
theorem binaryFrames_ignored (J : Json.Codec) (o : Overflow) (ops : List Operation) :
    let server := operations (DefaultDecoder.decodeProtoPacket J o)
    let texts := ops.filter (fun operation ↦ !isBinaryFrame operation)
    (server.run Shared.new ops).1 = (server.run Shared.new texts).1 ∧
      (server.run Shared.new ops).2.reduceOption = (server.run Shared.new texts).2.reduceOption ∧
      NoDecoder (server.run Shared.new ops).1 ∧
      ∀ d ∈ (server.run Shared.new ops).2.reduceOption,
        ∃ p, d = .decoded p ∧ BinaryPacketType.tryFrom p.packetType = none := by
  intro server texts
  have hfilter := Machine.run_filter (C := server) (I := NoDecoder)
    (p := fun operation ↦ !isBinaryFrame operation) (fun _ _ h ↦ (perform_noDecoder h _).1)
    (fun _ _ h hp ↦ step_binaryFrame h (by simpa using hp)) noDecoder_new ops
  have hrun := server.run_invariant (I := NoDecoder)
    (P := fun answer ↦ ∀ d, answer = some d →
      ∃ p, d = .decoded p ∧ BinaryPacketType.tryFrom p.packetType = none)
    (fun _ operation h ↦ perform_noDecoder h operation) noDecoder_new ops
  refine ⟨hfilter.1, hfilter.2, hrun.1, ?_⟩
  intro d hd
  exact hrun.2 (some d) (List.reduceOption_mem_iff.mp hd) d rfl

end BinaryFrames

end SocketIoRust.SocketIoServer.Sessions
