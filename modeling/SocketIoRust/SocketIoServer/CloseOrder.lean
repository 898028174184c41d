import SocketIoRust.SocketIoServer.Moves
import SocketIoRust.SocketIoServer.Lookup

namespace SocketIoRust.SocketIoServer.Shared

open Library Library.Runs SocketIoParser Lookup

variable {D : Type} {shared shared' : Shared D} {e : Str}

/-- The server has no trace of the engine connection. -/
structure NoRecord (shared : Shared D) (e : Str) : Prop where
  connections : IndexMap.get e shared.connections = none
  connectionLookup : ∀ s, IndexMap.get s shared.connectionLookup ≠ some e

/-- What is looked up for the connection is there, and it has recorded nothing. -/
structure Tracked (shared : Shared D) (e : Str) : Prop where
  lookup : ∀ s, IndexMap.get s shared.connectionLookup = some e → Owns shared e s
  unrecorded : (shared.connectionOf e).state.namespaces = []

theorem NoRecord.tracked (h : NoRecord shared e) : Tracked shared e := by
  refine ⟨fun s hs ↦ absurd hs (h.connectionLookup s), ?_⟩
  rw [connectionOf, h.connections]
  rfl

theorem Tracked.noRecord_iff (h : Tracked shared e) :
    NoRecord shared e ↔ IndexMap.get e shared.connections = none := by
  constructor
  · exact NoRecord.connections
  · intro hnone
    refine ⟨hnone, ?_⟩
    intro s hs
    obtain ⟨connection, hget, -⟩ := h.lookup s hs
    rw [hnone] at hget
    cases hget

/-- Nothing has been done for the connection; at most it cannot be found any more. -/
structure Apart (e : Str) (shared shared' : Shared D) : Prop where
  connections : (IndexMap.get e shared'.connections).map Connection.records =
    (IndexMap.get e shared.connections).map Connection.records
  connectionLookup : ∀ s, IndexMap.get s shared'.connectionLookup = some e →
    IndexMap.get s shared.connectionLookup = some e

theorem Quiet.apart (h : Quiet shared shared') (e : Str) : Apart e shared shared' :=
  ⟨h.connections e, fun _ hs ↦ h.connectionLookup ▸ hs⟩

theorem Apart.trans {shared'' : Shared D} (h : Apart e shared shared')
    (h' : Apart e shared' shared'') : Apart e shared shared'' :=
  ⟨h'.connections.trans h.connections, fun s hs ↦ h.connectionLookup s (h'.connectionLookup s hs)⟩

theorem Apart.get_eq_none (h : Apart e shared shared') :
    IndexMap.get e shared'.connections = none ↔ IndexMap.get e shared.connections = none := by
  rw [← Option.map_eq_none_iff (f := Connection.records), h.connections, Option.map_eq_none_iff]

theorem Apart.owns (h : Apart e shared shared') {s : Str} (ho : Owns shared e s) :
    Owns shared' e s := by
  obtain ⟨connection, hget, hs⟩ := ho
  obtain ⟨connection', hget', hsockets, -⟩ := get_of_records h.connections.symm hget
  rw [Connection.iterSocketIds, hsockets] at hs
  exact ⟨connection', hget', hs⟩

theorem Tracked.apart (h : Tracked shared e) (hapart : Apart e shared shared') :
    Tracked shared' e := by
  refine ⟨fun s hs ↦ hapart.owns (h.lookup s (hapart.connectionLookup s hs)), ?_⟩
  have hold := h.unrecorded
  rw [connectionOf] at hold ⊢
  cases hget' : IndexMap.get e shared'.connections with
  | none => rfl
  | some connection' =>
    obtain ⟨connection, hget, -, hnamespaces⟩ := get_of_records hapart.connections hget'
    rw [hget] at hold
    exact hnamespaces.trans hold

theorem apart_addConnection {e' : Str} (he : e' ≠ e) (ns : SimpleNamespace)
    (handshake : Handshake) (generatedId : Str) :
    Apart e shared (shared.addConnection ns e' handshake generatedId).1 := by
  obtain ⟨connection, socketId, hconnections, hlookup⟩ :=
    addConnection_inserts shared ns e' handshake generatedId
  constructor
  · rw [hconnections, IndexMap.get_insert, if_neg (Ne.symm he)]
  · intro s hs
    rw [hlookup, IndexMap.get_insert] at hs
    split at hs
    · exact absurd (Option.some.inj hs) he
    · exact hs

theorem Tracked.addConnection (h : Tracked shared e) (ns : SimpleNamespace)
    (handshake : Handshake) (generatedId : Str) :
    Tracked (shared.addConnection ns e handshake generatedId).1 e ∧
      IndexMap.get e (shared.addConnection ns e handshake generatedId).1.connections ≠ none := by
  rw [addConnection_eq h.unrecorded]
  have hget : IndexMap.get e (IndexMap.insert e ((shared.connectionOf e).withSocket
      (Socket.new handshake ns.name generatedId)) shared.connections) =
      some ((shared.connectionOf e).withSocket (Socket.new handshake ns.name generatedId)) :=
    (IndexMap.get_insert e e _ _).trans (if_pos rfl)
  refine ⟨⟨?_, ?_⟩, ?_⟩
  · intro s hs
    refine ⟨_, hget, IndexMap.mem_keys_insert.mpr ?_⟩
    dsimp only at hs
    rw [IndexMap.get_insert] at hs
    split at hs
    · rename_i hid
      exact .inl hid
    · obtain ⟨connection, hold, hmem⟩ := h.lookup s hs
      rw [connectionOf, hold]
      exact .inr hmem
  · rw [connectionOf, hget]
    exact h.unrecorded
  · dsimp only
    rw [hget]
    exact Option.some_ne_none _

theorem Tracked.removeConnection (h : Tracked shared e) :
    NoRecord (shared.removeConnection e).1 e := by
  classical
  constructor
  · rw [Shared.removeConnection]
    split
    · dsimp only
      rw [IndexMap.get_erase, if_pos rfl]
    · assumption
  · intro s hs
    rw [removeConnection_lookup] at hs
    split at hs
    · cases hs
    · rename_i hno
      exact hno (h.lookup s hs)

theorem apart_removeConnection {e' : Str} (he : e' ≠ e) :
    Apart e shared (shared.removeConnection e').1 := by
  classical
  constructor
  · rw [Shared.removeConnection]
    split
    · dsimp only
      rw [IndexMap.get_erase, if_neg (Ne.symm he)]
    · rfl
  · intro s hs
    rw [removeConnection_lookup] at hs
    split at hs
    · cases hs
    · exact hs

variable [Connection.Decoder D]
variable (decodeProtoPacket : Str → Outcome HandleEngineMessageError ProtoPacket)

/-- The event is a connect request of `e` which the server admits. -/
def Connects (e : Str) (shared : Shared D) (event : EngineEvent) : Prop :=
  ∃ message packet, event = .message message ∧ message.connectionId = e ∧
    shared.connectRequest decodeProtoPacket message = some packet ∧
      shared.Admits packet.nsp packet.data

def Closes (e : Str) (event : EngineEvent) : Prop := ∃ reason, event = .close e reason

/-- What the handler of an event does for `e`: it removes the connection, adds a socket to
it, or does neither. -/
theorem handleEngineEvent_cases (e : Str) (shared : Shared D) (event : EngineEvent) :
    (Closes e event ∧
      shared.handleEngineEvent decodeProtoPacket event = (shared.removeConnection e).1) ∨
    (Connects decodeProtoPacket e shared event ∧ ∃ shared' ns handshake generatedId,
      Apart e shared shared' ∧ shared.handleEngineEvent decodeProtoPacket event =
        (shared'.addConnection ns e handshake generatedId).1) ∨
    (¬ Closes e event ∧ ¬ Connects decodeProtoPacket e shared event ∧
      Apart e shared (shared.handleEngineEvent decodeProtoPacket event)) := by
  have hrefl := (Quiet.refl shared).apart e
  cases event with
  | connection connectionId | flush connectionId | drain connectionId | error connectionId =>
    exact .inr (.inr ⟨by simp [Closes], by simp [Connects], hrefl⟩)
  | close connectionId reason =>
    by_cases he : connectionId = e
    · subst he
      exact .inl ⟨⟨reason, rfl⟩, rfl⟩
    · exact .inr (.inr ⟨by simp [Closes, he], by simp [Connects], apart_removeConnection he⟩)
  | message message =>
    have hcloses : ¬ Closes e (.message message) := by simp [Closes]
    cases hrequest : shared.connectRequest decodeProtoPacket message with
    | none =>
      exact .inr (.inr ⟨hcloses, by simp [Connects, hrequest],
        (handleNewMessage_of_none hrequest).apart e⟩)
    | some packet =>
      obtain ⟨shared', hquiet, heq⟩ := handleNewMessage_of_some hrequest
      rw [handleEngineEvent, heq]
      by_cases hadmits : shared.Admits packet.nsp packet.data
      · obtain ⟨shared'', ns, hconnections, hlookup, heq'⟩ :=
          handleClientConnect_adds ((hquiet.admits packet.nsp packet.data).mpr hadmits)
            message.context message.connectionId message.environment
        have hapart : Apart e shared shared'' := by
          refine ⟨?_, ?_⟩
          · rw [hconnections]
            exact (hquiet.apart e).connections
          · rw [hlookup]
            exact (hquiet.apart e).connectionLookup
        rw [heq']
        by_cases he : message.connectionId = e
        · rw [he]
          exact .inr (.inl ⟨⟨message, packet, rfl, he, hrequest, hadmits⟩, shared'', ns, _, _,
            hapart, rfl⟩)
        · exact .inr (.inr ⟨hcloses, by simp [Connects, he],
            hapart.trans (apart_addConnection he ns _ _)⟩)
      · have hrefused := (hquiet.admits packet.nsp packet.data).not.mpr hadmits
        rw [handleClientConnect_of_not_admits hrefused]
        exact .inr (.inr ⟨hcloses, by simp [Connects, hrequest, hadmits], hquiet.apart e⟩)

/-- The record of a connection is set by the connect requests and cleared by the close. -/
theorem handleEngineEvent_marks (e : Str) :
    Marks (handleEngineEvent (D := D) decodeProtoPacket) (Connects decodeProtoPacket e) (Closes e)
      (Tracked · e) (¬ NoRecord · e) := by
  have hexcludes {shared : Shared D} {event : EngineEvent}
      (hconnects : Connects decodeProtoPacket e shared event) : ¬ Closes e event := by
    obtain ⟨message, packet, rfl, -⟩ := hconnects
    simp [Closes]
  refine ⟨?_, ?_, ?_, ?_⟩
  · intro shared event h
    rcases handleEngineEvent_cases decodeProtoPacket e shared event with
      ⟨-, heq⟩ | ⟨-, shared', ns, handshake, generatedId, hapart, heq⟩ | ⟨-, -, hapart⟩
    · rw [heq]
      exact h.removeConnection.tracked
    · rw [heq]
      exact ((h.apart hapart).addConnection ns handshake generatedId).1
    · exact h.apart hapart
  · intro shared event h hconnects
    rcases handleEngineEvent_cases decodeProtoPacket e shared event with
      ⟨hcloses, -⟩ | ⟨-, shared', ns, handshake, generatedId, hapart, heq⟩ | ⟨-, hno, -⟩
    · exact absurd hcloses (hexcludes hconnects)
    · rw [heq]
      intro hnone
      exact ((h.apart hapart).addConnection ns handshake generatedId).2 hnone.connections
    · exact absurd hconnects hno
  · intro shared event h hcloses
    rcases handleEngineEvent_cases decodeProtoPacket e shared event with
      ⟨-, heq⟩ | ⟨hconnects, -⟩ | ⟨hno, -⟩
    · rw [heq, not_not]
      exact h.removeConnection
    · exact absurd hcloses (hexcludes hconnects)
    · exact absurd hcloses hno
  · intro shared event h hconnects hcloses
    rcases handleEngineEvent_cases decodeProtoPacket e shared event with
      ⟨hyes, -⟩ | ⟨hyes, -⟩ | ⟨-, -, hapart⟩
    · exact absurd hyes hcloses
    · exact absurd hyes hconnects
    · rw [(h.apart hapart).noRecord_iff, h.noRecord_iff, hapart.get_eq_none]

/-- The events of a connection leave no record of it exactly if every connect request that
is admitted is handled before some close. -/
theorem handleEngineEvents_noRecord_iff (h : NoRecord shared e) (order : List EngineEvent) :
    NoRecord (order.foldl (handleEngineEvent decodeProtoPacket) shared) e ↔
      ∀ before event after, order = before ++ event :: after →
        Connects decodeProtoPacket e (before.foldl (handleEngineEvent decodeProtoPacket) shared)
          event → ∃ later ∈ after, Closes e later := by
  have hmarks := handleEngineEvent_marks (D := D) decodeProtoPacket e
  rw [← not_remains_iff, ← hmarks.foldl_iff h.tracked (not_not.mpr h) order, not_not]

/-- So it is when the events are handled as they come. -/
theorem handleEngineEvents_noRecord_of_close (h : NoRecord shared e) (events : List EngineEvent)
    {close : EngineEvent} (hclose : Closes e close) :
    NoRecord ((events ++ [close]).foldl (handleEngineEvent decodeProtoPacket) shared) e := by
  have hmarks := handleEngineEvent_marks (D := D) decodeProtoPacket e
  have hbefore := foldl_invariant hmarks.invariant h.tracked events
  rw [List.foldl_concat]
  exact not_not.mp (hmarks.clears _ close hbefore hclose)

def rootServer : Shared DefaultDecoder := (Shared.new.getNamespace ['/']).1

def connectRoot : EngineEvent :=
  .message ⟨.poll, ['e'], .text "0\x7b\x7d".toList, ⟨['s'], 0⟩⟩

def closeRoot : EngineEvent := .close ['e'] .transportClosed

def readPacket : Str → Outcome HandleEngineMessageError ProtoPacket :=
  DefaultDecoder.decodeProtoPacket Json.standard .checked

theorem handleEngineEvents_noRecord_iff_root :
    NoRecord ([connectRoot, closeRoot].foldl (handleEngineEvent readPacket) rootServer) ['e'] ↔
      ∀ before event after, [connectRoot, closeRoot] = before ++ event :: after →
        Connects readPacket ['e'] (before.foldl (handleEngineEvent readPacket) rootServer) event →
          ∃ later ∈ after, Closes ['e'] later :=
  handleEngineEvents_noRecord_iff readPacket ⟨rfl, by rintro s ⟨⟩⟩ _

/-- A request that is handled after the close leaves a connection for good. -/
theorem handleEngineEvents_late : ¬ ∀ arrived order : List EngineEvent,
    (∀ event ∈ arrived, event.connectionId = ['e']) →
    (∃ events reason, arrived = events ++ [.close ['e'] reason]) → order.Perm arrived →
      NoRecord (order.foldl (handleEngineEvent readPacket) rootServer) ['e'] := by
  intro h
  have hlate := h [connectRoot, closeRoot] [closeRoot, connectRoot]
    (by simp [connectRoot, closeRoot, EngineEvent.connectionId])
    ⟨[connectRoot], .transportClosed, rfl⟩ (.swap _ _ _)
  have hrecord : (IndexMap.get ['e'] ([closeRoot, connectRoot].foldl
      (handleEngineEvent readPacket) rootServer).connections).isSome = true := by rfl
  rw [hlate.connections] at hrecord
  cases hrecord

end SocketIoRust.SocketIoServer.Shared
