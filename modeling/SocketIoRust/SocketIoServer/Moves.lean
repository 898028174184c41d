import SocketIoRust.SocketIoServer.Requests
import SocketIoRust.SocketIoServer.Decoders
import SocketIoRust.Library.Runs

namespace SocketIoRust.SocketIoServer

open Library SocketIoParser
open Library.Outcome (ok err)
open EngineIoServer (RequestContext)

/-- What a connection keeps for its clients, as opposed to a packet that is incomplete. -/
def Connection.records {D : Type} (connection : Connection D) :
    List (Str × Socket) × List (Str × (Str × SimpleNamespace)) :=
  (connection.state.sockets, connection.state.namespaces)

namespace Shared

variable {D : Type} {shared shared' : Shared D}

/-- Nothing but incomplete packets and events has changed. -/
structure Quiet (shared shared' : Shared D) : Prop where
  connections : ∀ e, (IndexMap.get e shared'.connections).map Connection.records =
    (IndexMap.get e shared.connections).map Connection.records
  namespaces : shared'.namespaces = shared.namespaces
  connectionLookup : shared'.connectionLookup = shared.connectionLookup
  dynamicNamespaces : shared'.dynamicNamespaces = shared.dynamicNamespaces
  memory : shared'.memory = shared.memory
  members : shared'.members = shared.members
  nextAddress : shared'.nextAddress = shared.nextAddress

theorem Quiet.refl (shared : Shared D) : Quiet shared shared :=
  ⟨fun _ ↦ rfl, rfl, rfl, rfl, rfl, rfl, rfl⟩

theorem quiet_emit (shared : Shared D) (message : String) : Quiet shared (shared.emit message) :=
  ⟨fun _ ↦ rfl, rfl, rfl, rfl, rfl, rfl, rfl⟩

theorem quiet_setState {e : Str} {connection : Connection D}
    (hget : IndexMap.get e shared.connections = some connection) {state : ConnectionState D}
    (hsockets : state.sockets = connection.state.sockets)
    (hnamespaces : state.namespaces = connection.state.namespaces) :
    Quiet shared (shared.setState connection e state) := by
  refine ⟨?_, rfl, rfl, rfl, rfl, rfl, rfl⟩
  intro e'
  simp only [setState, IndexMap.get_insert]
  by_cases he : e' = e
  · rw [if_pos he, he, hget, Option.map_some, Option.map_some, Connection.records,
      Connection.records, hsockets, hnamespaces]
  · rw [if_neg he]

/-- A connection of the one server is a connection of the other, with the same records. -/
theorem get_of_records {e : Str} {connection' : Connection D}
    (h : (IndexMap.get e shared'.connections).map Connection.records =
      (IndexMap.get e shared.connections).map Connection.records)
    (hget : IndexMap.get e shared'.connections = some connection') :
    ∃ connection, IndexMap.get e shared.connections = some connection ∧
      connection'.state.sockets = connection.state.sockets ∧
      connection'.state.namespaces = connection.state.namespaces := by
  rw [hget, Option.map_some] at h
  obtain ⟨connection, hold, heq⟩ := Option.map_eq_some_iff.mp h.symm
  exact ⟨connection, hold, (congrArg Prod.fst heq).symm, (congrArg Prod.snd heq).symm⟩

theorem Quiet.admits (h : Quiet shared shared') (name : Str) (auth : PacketDataValue) :
    shared'.Admits name auth ↔ shared.Admits name auth := by
  rw [Admits, Admits, namespaceExists, namespaceExists, h.namespaces, h.dynamicNamespaces]

theorem handlePacketFromClient_of_connect (shared : Shared D) (message : Message)
    {packet : Packet} (h : packet.packetType = .connect) :
    (shared.handlePacketFromClient message packet).1 =
      (shared.handleClientConnect message.context packet.nsp message.connectionId packet.data
        message.environment).1 := by
  rw [handlePacketFromClient, h]

theorem handlePacketFromClient_of_ne (shared : Shared D) (message : Message)
    {packet : Packet} (h : packet.packetType ≠ .connect) :
    (shared.handlePacketFromClient message packet).1 = shared := by
  rw [handlePacketFromClient]
  split
  · contradiction
  · split <;> rfl

theorem Unrecorded.quiet (h : Unrecorded shared) (hquiet : Quiet shared shared') :
    Unrecorded shared' := by
  intro e connection' hget
  obtain ⟨connection, hold, -, hnamespaces⟩ := get_of_records (hquiet.connections e) hget
  exact hnamespaces.trans (h e connection hold)

theorem Unrecorded.of_connections (h : Unrecorded shared)
    (hconnections : shared'.connections = shared.connections) : Unrecorded shared' := by
  intro e connection hget
  rw [hconnections] at hget
  exact h e connection hget

theorem getOrCreateNamespace_connectionLookup (shared : Shared D) (name : Str) :
    (shared.getOrCreateNamespace name).1.connectionLookup = shared.connectionLookup := by
  cases hget : IndexMap.get (normalized name) shared.namespaces with
  | some ns => rw [getOrCreateNamespace_of_some hget]
  | none =>
    rw [getOrCreateNamespace_of_none hget]
    rfl

theorem lookFor_connections (shared : Shared D) (name : Str) (auth : PacketDataValue) :
    (shared.lookFor name auth).connections = shared.connections := by
  rw [lookFor]
  split
  · rfl
  · exact getMatchingDynamicNamespace_connections shared name auth

theorem lookFor_connectionLookup {name : Str} {auth : PacketDataValue}
    (h : shared.Admits name auth) :
    (shared.lookFor name auth).connectionLookup = shared.connectionLookup := by
  rw [lookFor]
  split
  · rfl
  · rename_i hexists
    obtain ⟨dynamic, -, hmatch⟩ := getMatchingDynamicNamespace_of_some (h.resolve_left hexists)
    rw [hmatch]
    cases IndexMap.get (normalized name) shared.namespaces <;> rfl

/-- An admitted request adds a connection to a server with the same connections. -/
theorem handleClientConnect_adds {name : Str} {auth : PacketDataValue}
    (h : shared.Admits name auth) (context : RequestContext) (e : Str)
    (environment : Environment) :
    ∃ (shared' : Shared D) (ns : SimpleNamespace), shared'.connections = shared.connections ∧
      shared'.connectionLookup = shared.connectionLookup ∧
      (shared.handleClientConnect context name e auth environment).1 =
        (shared'.addConnection ns e (Handshake.new context auth environment)
          environment.generatedId).1 := by
  rw [handleClientConnect_of_admits h]
  refine ⟨((shared.lookFor name auth).getOrCreateNamespace name).1,
    ((shared.lookFor name auth).getOrCreateNamespace name).2.1, ?_, ?_, rfl⟩
  · rw [getOrCreateNamespace_connections, lookFor_connections]
  · rw [getOrCreateNamespace_connectionLookup, lookFor_connectionLookup h]

theorem Unrecorded.handleClientConnect (h : Unrecorded shared) (context : RequestContext)
    (name e : Str) (auth : PacketDataValue) (environment : Environment) :
    Unrecorded (shared.handleClientConnect context name e auth environment).1 := by
  by_cases hadmits : shared.Admits name auth
  · obtain ⟨shared', ns, hconnections, -, heq⟩ :=
      handleClientConnect_adds hadmits context e environment
    rw [heq]
    exact (h.of_connections hconnections).addConnection ns e _ _
  · rw [handleClientConnect_of_not_admits hadmits]
    exact h

theorem Unrecorded.removeConnection (h : Unrecorded shared) (e : Str) :
    Unrecorded (shared.removeConnection e).1 := by
  rw [Shared.removeConnection]
  split
  · intro e' connection hget
    dsimp only at hget
    rw [IndexMap.get_erase] at hget
    split at hget
    · cases hget
    · exact h e' connection hget
  · exact h

variable [Connection.Decoder D]

theorem decodeBinaryData_records (connection : Connection D) (buffer : Bytes) :
    (Connection.decodeBinaryData connection.state buffer).1.sockets = connection.state.sockets ∧
      (Connection.decodeBinaryData connection.state buffer).1.namespaces =
        connection.state.namespaces := by
  rw [Connection.decodeBinaryData]
  split
  · dsimp only
    split
    · exact ⟨rfl, rfl⟩
    · split
      · split <;> exact ⟨rfl, rfl⟩
      · exact ⟨rfl, rfl⟩
  · exact ⟨rfl, rfl⟩

theorem setDecoder_records (connection : Connection D) (decoder : D) :
    (Connection.setDecoder connection.state decoder).1.sockets = connection.state.sockets ∧
      (Connection.setDecoder connection.state decoder).1.namespaces =
        connection.state.namespaces := by
  rw [Connection.setDecoder]
  split <;> exact ⟨rfl, rfl⟩

variable (decodeProtoPacket : Str → Outcome HandleEngineMessageError ProtoPacket)

/-- The packet that the message completes, if it completes one. -/
def completedPacket (shared : Shared D) (message : Message) : Option Packet :=
  match message.data with
  | .text text =>
    match decodeProtoPacket text with
    | ok (.plain packet) => some packet
    | _ => none
  | .binary buffer =>
    match IndexMap.get message.connectionId shared.connections with
    | some connection =>
      match (Connection.decodeBinaryData connection.state buffer).2 with
      | ok (.done packet) => some packet
      | _ => none
    | none => none
  | .empty => none

theorem completedPacket_eq (shared : Shared D) (message : Message) :
    shared.completedPacket decodeProtoPacket message =
      (shared.handleNewMessage decodeProtoPacket message).2.map Delivery.packet := by
  simp only [completedPacket, handleNewMessage]
  cases message.data with
  | empty => rfl
  | text text =>
    dsimp only
    cases decodeProtoPacket text with
    | err e => rfl
    | panic => rfl
    | ok packet =>
      cases packet with
      | plain packet => rfl
      | multipart header =>
        dsimp only
        split
        · split
          · split <;> rfl
          · rfl
        · rfl
  | binary buffer =>
    dsimp only
    cases IndexMap.get message.connectionId shared.connections with
    | none => rfl
    | some connection =>
      dsimp only
      cases (Connection.decodeBinaryData connection.state buffer).2 with
      | ok success => cases success <;> rfl
      | err e => rfl
      | panic => rfl

/-- The message is handled quietly, up to the packet that it completes. -/
theorem handleNewMessage_eq (shared : Shared D) (message : Message) :
    ∃ shared', Quiet shared shared' ∧ (shared.handleNewMessage decodeProtoPacket message).1 =
      match shared.completedPacket decodeProtoPacket message with
      | some packet => (shared'.handlePacketFromClient message packet).1
      | none => shared' := by
  rw [completedPacket_eq]
  have hhandles := handleNewMessage_handles decodeProtoPacket shared message
  generalize shared.handleNewMessage decodeProtoPacket message = result at hhandles ⊢
  cases hhandles with
  | ignored => exact ⟨shared, .refl shared, rfl⟩
  | failed error => exact ⟨_, quiet_emit shared error, rfl⟩
  | @announced text header connection state hdecode hget hset =>
    have hrecords := setDecoder_records connection (Connection.Decoder.new header)
    rw [hset] at hrecords
    exact ⟨_, quiet_setState hget hrecords.1 hrecords.2, rfl⟩
  | decoded hdecode => exact ⟨shared, .refl shared, rfl⟩
  | @collected connection buffer hget =>
    have hrecords := decodeBinaryData_records connection buffer
    exact ⟨_, quiet_setState hget hrecords.1 hrecords.2, rfl⟩
  | @reassembled connection buffer packet hget hdone =>
    have hrecords := decodeBinaryData_records connection buffer
    exact ⟨_, quiet_setState hget hrecords.1 hrecords.2, rfl⟩

/-- The connect request that the message completes, if it completes one. -/
def connectRequest (shared : Shared D) (message : Message) : Option Packet :=
  (shared.completedPacket decodeProtoPacket message).filter
    (fun packet ↦ packet.packetType = .connect)

variable {decodeProtoPacket}

theorem handleNewMessage_of_none {message : Message}
    (h : shared.connectRequest decodeProtoPacket message = none) :
    Quiet shared (shared.handleNewMessage decodeProtoPacket message).1 := by
  obtain ⟨shared', hquiet, heq⟩ := handleNewMessage_eq decodeProtoPacket shared message
  rw [heq]
  cases hpacket : shared.completedPacket decodeProtoPacket message with
  | none => exact hquiet
  | some packet =>
    rw [connectRequest, hpacket, Option.filter_eq_none_iff] at h
    have hne : packet.packetType ≠ .connect := by simpa using h packet rfl
    dsimp only
    rw [handlePacketFromClient_of_ne shared' message hne]
    exact hquiet

theorem handleNewMessage_of_some {message : Message} {packet : Packet}
    (h : shared.connectRequest decodeProtoPacket message = some packet) :
    ∃ shared', Quiet shared shared' ∧
      (shared.handleNewMessage decodeProtoPacket message).1 =
        (shared'.handleClientConnect message.context packet.nsp message.connectionId packet.data
          message.environment).1 := by
  obtain ⟨shared', hquiet, heq⟩ := handleNewMessage_eq decodeProtoPacket shared message
  rw [connectRequest, Option.filter_eq_some_iff] at h
  refine ⟨shared', hquiet, ?_⟩
  rw [heq, h.1]
  exact handlePacketFromClient_of_connect shared' message (by simpa using h.2)

variable (decodeProtoPacket)

/-- What one operation does to a server. -/
inductive Moves (shared : Shared D) : Shared D → Prop
  | quietly {shared' : Shared D} : Quiet shared shared' → Moves shared shared'
  | connects {shared' : Shared D} (context : RequestContext) (name e : Str)
      (auth : PacketDataValue) (environment : Environment) : Quiet shared shared' →
      Moves shared (shared'.handleClientConnect context name e auth environment).1
  | removes (e : Str) : Moves shared (shared.removeConnection e).1
  | creates (name : Str) : Moves shared (shared.getOrCreateNamespace name).1
  | addsMatcher (namespaceDescriptor : NamespaceDescriptor) :
      Moves shared (shared.makeDynamicNamespace namespaceDescriptor).1

theorem handleEngineEvent_moves (shared : Shared D) (event : EngineEvent) :
    Moves shared (shared.handleEngineEvent decodeProtoPacket event) := by
  cases event with
  | connection connectionId | flush connectionId | drain connectionId | error connectionId =>
    exact .quietly (Quiet.refl shared)
  | close connectionId reason => exact .removes connectionId
  | message message =>
    cases hrequest : shared.connectRequest decodeProtoPacket message with
    | none => exact .quietly (handleNewMessage_of_none hrequest)
    | some packet =>
      obtain ⟨shared', hquiet, heq⟩ := handleNewMessage_of_some hrequest
      rw [handleEngineEvent, heq]
      exact .connects _ _ _ _ _ hquiet

theorem perform_moves (shared : Shared D) (operation : Operation) :
    Moves shared (shared.perform decodeProtoPacket operation) := by
  cases operation with
  | getNamespace name => exact .creates name
  | makeDynamicNamespace namespaceDescriptor => exact .addsMatcher namespaceDescriptor
  | clientConnect context name e auth environment =>
    exact .connects context name e auth environment (Quiet.refl shared)
  | engineEvent event => exact handleEngineEvent_moves decodeProtoPacket shared event
  | of namespaceDescriptor =>
    cases namespaceDescriptor with
    | text name => exact .creates name
    | regex regex => exact .addsMatcher (.regex regex)
    | function f => exact .addsMatcher (.function f)

/-- What every move keeps holds after a run. -/
theorem run_invariant {I : Shared D → Prop}
    (h : ∀ {shared shared' : Shared D}, I shared → Moves shared shared' → I shared')
    (hstart : I shared) (operations : List Operation) :
    I (shared.run decodeProtoPacket operations) :=
  Runs.foldl_invariant (fun shared operation hI ↦ h hI (perform_moves _ shared operation)) hstart
    operations

/-- No server ever records that a connection has joined a namespace. -/
theorem unrecorded_run (operations : List Operation) :
    Unrecorded ((Shared.new : Shared D).run decodeProtoPacket operations) := by
  refine run_invariant decodeProtoPacket ?_ ?_ operations
  · intro shared shared' h hmoves
    cases hmoves with
    | quietly hquiet => exact h.quiet hquiet
    | connects context name e auth environment hquiet =>
      exact (h.quiet hquiet).handleClientConnect context name e auth environment
    | removes e => exact h.removeConnection e
    | creates name => exact h.of_connections (getOrCreateNamespace_connections shared name)
    | addsMatcher namespaceDescriptor => exact h.of_connections rfl
  · intro e connection hget
    cases hget

end Shared

end SocketIoRust.SocketIoServer
