import SocketIoRust.SocketIoServer.Server

namespace SocketIoRust.SocketIoServer

open Library SocketIoParser
open EngineIoServer (RequestContext)

namespace Shared

variable {D : Type} {shared shared' : Shared D}

/-- The name under which a namespace is looked for and registered. -/
def normalized (name : Str) : Str := if name.head? = some '/' then name else '/' :: name

theorem normalized_slash (name : Str) : ∃ rest, normalized name = '/' :: rest := by
  unfold normalized
  split
  · rename_i h
    obtain ⟨rest, rfl⟩ := List.head?_eq_some_iff.mp h
    exact ⟨rest, rfl⟩
  · exact ⟨name, rfl⟩

theorem normalized_of_slash {name : Str} (h : ∃ rest, name = '/' :: rest) :
    normalized name = name := by
  obtain ⟨rest, rfl⟩ := h
  rfl

def register (shared : Shared D) (name : Str) : Shared D :=
  { shared with
    namespaces := IndexMap.insert name ⟨shared.nextAddress, name⟩ shared.namespaces
    memory := Function.update shared.memory shared.nextAddress ⟨[]⟩
    nextAddress := shared.nextAddress + 1 }

theorem getOrCreateNamespace_of_some {name : Str} {ns : SimpleNamespace}
    (h : IndexMap.get (normalized name) shared.namespaces = some ns) :
    shared.getOrCreateNamespace name = (shared, ns, .existing) := by
  have h' : IndexMap.get (if name.head? = some '/' then name else '/' :: name)
      shared.namespaces = some ns := h
  simp only [getOrCreateNamespace, h']

theorem getOrCreateNamespace_of_none {name : Str}
    (h : IndexMap.get (normalized name) shared.namespaces = none) :
    shared.getOrCreateNamespace name =
      (shared.register (normalized name), ⟨shared.nextAddress, normalized name⟩, .new) := by
  have h' : IndexMap.get (if name.head? = some '/' then name else '/' :: name)
      shared.namespaces = none := h
  simp only [getOrCreateNamespace, h']
  rfl

/-- A namespace of that name is registered, or a matcher accepts the request. -/
def Admits (shared : Shared D) (name : Str) (auth : PacketDataValue) : Prop :=
  shared.namespaceExists name = true ∨
    ∃ dynamic ∈ shared.dynamicNamespaces, dynamic.1 name auth = true

instance (shared : Shared D) (name : Str) (auth : PacketDataValue) :
    Decidable (shared.Admits name auth) :=
  inferInstanceAs (Decidable (_ ∨ _))

/-- The server once it has looked for a namespace for the request. -/
def lookFor (shared : Shared D) (name : Str) (auth : PacketDataValue) : Shared D :=
  if shared.namespaceExists name then shared else (shared.getMatchingDynamicNamespace name auth).1

theorem getMatchingDynamicNamespace_of_none {name : Str} {auth : PacketDataValue}
    (h : ∀ dynamic ∈ shared.dynamicNamespaces, ¬ dynamic.1 name auth = true) :
    shared.getMatchingDynamicNamespace name auth = (shared, none) := by
  have hfind : shared.dynamicNamespaces.find? (fun dynamic ↦ dynamic.1 name auth) = none :=
    List.find?_eq_none.mpr h
  rw [getMatchingDynamicNamespace, hfind]

/-- The first matcher that accepts the request gets the namespace, if it is a new one. -/
theorem getMatchingDynamicNamespace_of_some {name : Str} {auth : PacketDataValue}
    (h : ∃ dynamic ∈ shared.dynamicNamespaces, dynamic.1 name auth = true) :
    ∃ dynamic ∈ shared.dynamicNamespaces, shared.getMatchingDynamicNamespace name auth =
      (match IndexMap.get (normalized name) shared.namespaces with
        | some _ => shared
        | none => (shared.register (normalized name)).insertSimpleNamespace dynamic.2
            ⟨shared.nextAddress, normalized name⟩, some dynamic.2) := by
  obtain ⟨dynamic, hfind⟩ := Option.isSome_iff_exists.mp
    (List.find?_isSome.mpr h : (shared.dynamicNamespaces.find? (fun d ↦ d.1 name auth)).isSome)
  refine ⟨dynamic, List.mem_of_find?_eq_some hfind, ?_⟩
  rw [getMatchingDynamicNamespace, hfind]
  cases hget : IndexMap.get (normalized name) shared.namespaces with
  | some ns =>
    dsimp only
    rw [getOrCreateNamespace_of_some hget]
  | none =>
    dsimp only
    rw [getOrCreateNamespace_of_none hget]

theorem handleClientConnect_of_not_admits {name : Str} {auth : PacketDataValue}
    (h : ¬ shared.Admits name auth) (context : RequestContext) (e : Str)
    (environment : Environment) :
    shared.handleClientConnect context name e auth environment =
      (shared, ⟨.connectError, none, name,
        .object [("message".toList, .string "Invalid namespace".toList)]⟩) := by
  rw [Admits, not_or] at h
  have hnone : ∀ dynamic ∈ shared.dynamicNamespaces, ¬ dynamic.1 name auth = true :=
    fun dynamic hd ha ↦ h.2 ⟨dynamic, hd, ha⟩
  simp only [handleClientConnect, h.1, getMatchingDynamicNamespace_of_none hnone]
  rfl

theorem handleClientConnect_of_admits {name : Str} {auth : PacketDataValue}
    (h : shared.Admits name auth) (context : RequestContext) (e : Str)
    (environment : Environment) :
    shared.handleClientConnect context name e auth environment =
      (let (shared, ns, socketId) :=
        (shared.lookFor name auth).connectClient context name e auth environment
      (shared, ⟨.connect, none, ns.name, .object [("sid".toList, .string socketId)]⟩)) := by
  by_cases hexists : shared.namespaceExists name = true
  · simp only [handleClientConnect, lookFor, hexists, if_true]
  · obtain ⟨dynamic, -, hmatch⟩ :=
      getMatchingDynamicNamespace_of_some (h.resolve_left hexists)
    simp only [handleClientConnect, lookFor, hexists, hmatch]
    rfl

/-- The connection `e` as it is, or as it would be made for its first socket. -/
def connectionOf (shared : Shared D) (e : Str) : Connection D :=
  (IndexMap.get e shared.connections).getD ⟨e, ⟨[], [], none⟩⟩

end Shared

def Connection.withSocket {D : Type} (connection : Connection D) (socket : Socket) :
    Connection D :=
  { connection with
    state := { connection.state with
      sockets := IndexMap.insert socket.id socket connection.state.sockets } }

namespace Shared

variable {D : Type} {shared shared' : Shared D}

/-- No connection of the server has recorded a namespace that it has joined. -/
def Unrecorded (shared : Shared D) : Prop :=
  ∀ e connection, IndexMap.get e shared.connections = some connection →
    connection.state.namespaces = []

/-- Only the entries of `e` and of its socket are written. -/
theorem addConnection_inserts (shared : Shared D) (ns : SimpleNamespace) (e : Str)
    (handshake : Handshake) (generatedId : Str) :
    ∃ connection socketId,
      (shared.addConnection ns e handshake generatedId).1.connections =
        IndexMap.insert e connection shared.connections ∧
      (shared.addConnection ns e handshake generatedId).1.connectionLookup =
        IndexMap.insert socketId e shared.connectionLookup := by
  simp only [addConnection]
  cases IndexMap.get e shared.connections with
  | none => exact ⟨_, _, rfl, rfl⟩
  | some connection => exact ⟨_, _, rfl, rfl⟩

/-- A connection that has recorded nothing gets a new socket. -/
theorem addConnection_eq {e : Str} (h : (shared.connectionOf e).state.namespaces = [])
    (ns : SimpleNamespace) (handshake : Handshake) (generatedId : Str) :
    shared.addConnection ns e handshake generatedId =
      ({ shared with
        connections := IndexMap.insert e
          ((shared.connectionOf e).withSocket (Socket.new handshake ns.name generatedId))
          shared.connections
        connectionLookup := IndexMap.insert generatedId e shared.connectionLookup
        memory := ns.addSocket generatedId shared.memory }, generatedId) := by
  unfold connectionOf at h ⊢
  cases hget : IndexMap.get e shared.connections with
  | none =>
    simp only [addConnection, hget]
    rfl
  | some connection =>
    rw [hget, Option.getD_some] at h
    have hnone : IndexMap.get ns.name connection.state.namespaces = none := by
      rw [h]
      rfl
    simp only [addConnection, hget, Connection.addToNamespace, hnone]
    rfl

theorem Unrecorded.connectionOf (h : Unrecorded shared) (e : Str) :
    (shared.connectionOf e).state.namespaces = [] := by
  unfold Shared.connectionOf
  cases hget : IndexMap.get e shared.connections with
  | none => rfl
  | some connection => exact h e connection hget

theorem Unrecorded.addConnection (h : Unrecorded shared) (ns : SimpleNamespace) (e : Str)
    (handshake : Handshake) (generatedId : Str) :
    Unrecorded (shared.addConnection ns e handshake generatedId).1 := by
  rw [addConnection_eq (h.connectionOf e)]
  intro e' connection hget
  dsimp only at hget
  rw [IndexMap.get_insert] at hget
  split at hget
  · cases hget
    exact h.connectionOf e
  · exact h e' connection hget

end Shared

end SocketIoRust.SocketIoServer
