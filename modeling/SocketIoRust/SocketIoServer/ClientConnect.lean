import SocketIoRust.SocketIoServer.Registry
import SocketIoRust.SocketIoServer.Lookup

namespace SocketIoRust.SocketIoServer.Shared

open Library SocketIoParser Lookup
open EngineIoServer (RequestContext)

variable {D : Type} {shared shared' shared'' : Shared D} {directory : Directory} {e name : Str}

/-- What the server holds for other connections than `e`, and for other namespaces than that
of the name, is as it was. -/
structure Frame (e name : Str) (shared shared' : Shared D) : Prop where
  connections : ∀ e' ≠ e, IndexMap.get e' shared'.connections = IndexMap.get e' shared.connections
  connectionLookup : ∀ s, ∀ e' ≠ e, IndexMap.get s shared'.connectionLookup = some e' ↔
    IndexMap.get s shared.connectionLookup = some e'
  namespaces : ∀ name' ≠ name,
    IndexMap.get name' shared'.namespaces = IndexMap.get name' shared.namespaces
  registered : ∀ name' ns, IndexMap.get name' shared.namespaces = some ns →
    IndexMap.get name' shared'.namespaces = some ns
  memory : ∀ name' ≠ name, ∀ ns, IndexMap.get name' shared.namespaces = some ns →
    shared'.memory ns.address = shared.memory ns.address
  memberships : ∀ e' ≠ e, ∀ s, Owns shared e' s →
    ∀ name' ns, IndexMap.get name' shared.namespaces = some ns →
      (s ∈ (shared'.memory ns.address).socketIds ↔ s ∈ (shared.memory ns.address).socketIds)
  members : ∀ dynamic ∈ shared.dynamics, ∀ name' ≠ name,
    IndexMap.get name' (shared'.members dynamic.address) =
      IndexMap.get name' (shared.members dynamic.address)
  dynamicNamespaces : shared'.dynamicNamespaces = shared.dynamicNamespaces

theorem Frame.refl (e name : Str) (shared : Shared D) : Frame e name shared shared :=
  ⟨fun _ _ ↦ rfl, fun _ _ _ ↦ .rfl, fun _ _ ↦ rfl, fun _ _ h ↦ h, fun _ _ _ _ ↦ rfl,
    fun _ _ _ _ _ _ _ ↦ .rfl, fun _ _ _ _ ↦ rfl, rfl⟩

theorem Frame.trans (h : Frame e name shared shared') (h' : Frame e name shared' shared'') :
    Frame e name shared shared'' where
  connections e' he := (h'.connections e' he).trans (h.connections e' he)
  connectionLookup s e' he := (h'.connectionLookup s e' he).trans (h.connectionLookup s e' he)
  namespaces name' hname := (h'.namespaces name' hname).trans (h.namespaces name' hname)
  registered name' ns hget := h'.registered name' ns (h.registered name' ns hget)
  memory name' hname ns hget :=
    (h'.memory name' hname ns (h.registered name' ns hget)).trans (h.memory name' hname ns hget)
  memberships e' he s ho name' ns hget := by
    have ho' : Owns shared' e' s := by
      rw [Owns, h.connections e' he]
      exact ho
    exact (h'.memberships e' he s ho' name' ns (h.registered name' ns hget)).trans
      (h.memberships e' he s ho name' ns hget)
  members dynamic hd name' hname := by
    have hd' : dynamic ∈ shared'.dynamics := by
      rw [dynamics, h.dynamicNamespaces]
      exact hd
    exact (h'.members dynamic hd' name' hname).trans (h.members dynamic hd name' hname)
  dynamicNamespaces := h'.dynamicNamespaces.trans h.dynamicNamespaces

theorem enter_memory (shared : Shared D) (parent : Option DynamicNamespace) (name : Str) :
    (shared.enter parent name).memory =
      Function.update shared.memory shared.nextAddress ⟨[]⟩ := by
  cases parent <;> rfl

/-- A namespace that is entered is none of those that were there. -/
theorem Represents.frame_enter (h : Represents shared directory) (e : Str)
    (hnone : directory.entry name = none) (parent : Option DynamicNamespace) :
    Frame e name shared (shared.enter parent name) := by
  have hmemory (name' : Str) (ns : SimpleNamespace)
      (hget : IndexMap.get name' shared.namespaces = some ns) :
      (shared.enter parent name).memory ns.address = shared.memory ns.address := by
    rw [h.namespaces, Option.map_eq_some_iff] at hget
    obtain ⟨entry, hentry, rfl⟩ := hget
    rw [enter_memory, Function.update_of_ne (Nat.ne_of_lt (h.allocated name' entry hentry))]
  have hconnections : (shared.enter parent name).connections = shared.connections := by
    cases parent <;> rfl
  have hlookup : (shared.enter parent name).connectionLookup = shared.connectionLookup := by
    cases parent <;> rfl
  refine ⟨?_, ?_, ?_, ?_, ?_, ?_, ?_, ?_⟩
  · intro e' he
    rw [hconnections]
  · intro s e' he
    rw [hlookup]
  · intro name' hname
    rw [enter_namespaces, IndexMap.get_insert, if_neg hname]
  · intro name' ns hget
    have hname : name' ≠ name := by
      intro hname
      rw [hname, (h.get_eq_none name).mpr hnone] at hget
      cases hget
    rw [enter_namespaces, IndexMap.get_insert, if_neg hname, hget]
  · intro name' hname ns hget
    exact hmemory name' ns hget
  · intro e' he s ho name' ns hget
    rw [hmemory name' ns hget]
  · intro dynamic hd name' hname
    rw [enter_members, if_neg (fun hboth ↦ hname hboth.1)]
  · cases parent <;> rfl

def Fresh (shared : Shared D) (socketId : Str) : Prop :=
  IndexMap.get socketId shared.connectionLookup = none ∧ ∀ e, ¬ Owns shared e socketId

theorem Represents.frame_addConnection (h : Represents shared directory)
    (hunrecorded : Unrecorded shared) {entry : Entry} (hentry : directory.entry name = some entry)
    (e : Str) (handshake : Handshake) {socketId : Str} (hfresh : Fresh shared socketId) :
    Frame e name shared (shared.addConnection entry.ns e handshake socketId).1 := by
  rw [addConnection_eq (hunrecorded.connectionOf e)]
  refine ⟨?_, ?_, fun _ _ ↦ rfl, fun _ _ hget ↦ hget, ?_, ?_, fun _ _ _ _ ↦ rfl, rfl⟩
  · intro e' he
    exact (IndexMap.get_insert e e' _ _).trans (if_neg he)
  · intro s e' he
    dsimp only
    rw [IndexMap.get_insert]
    split
    · rename_i hs
      rw [hs, hfresh.1]
      constructor
      · intro hsome
        exact absurd (Option.some.inj hsome).symm he
      · intro hnone
        cases hnone
    · exact .rfl
  · intro name' hname ns hget
    rw [h.namespaces, Option.map_eq_some_iff] at hget
    obtain ⟨entry', hentry', rfl⟩ := hget
    apply SimpleNamespace.addSocket_of_ne
    intro haddress
    exact hname (h.distinct name' name entry' entry hentry' hentry haddress)
  · intro e' he s ho name' ns hget
    rw [SimpleNamespace.mem_addSocket]
    constructor
    · rintro (hmem | ⟨-, rfl⟩)
      · exact hmem
      · exact absurd ho (hfresh.2 e')
    · exact .inl

theorem Represents.frame_lookFor (h : Represents shared directory) (e : Str) {name : Str}
    {auth : PacketDataValue} (hadmits : shared.Admits name auth) :
    Frame e (normalized name) shared (shared.lookFor name auth) := by
  rcases h.lookFor_cases hadmits with ⟨heq, -⟩ | ⟨dynamic, -, hnone, heq⟩
  · rw [heq]
    exact .refl e (normalized name) shared
  · rw [heq]
    exact h.frame_enter e hnone (some dynamic)

theorem not_admits {name : Str} {auth : PacketDataValue} :
    ¬ shared.Admits name auth ↔ IndexMap.get name shared.namespaces = none ∧
      ∀ dynamic ∈ shared.dynamicNamespaces, dynamic.1 name auth = false := by
  rw [Admits, not_or, namespaceExists, Bool.not_eq_true, Option.isSome_eq_false_iff,
    Option.isNone_iff_eq_none]
  simp

theorem fresh_lookFor {name socketId : Str} {auth : PacketDataValue}
    (hadmits : shared.Admits name auth) (hfresh : Fresh shared socketId) :
    Fresh (shared.lookFor name auth) socketId := by
  rw [Fresh, lookFor_connectionLookup hadmits]
  refine ⟨hfresh.1, ?_⟩
  intro e ho
  rw [Owns, lookFor_connections] at ho
  exact hfresh.2 e ho

/-- The server holds the socket of `e` on every way that leads to it. -/
structure Joined (shared : Shared D) (ns : SimpleNamespace) (e socketId : Str) : Prop where
  owns : Owns shared e socketId
  member : socketId ∈ (shared.memory ns.address).socketIds
  lookup : IndexMap.get socketId shared.connectionLookup = some e

theorem addConnection_joined (h : (shared.connectionOf e).state.namespaces = [])
    (ns : SimpleNamespace) (handshake : Handshake) (generatedId : Str) :
    Joined (shared.addConnection ns e handshake generatedId).1 ns e generatedId := by
  rw [addConnection_eq h]
  refine ⟨⟨_, (IndexMap.get_insert e e _ _).trans (if_pos rfl), ?_⟩, ?_, ?_⟩
  · exact IndexMap.mem_keys_insert.mpr (.inl rfl)
  · exact SimpleNamespace.mem_addSocket.mpr (.inr ⟨rfl, rfl⟩)
  · exact (IndexMap.get_insert _ _ _ _).trans (if_pos rfl)

theorem Represents.connected (h : Represents shared directory) (hunrecorded : Unrecorded shared)
    {auth : PacketDataValue} (hname : normalized name = name) (hadmits : shared.Admits name auth)
    (context : RequestContext) (e : Str) (environment : Environment)
    (hfresh : Fresh shared environment.generatedId) :
    ∃ shared' ns,
      shared.handleClientConnect context name e auth environment =
        (shared', ⟨.connect, none, name,
          .object [("sid".toList, .string environment.generatedId)]⟩) ∧
      IndexMap.get name shared'.namespaces = some ns ∧
      Joined shared' ns e environment.generatedId ∧ Frame e name shared shared' := by
  obtain ⟨directory', entry, hfound, -, hentry⟩ := h.lookFor hadmits
  have hadmitted := hunrecorded.of_connections (lookFor_connections shared name auth)
  have hrecords := hadmitted.connectionOf e
  have hframe := h.frame_lookFor e hadmits
  have heq := hfound.handleClientConnect_eq hentry hadmits context e environment
  rw [hname] at hentry hframe heq
  let handshake := Handshake.new context auth environment
  have hjoined := addConnection_joined hrecords entry.ns handshake environment.generatedId
  have hframe' := hfound.frame_addConnection hadmitted hentry e handshake
    (fresh_lookFor hadmits hfresh)
  have hget := (hfound.addConnection entry.ns e handshake environment.generatedId).namespaces name
  have hid : ((shared.lookFor name auth).addConnection entry.ns e handshake
      environment.generatedId).2 = environment.generatedId := by
    rw [addConnection_eq hrecords]
  rw [hentry, Option.map_some] at hget
  refine ⟨_, entry.ns, ?_, hget, hjoined, hframe.trans hframe'⟩
  rw [heq]
  dsimp only
  rw [hid]

/-- A connect request is refused exactly if nothing accepts its namespace, and then changes
nothing; else the client gets a socket, and all that is not of this client or of this
namespace stays as it was. -/
structure Serves (shared : Shared D) (name e : Str) (auth : PacketDataValue)
    (reply : Shared D × Packet) : Prop where
  refused : reply.2.packetType = .connectError ↔ IndexMap.get name shared.namespaces = none ∧
    ∀ dynamic ∈ shared.dynamicNamespaces, dynamic.1 name auth = false
  unchanged : reply.2.packetType = .connectError → reply.1 = shared
  connected : reply.2.packetType ≠ .connectError → ∃ socketId ns,
    reply.2 = ⟨.connect, none, name, .object [("sid".toList, .string socketId)]⟩ ∧
      IndexMap.get name reply.1.namespaces = some ns ∧ Joined reply.1 ns e socketId ∧
      Frame e name shared reply.1

variable [Connection.Decoder D]
variable (decodeProtoPacket : Str → Outcome HandleEngineMessageError ProtoPacket)

theorem handleClientConnect_serves (operations : List Operation) (context : RequestContext)
    {name : Str} (hslash : ∃ rest, name = '/' :: rest) (e : Str) (auth : PacketDataValue)
    (environment : Environment)
    (hfresh : Fresh (reached D decodeProtoPacket operations) environment.generatedId) :
    Serves (reached D decodeProtoPacket operations) name e auth
      ((reached D decodeProtoPacket operations).handleClientConnect context name e auth
        environment) := by
  obtain ⟨directory, h⟩ := reached_represents D decodeProtoPacket operations
  by_cases hadmits : (reached D decodeProtoPacket operations).Admits name auth
  · obtain ⟨shared', ns, heq, hafter⟩ := h.connected
      (unrecorded_run decodeProtoPacket operations) (normalized_of_slash hslash) hadmits context e
      environment hfresh
    rw [heq]
    refine ⟨?_, ?_, fun _ ↦ ⟨_, ns, rfl, hafter⟩⟩
    · rw [← not_admits]
      simp [hadmits]
    · intro herror
      cases herror
  · rw [handleClientConnect_of_not_admits hadmits]
    refine ⟨?_, fun _ ↦ rfl, fun hne ↦ absurd rfl hne⟩
    rw [← not_admits]
    simp [hadmits]

/-- The first client of the root namespace. -/
theorem handleClientConnect_serves_root :
    let decode := DefaultDecoder.decodeProtoPacket Json.standard .checked
    Serves (reached DefaultDecoder decode [.getNamespace ['/']]) ['/'] ['e'] .null
      ((reached DefaultDecoder decode [.getNamespace ['/']]).handleClientConnect .poll ['/'] ['e']
        .null ⟨['s'], 0⟩) :=
  handleClientConnect_serves (DefaultDecoder.decodeProtoPacket Json.standard .checked)
    [.getNamespace ['/']] .poll ⟨[], rfl⟩ ['e'] .null ⟨['s'], 0⟩
    ⟨rfl, fun _ ⟨_, hget, _⟩ ↦ nomatch hget⟩

end SocketIoRust.SocketIoServer.Shared
