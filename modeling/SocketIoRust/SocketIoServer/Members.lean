import SocketIoRust.SocketIoServer.ClientConnect
import SocketIoRust.SocketIoServer.Leaving

namespace SocketIoRust.SocketIoServer.Shared

open Library SocketIoParser Runs
open EngineIoServer (RequestContext)

variable {D : Type} {shared shared' : Shared D} {directory : Directory}
  {log : List (Str × Str)} {name : Str}

/-- The name that a connect request finds a namespace under, if it is admitted, and the id of
the socket that it gets there. -/
def entrance (shared : Shared D) (name : Str) (auth : PacketDataValue)
    (environment : Environment) : List (Str × Str) :=
  if shared.Admits name auth then [(normalized name, environment.generatedId)] else []

/-- The namespaces of a server hold those sockets that a log has for their names, and the log
has no names but those of namespaces. -/
structure Holds (shared : Shared D) (log : List (Str × Str)) : Prop where
  sockets : ∀ name ns, IndexMap.get name shared.namespaces = some ns →
    ∀ s, s ∈ (shared.memory ns.address).socketIds ↔ s ∈ notesOf name log
  absent : ∀ name, IndexMap.get name shared.namespaces = none → notesOf name log = []

theorem holds_new : Holds (Shared.new : Shared D) [] where
  sockets _ _ h := nomatch h
  absent _ _ := rfl

theorem Holds.congr (h : Holds shared log) (hnamespaces : shared'.namespaces = shared.namespaces)
    (hmemory : shared'.memory = shared.memory) : Holds shared' log := by
  refine ⟨?_, ?_⟩
  · rw [hnamespaces, hmemory]
    exact h.sockets
  · rw [hnamespaces]
    exact h.absent

theorem Represents.address_lt (h : Represents shared directory) {ns : SimpleNamespace}
    (hget : IndexMap.get name shared.namespaces = some ns) : ns.address < shared.nextAddress := by
  rw [h.namespaces, Option.map_eq_some_iff] at hget
  obtain ⟨entry, hentry, rfl⟩ := hget
  exact h.allocated name entry hentry

theorem Represents.address_ne (h : Represents shared directory) {name' : Str}
    {ns ns' : SimpleNamespace} (hget : IndexMap.get name shared.namespaces = some ns)
    (hget' : IndexMap.get name' shared.namespaces = some ns') (hne : name ≠ name') :
    ns.address ≠ ns'.address := by
  rw [h.namespaces, Option.map_eq_some_iff] at hget hget'
  obtain ⟨entry, hentry, rfl⟩ := hget
  obtain ⟨entry', hentry', rfl⟩ := hget'
  exact fun haddress ↦ hne (h.distinct name name' entry entry' hentry hentry' haddress)

/-- A namespace that is entered holds nothing, and has no name of the log. -/
theorem Holds.enter (h : Holds shared log) (hrep : Represents shared directory)
    (hnone : IndexMap.get name shared.namespaces = none) (parent : Option DynamicNamespace) :
    Holds (shared.enter parent name) log := by
  have hold (name' : Str) (hname : name' ≠ name) :
      IndexMap.get name' (shared.enter parent name).namespaces =
        IndexMap.get name' shared.namespaces := by
    rw [enter_namespaces, IndexMap.get_insert, if_neg hname]
  have hnew : IndexMap.get name (shared.enter parent name).namespaces =
      some ⟨shared.nextAddress, name⟩ := by
    rw [enter_namespaces, IndexMap.get_insert, if_pos rfl]
  have hsame {name' : Str} {ns : SimpleNamespace}
      (hget : IndexMap.get name' shared.namespaces = some ns) :
      (shared.enter parent name).memory ns.address = shared.memory ns.address := by
    rw [enter_memory, Function.update_of_ne (Nat.ne_of_lt (hrep.address_lt hget))]
  have hempty : (shared.enter parent name).memory shared.nextAddress = ⟨[]⟩ := by
    rw [enter_memory, Function.update_self]
  refine ⟨?_, ?_⟩
  · intro name' ns hget
    by_cases hname : name' = name
    · subst hname
      rw [hnew] at hget
      cases hget
      rw [hempty, h.absent name' hnone]
      exact fun _ ↦ .rfl
    · rw [hold name' hname] at hget
      rw [hsame hget]
      exact h.sockets name' ns hget
  · intro name' hget
    by_cases hname : name' = name
    · rw [hname, hnew] at hget
      cases hget
    · rw [hold name' hname] at hget
      exact h.absent name' hget

/-- A socket that is added is one more of its namespace. -/
theorem Holds.addConnection (h : Holds shared log) (hrep : Represents shared directory)
    (hunrecorded : Unrecorded shared) {ns : SimpleNamespace}
    (hget : IndexMap.get name shared.namespaces = some ns) (e : Str) (handshake : Handshake)
    (socketId : Str) :
    Holds (shared.addConnection ns e handshake socketId).1 (log ++ [(name, socketId)]) := by
  have hnotes (name' : Str) : notesOf name' (log ++ [(name, socketId)]) =
      notesOf name' log ++ if name = name' then [socketId] else [] := by
    rw [notesOf_append, ← notesOf_map]
    rfl
  rw [addConnection_eq (hunrecorded.connectionOf e)]
  refine ⟨?_, ?_⟩
  · intro name' ns' hget' s
    dsimp only at hget' ⊢
    rw [SimpleNamespace.mem_addSocket, h.sockets name' ns' hget', hnotes, List.mem_append]
    refine or_congr_right ?_
    by_cases hname : name = name'
    · subst hname
      rw [hget] at hget'
      cases hget'
      rw [if_pos rfl, List.mem_singleton]
      exact and_iff_right rfl
    · rw [if_neg hname]
      exact iff_of_false (fun hs ↦ hrep.address_ne hget hget' hname hs.1.symm) List.not_mem_nil
  · intro name' hget'
    have hname : name ≠ name' := by
      rintro rfl
      rw [hget] at hget'
      cases hget'
    rw [hnotes, if_neg hname, List.append_nil]
    exact h.absent name' hget'

theorem Holds.handleClientConnect (h : Holds shared log) (hrep : Represents shared directory)
    (hunrecorded : Unrecorded shared) (context : RequestContext) (name e : Str)
    (auth : PacketDataValue) (environment : Environment) :
    Holds (shared.handleClientConnect context name e auth environment).1
      (log ++ shared.entrance name auth environment) := by
  rw [entrance]
  by_cases hadmits : shared.Admits name auth
  · obtain ⟨directory', entry, hfound, -, hentry⟩ := hrep.lookFor hadmits
    have hheld : Holds (shared.lookFor name auth) log := by
      rcases hrep.lookFor_cases hadmits with ⟨heq, -⟩ | ⟨dynamic, -, hnone, heq⟩
      · rw [heq]
        exact h
      · rw [heq]
        exact h.enter hrep ((hrep.get_eq_none _).mpr hnone) (some dynamic)
    have hget : IndexMap.get (normalized name) (shared.lookFor name auth).namespaces =
        some entry.ns := by
      rw [hfound.namespaces, hentry, Option.map_some]
    rw [if_pos hadmits, hfound.handleClientConnect_eq hentry hadmits]
    exact hheld.addConnection hfound
      (hunrecorded.of_connections (lookFor_connections shared name auth)) hget e _ _
  · rw [if_neg hadmits, handleClientConnect_of_not_admits hadmits, List.append_nil]
    exact h

theorem Holds.getOrCreateNamespace (h : Holds shared log) (hrep : Represents shared directory)
    (name : Str) : Holds (shared.getOrCreateNamespace name).1 log := by
  cases hget : IndexMap.get (normalized name) shared.namespaces with
  | some ns =>
    rw [getOrCreateNamespace_of_some hget]
    exact h
  | none =>
    rw [getOrCreateNamespace_of_none hget]
    exact h.enter hrep hget none

theorem removeConnection_namespaces (shared : Shared D) (e : Str) :
    (shared.removeConnection e).1.namespaces = shared.namespaces := by
  rw [removeConnection]
  cases IndexMap.get e shared.connections <;> rfl

theorem Quiet.entrance (h : Quiet shared shared') (name : Str) (auth : PacketDataValue)
    (environment : Environment) :
    shared'.entrance name auth environment = shared.entrance name auth environment := by
  simp only [Shared.entrance, h.admits]

variable [Connection.Decoder D]
variable (decodeProtoPacket : Str → Outcome HandleEngineMessageError ProtoPacket)

/-- The socket that the operation adds to a namespace, with the namespace's name. -/
def entrances (shared : Shared D) : Operation → List (Str × Str)
  | .clientConnect _ name _ auth environment => shared.entrance name auth environment
  | .engineEvent (.message message) =>
    match shared.connectRequest decodeProtoPacket message with
    | some packet => shared.entrance packet.nsp packet.data message.environment
    | none => []
  | _ => []

theorem Holds.perform (h : Holds shared log) (hrep : Represents shared directory)
    (hunrecorded : Unrecorded shared) (operation : Operation) :
    Holds (shared.perform decodeProtoPacket operation)
      (log ++ shared.entrances decodeProtoPacket operation) := by
  have hnobody {shared' : Shared D} (hholds : Holds shared' log)
      (hnone : shared.entrances decodeProtoPacket operation = []) :
      Holds shared' (log ++ shared.entrances decodeProtoPacket operation) := by
    rw [hnone, List.append_nil]
    exact hholds
  cases operation with
  | getNamespace name' => exact hnobody (h.getOrCreateNamespace hrep name') rfl
  | of namespaceDescriptor =>
    cases namespaceDescriptor with
    | text name' => exact hnobody (h.getOrCreateNamespace hrep name') rfl
    | regex regex => exact hnobody (h.congr rfl rfl) rfl
    | function f => exact hnobody (h.congr rfl rfl) rfl
  | makeDynamicNamespace namespaceDescriptor => exact hnobody (h.congr rfl rfl) rfl
  | clientConnect context name' e auth environment =>
    exact h.handleClientConnect hrep hunrecorded context name' e auth environment
  | engineEvent event =>
    cases event with
    | connection _ | flush _ | drain _ | error _ => exact hnobody h rfl
    | close connectionId _ =>
      -- the sockets of the connection stay where they are
      refine hnobody (h.congr ?_ (hunrecorded.removeConnection_memory connectionId)) rfl
      exact removeConnection_namespaces shared connectionId
    | message message =>
      cases hrequest : shared.connectRequest decodeProtoPacket message with
      | none =>
        have hquiet := handleNewMessage_of_none hrequest
        refine hnobody (h.congr hquiet.namespaces hquiet.memory) ?_
        rw [entrances, hrequest]
      | some packet =>
        obtain ⟨shared', hquiet, heq⟩ := handleNewMessage_of_some hrequest
        rw [entrances, hrequest]
        dsimp only
        rw [Shared.perform, handleEngineEvent, heq, ← hquiet.entrance]
        exact (h.congr hquiet.namespaces hquiet.memory).handleClientConnect (hrep.quiet hquiet)
          (hunrecorded.quiet hquiet) _ _ _ _ _

/-- Whatever has happened to a server, its namespaces hold exactly the sockets of all the
connect requests that were admitted to them, closed connections or not. -/
theorem members_exact (D : Type) [Connection.Decoder D]
    (decodeProtoPacket : Str → Outcome HandleEngineMessageError ProtoPacket)
    (operations : List Operation) :
    Holds (reached D decodeProtoPacket operations)
      (noted (perform decodeProtoPacket) (entrances decodeProtoPacket) (Shared.new : Shared D)
        operations) := by
  induction operations using List.reverseRecOn with
  | nil => exact holds_new
  | append_singleton operations operation ih =>
    obtain ⟨directory, hrep⟩ := reached_represents D decodeProtoPacket operations
    rw [noted_concat, reached_append]
    exact ih.perform decodeProtoPacket hrep (unrecorded_run decodeProtoPacket operations) operation

end SocketIoRust.SocketIoServer.Shared
