import SocketIoRust.SocketIoServer.Shared

namespace SocketIoRust.SocketIoServer.Connection

open Library SocketIoParser

variable {D : Type}

/-- What a connection is given to join a namespace, and the id that it would generate. -/
structure Join where
  handshake : Handshake
  ns : SimpleNamespace
  generatedId : Str

def join (joined : ConnectionState D × Memory) (call : Join) : ConnectionState D × Memory :=
  let (state, memory, _) :=
    addToNamespace joined.1 call.handshake call.ns call.generatedId joined.2
  (state, memory)

/-- The connection that was initialized with its first namespace and has joined others. -/
def joinAll (D : Type) (engineConnectionId : Str) (memory : Memory) (first : Join)
    (calls : List Join) : ConnectionState D × Memory :=
  let (connection, memory, _) := initializeConnection engineConnectionId first.handshake first.ns
    first.generatedId memory
  calls.foldl join (connection.state, memory)

/-- The map of namespaces has the names that were joined, each with its namespace and with
the only socket for it, and no other. -/
structure MapsJoined (state : ConnectionState D) (calls : List Join) : Prop where
  mapped : ∀ call ∈ calls, ∃ record, IndexMap.get call.ns.name state.namespaces = some record
  sound : ∀ name s ns, IndexMap.get name state.namespaces = some (s, ns) →
    (∃ call ∈ calls, call.ns = ns) ∧ ns.name = name ∧
      ∃ socket, IndexMap.get s state.sockets = some socket ∧ socket.namespaceName = name ∧
        ∀ s' socket', IndexMap.get s' state.sockets = some socket' →
          socket'.namespaceName = name → s' = s

/-- Whoever joins a namespace again gets the socket of the first time, and nothing else. -/
def RejoinsOnce (state : ConnectionState D) (memory : Memory) (calls : List Join) : Prop :=
  ∀ call ∈ calls, ∀ handshake generatedId, ∃ earlier,
    calls.find? (fun earlier ↦ earlier.ns.name = call.ns.name) = some earlier ∧
      addToNamespace state handshake call.ns generatedId memory =
        (state, memory, .alreadyExisting earlier.generatedId)

/-- A packet for a namespace that was joined reaches the socket for it. -/
def RoutesPackets (state : ConnectionState D) (calls : List Join) : Prop :=
  ∀ call ∈ calls, ∀ packet : Packet, packet.nsp = call.ns.name →
    ∃ socket, handlePacket state packet = some socket ∧ socket.namespaceName = packet.nsp

theorem join_namespaces (joined : ConnectionState D × Memory) (call : Join) :
    (join joined call).1.namespaces = joined.1.namespaces := by
  simp only [join, addToNamespace]
  cases IndexMap.get call.ns.name joined.1.namespaces <;> rfl

theorem foldl_join_namespaces (joined : ConnectionState D × Memory) (calls : List Join) :
    (calls.foldl join joined).1.namespaces = joined.1.namespaces := by
  induction calls generalizing joined with
  | nil => rfl
  | cons call calls ih => rw [List.foldl_cons, ih, join_namespaces]

/-- The map of namespaces is still as it was made. -/
theorem joinAll_namespaces (D : Type) (engineConnectionId : Str) (memory : Memory)
    (first : Join) (calls : List Join) :
    (joinAll D engineConnectionId memory first calls).1.namespaces = [] :=
  foldl_join_namespaces _ calls

theorem addToNamespace_of_nil {state : ConnectionState D} (h : state.namespaces = [])
    (handshake : Handshake) (ns : SimpleNamespace) (generatedId : Str) (memory : Memory) :
    (addToNamespace state handshake ns generatedId memory).2.2 = .added generatedId := by
  simp only [addToNamespace, h]
  rfl

theorem handlePacket_of_nil {state : ConnectionState D} (h : state.namespaces = [])
    (packet : Packet) : handlePacket state packet = none := by
  rw [handlePacket, h]
  rfl

/-- No connection ever keeps the map of its namespaces. -/
theorem joinAll_forgets (D : Type) (engineConnectionId : Str) (memory : Memory) (first : Join)
    (calls : List Join) :
    ¬ MapsJoined (joinAll D engineConnectionId memory first calls).1 (first :: calls) ∧
    ¬ RejoinsOnce (joinAll D engineConnectionId memory first calls).1
      (joinAll D engineConnectionId memory first calls).2 (first :: calls) ∧
    ¬ RoutesPackets (joinAll D engineConnectionId memory first calls).1
      (first :: calls) := by
  have hnil := joinAll_namespaces D engineConnectionId memory first calls
  refine ⟨?_, ?_, ?_⟩
  · intro h
    obtain ⟨record, hrecord⟩ := h.mapped first List.mem_cons_self
    rw [hnil] at hrecord
    cases hrecord
  · intro h
    obtain ⟨earlier, -, hagain⟩ := h first List.mem_cons_self first.handshake first.generatedId
    have hadded := addToNamespace_of_nil hnil first.handshake first.ns first.generatedId
      (joinAll D engineConnectionId memory first calls).2
    rw [hagain] at hadded
    cases hadded
  · intro h
    obtain ⟨socket, hsocket, -⟩ := h first List.mem_cons_self
      ⟨.event, none, first.ns.name, .array []⟩ rfl
    rw [handlePacket_of_nil hnil] at hsocket
    cases hsocket

def rootJoin : Join := ⟨⟨[], 0, [], false, false, 0, [], [], .null⟩, ⟨0, ['/']⟩, ['s']⟩

theorem joinAll_root : ¬ ∀ (engineConnectionId : Str) (memory : Memory) (first : Join)
    (calls : List Join),
    MapsJoined (joinAll DefaultDecoder engineConnectionId memory first calls).1
      (first :: calls) ∧
    RejoinsOnce (joinAll DefaultDecoder engineConnectionId memory first calls).1
      (joinAll DefaultDecoder engineConnectionId memory first calls).2 (first :: calls) ∧
    RoutesPackets (joinAll DefaultDecoder engineConnectionId memory first calls).1
      (first :: calls) := by
  intro h
  obtain ⟨-, -, hroutes⟩ := h ['e'] (fun _ ↦ ⟨[]⟩) rootJoin []
  obtain ⟨socket, hsocket, -⟩ :=
    hroutes rootJoin List.mem_cons_self ⟨.event, none, ['/'], .array []⟩ rfl
  have hnone : handlePacket (joinAll DefaultDecoder ['e'] (fun _ ↦ ⟨[]⟩) rootJoin []).1
      ⟨.event, none, ['/'], .array []⟩ = none := rfl
  rw [hnone] at hsocket
  cases hsocket

end SocketIoRust.SocketIoServer.Connection
