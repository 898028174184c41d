import SocketIoRust.SocketIoServer.Messages

namespace SocketIoRust.SocketIoServer.Shared

open Library SocketIoParser
open EngineIoServer (RequestContext)

variable {D : Type} {shared shared' shared'' : Shared D}

/-- The decoder of a connection, if there is the connection. -/
def decoderOf (shared : Shared D) (e : Str) : Option (Option D) :=
  (IndexMap.get e shared.connections).map (fun connection ↦ connection.state.decoder)

theorem decoderOf_eq_some {e : Str} {decoder : Option D} :
    shared.decoderOf e = some decoder ↔ ∃ connection,
      IndexMap.get e shared.connections = some connection ∧ connection.state.decoder = decoder := by
  rw [decoderOf, Option.map_eq_some_iff]

theorem decoderOf_insert (shared : Shared D) {e : Str} {connection : Connection D}
    (h : shared'.connections = IndexMap.insert e connection shared.connections) (e' : Str) :
    shared'.decoderOf e' =
      if e' = e then some connection.state.decoder else shared.decoderOf e' := by
  rw [decoderOf, decoderOf, h, IndexMap.get_insert]
  split <;> rfl

theorem decoderOf_setState (connection : Connection D) (e e' : Str) (state : ConnectionState D) :
    (shared.setState connection e state).decoderOf e' =
      if e' = e then some state.decoder else shared.decoderOf e' := by
  have h : (shared.setState connection e state).connections =
      IndexMap.insert e { connection with state := state } shared.connections := rfl
  exact decoderOf_insert shared h e'

/-- The decoder of the connection does not change, and if the connection is new it has none. -/
def KeepsDecoder (e : Str) (shared shared' : Shared D) : Prop :=
  shared'.decoderOf e = shared.decoderOf e ∨
    (shared.decoderOf e = none ∧ shared'.decoderOf e = some none)

def KeepsDecoders (shared shared' : Shared D) : Prop := ∀ e, KeepsDecoder e shared shared'

theorem KeepsDecoders.of_connections (h : shared'.connections = shared.connections) :
    KeepsDecoders shared shared' := by
  intro e
  rw [KeepsDecoder, decoderOf, decoderOf, h]
  exact .inl rfl

theorem KeepsDecoder.trans {e : Str} (h : KeepsDecoder e shared shared')
    (h' : KeepsDecoder e shared' shared'') : KeepsDecoder e shared shared'' := by
  rcases h' with he' | ⟨hnone, hnew⟩
  · rw [KeepsDecoder, he']
    exact h
  · rcases h with he | ⟨-, hsome⟩
    · exact .inr ⟨by rw [← he, hnone], hnew⟩
    · rw [hnone] at hsome
      cases hsome

theorem KeepsDecoders.trans (h : KeepsDecoders shared shared')
    (h' : KeepsDecoders shared' shared'') : KeepsDecoders shared shared'' :=
  fun e ↦ (h e).trans (h' e)

theorem KeepsDecoders.some_some (h : KeepsDecoders shared shared') {e : Str} {decoder : D}
    (hd : shared'.decoderOf e = some (some decoder)) :
    shared.decoderOf e = some (some decoder) := by
  rcases h e with he | ⟨-, hnew⟩
  · rwa [← he]
  · rw [hnew] at hd
    cases hd

theorem KeepsDecoder.some {e : Str} (h : KeepsDecoder e shared shared') {decoder : Option D}
    (hd : shared.decoderOf e = some decoder) : shared'.decoderOf e = some decoder := by
  rcases h with he | ⟨hnone, -⟩
  · rwa [he]
  · rw [hnone] at hd
    cases hd

theorem KeepsDecoders.some (h : KeepsDecoders shared shared') {e : Str} {decoder : Option D}
    (hd : shared.decoderOf e = some decoder) : shared'.decoderOf e = some decoder :=
  (h e).some hd

theorem getOrCreateNamespace_connections (shared : Shared D) (name : Str) :
    (shared.getOrCreateNamespace name).1.connections = shared.connections := by
  simp only [getOrCreateNamespace]
  generalize (if name.head? = some '/' then name else '/' :: name) = name'
  cases IndexMap.get name' shared.namespaces <;> rfl

theorem getMatchingDynamicNamespace_connections (shared : Shared D) (name : Str)
    (auth : PacketDataValue) :
    (shared.getMatchingDynamicNamespace name auth).1.connections = shared.connections := by
  have hcreate := getOrCreateNamespace_connections shared name
  simp only [getMatchingDynamicNamespace]
  split
  · split
    · rename_i heq
      rw [heq] at hcreate
      exact hcreate
    · rename_i heq
      rw [heq] at hcreate
      exact hcreate
  · rfl

theorem addConnection_keepsDecoders (shared : Shared D) (ns : SimpleNamespace) (e : Str)
    (handshake : Handshake) (generatedId : Str) :
    KeepsDecoders shared (shared.addConnection ns e handshake generatedId).1 := by
  intro e'
  simp only [KeepsDecoder, addConnection]
  cases hget : IndexMap.get e shared.connections with
  | none =>
    have hnone : shared.decoderOf e = none := by rw [decoderOf, hget, Option.map_none]
    rw [decoderOf_insert shared rfl]
    by_cases he : e' = e
    · rw [if_pos he, he]
      exact .inr ⟨hnone, rfl⟩
    · rw [if_neg he]
      exact .inl rfl
  | some connection =>
    have hsome : shared.decoderOf e = Option.some connection.state.decoder := by
      rw [decoderOf, hget, Option.map_some]
    rw [decoderOf_insert shared rfl]
    by_cases he : e' = e
    · rw [if_pos he, he, hsome]
      simp only [Connection.addToNamespace]
      cases IndexMap.get ns.name connection.state.namespaces <;> exact .inl rfl
    · rw [if_neg he]
      exact .inl rfl

theorem connectClient_keepsDecoders (shared : Shared D) (context : RequestContext) (name e : Str)
    (auth : PacketDataValue) (environment : Environment) :
    KeepsDecoders shared (shared.connectClient context name e auth environment).1 :=
  (KeepsDecoders.of_connections (getOrCreateNamespace_connections shared name)).trans
    (addConnection_keepsDecoders _ _ e _ _)

theorem handleClientConnect_keepsDecoders (shared : Shared D) (context : RequestContext)
    (name e : Str) (auth : PacketDataValue) (environment : Environment) :
    KeepsDecoders shared (shared.handleClientConnect context name e auth environment).1 := by
  have hdynamic := getMatchingDynamicNamespace_connections shared name auth
  simp only [handleClientConnect]
  split
  · exact connectClient_keepsDecoders shared context name e auth environment
  · split
    · rename_i heq
      rw [heq] at hdynamic
      exact (KeepsDecoders.of_connections hdynamic).trans
        (connectClient_keepsDecoders _ context name e auth environment)
    · rename_i heq
      rw [heq] at hdynamic
      exact .of_connections hdynamic

/-- Handling a packet does not interfere with the packets that are still incomplete. -/
theorem handlePacketFromClient_keepsDecoders (shared : Shared D) (message : Message)
    (packet : Packet) : KeepsDecoders shared (shared.handlePacketFromClient message packet).1 := by
  simp only [handlePacketFromClient]
  split
  · exact handleClientConnect_keepsDecoders shared _ _ _ _ _
  · split <;> exact .of_connections rfl

end SocketIoRust.SocketIoServer.Shared
