import SocketIoRust.SocketIoServer.Shared

namespace SocketIoRust.SocketIoServer.Lookup

open Library

variable {D : Type}

/-- The socket `s` is one of the sockets of the engine connection `e`. -/
def Owns (shared : Shared D) (e s : Str) : Prop :=
  ∃ connection, IndexMap.get e shared.connections = some connection ∧
    s ∈ connection.iterSocketIds

/-- The sockets that a connection has recorded for its namespaces are sockets of its own. -/
def Recorded (shared : Shared D) : Prop :=
  ∀ e connection, IndexMap.get e shared.connections = some connection →
    ∀ name record, IndexMap.get name connection.state.namespaces = some record →
      record.1 ∈ connection.iterSocketIds

/-- The mapping sends the sockets of the connections to their connections, all of which
have ids that were given out. -/
structure Consistent (given : List Str) (shared : Shared D) : Prop where
  lookup : ∀ s e, IndexMap.get s shared.connectionLookup = some e ↔ Owns shared e s
  recorded : Recorded shared
  given : ∀ e s, Owns shared e s → s ∈ given

theorem Consistent.owner_unique {given : List Str} {shared : Shared D}
    (h : Consistent given shared) {e e' s : Str} (ho : Owns shared e s) (ho' : Owns shared e' s) :
    e = e' := by
  have he := (h.lookup s e).mpr ho
  have he' := (h.lookup s e').mpr ho'
  rw [he] at he'
  exact Option.some.inj he'

/-- A connection inserted for `e` changes what `e` owns, and nothing else. -/
theorem owns_insert {shared shared' : Shared D} {e : Str} {connection : Connection D}
    (h : shared'.connections = IndexMap.insert e connection shared.connections) (e' s : Str) :
    Owns shared' e' s ↔
      if e' = e then s ∈ connection.iterSocketIds else Owns shared e' s := by
  rw [Owns, h]
  simp only [IndexMap.get_insert]
  by_cases he : e' = e
  · simp [he]
  · simp only [he, if_false]
    exact Iff.rfl

/-- What `add_connection` does: it gives `e` the socket that it answers with, which is the
generated one or one that `e` had. -/
structure Adds (shared shared' : Shared D) (e generatedId socketId : Str) : Prop where
  connectionLookup : shared'.connectionLookup = IndexMap.insert socketId e shared.connectionLookup
  socket : socketId = generatedId ∨ Owns shared e socketId
  owns : ∀ e' s, Owns shared' e' s ↔ Owns shared e' s ∨ (e' = e ∧ s = socketId)
  recorded : Recorded shared'

theorem recorded_insert {shared shared' : Shared D} (hrec : Recorded shared) {e : Str}
    {connection : Connection D}
    (h : shared'.connections = IndexMap.insert e connection shared.connections)
    (hc : ∀ name record, IndexMap.get name connection.state.namespaces = some record →
      record.1 ∈ connection.iterSocketIds) : Recorded shared' := by
  intro e' connection' hget
  rw [h, IndexMap.get_insert] at hget
  split at hget
  · cases hget
    exact hc
  · exact hrec e' connection' hget

/-- The call inserts a connection for `e` whose sockets are those that `e` had, and the
socket that it answers with. -/
theorem adds_of_insert {shared shared' : Shared D} (hrec : Recorded shared) {e : Str}
    {connection : Connection D} {generatedId socketId : Str}
    (hconn : shared'.connections = IndexMap.insert e connection shared.connections)
    (hlookup : shared'.connectionLookup = IndexMap.insert socketId e shared.connectionLookup)
    (hsocket : socketId = generatedId ∨ Owns shared e socketId)
    (hids : ∀ s, s ∈ connection.iterSocketIds ↔ s = socketId ∨ Owns shared e s)
    (hc : ∀ name record, IndexMap.get name connection.state.namespaces = some record →
      record.1 ∈ connection.iterSocketIds) :
    Adds shared shared' e generatedId socketId where
  connectionLookup := hlookup
  socket := hsocket
  owns e' s := by
    rw [owns_insert hconn]
    by_cases he : e' = e
    · subst he
      simp only [if_true, true_and, hids, or_comm]
    · simp only [he, if_false, false_and, or_false]
  recorded := recorded_insert hrec hconn hc

theorem owns_of_get {shared : Shared D} {e : Str} {connection : Connection D}
    (h : IndexMap.get e shared.connections = some connection) (s : Str) :
    Owns shared e s ↔ s ∈ connection.iterSocketIds := by
  simp [Owns, h]

theorem addConnection_adds {shared : Shared D} (hrec : Recorded shared) (ns : SimpleNamespace)
    (e : Str) (handshake : Handshake) (generatedId : Str) :
    Adds shared (shared.addConnection ns e handshake generatedId).1 e generatedId
      (shared.addConnection ns e handshake generatedId).2 := by
  simp only [Shared.addConnection]
  cases hget : IndexMap.get e shared.connections with
  | none =>
    refine adds_of_insert hrec rfl rfl (.inl rfl) ?_ ?_
    · intro s
      have hnone : ¬ Owns shared e s := by simp [Owns, hget]
      simp [Connection.initializeConnection, Connection.createSocket, Connection.iterSocketIds,
        IndexMap.keys, IndexMap.insert, Socket.new, hnone]
    · intro name record hname
      cases hname
  | some connection =>
    have howns := owns_of_get hget
    cases hns : IndexMap.get ns.name connection.state.namespaces with
    | none =>
      simp only [Connection.addToNamespace, hns]
      refine adds_of_insert hrec rfl rfl (.inl rfl) ?_ ?_
      · intro s
        rw [howns]
        exact IndexMap.mem_keys_insert
      · intro name record hname
        apply IndexMap.mem_keys_insert.mpr
        exact .inr (hrec e connection hget name record hname)
    | some record =>
      have hown := hrec e connection hget ns.name record hns
      simp only [Connection.addToNamespace, hns]
      refine adds_of_insert hrec rfl rfl (.inr ((howns _).mpr hown)) ?_ (hrec e connection hget)
      intro s
      rw [howns]
      constructor
      · exact .inr
      · intro hs
        rcases hs with rfl | hs
        · exact hown
        · exact hs

theorem consistent_of_adds {given : List Str} {shared shared' : Shared D}
    (h : Consistent given shared) {e generatedId socketId : Str} (hfresh : generatedId ∉ given)
    (ha : Adds shared shared' e generatedId socketId) :
    Consistent (generatedId :: given) shared' where
  recorded := ha.recorded
  given e' s ho := by
    rcases (ha.owns e' s).mp ho with ho | ⟨-, rfl⟩
    · exact .tail _ (h.given e' s ho)
    · rcases ha.socket with rfl | ho
      · exact .head _
      · exact .tail _ (h.given e s ho)
  lookup s e' := by
    rw [ha.connectionLookup, IndexMap.get_insert, ha.owns, ← h.lookup s e']
    by_cases hs : s = socketId
    · subst hs
      -- whoever has the socket already is `e`
      have howner : IndexMap.get s shared.connectionLookup = some e' → e' = e := by
        intro hl
        have ho := (h.lookup s e').mp hl
        rcases ha.socket with rfl | ho'
        · exact absurd (h.given e' s ho) hfresh
        · exact h.owner_unique ho ho'
      simp only [if_true, and_true, Option.some.injEq]
      constructor
      · intro he
        exact .inr he.symm
      · intro hor
        rcases hor with hl | rfl
        · exact (howner hl).symm
        · rfl
    · simp only [hs, if_false, and_false, or_false]

theorem removeConnection_owns {shared : Shared D} (e e' s : Str) :
    Owns (shared.removeConnection e).1 e' s ↔ Owns shared e' s ∧ e' ≠ e := by
  cases hget : IndexMap.get e shared.connections with
  | none =>
    simp only [Shared.removeConnection, hget]
    constructor
    · intro ho
      refine ⟨ho, ?_⟩
      intro he
      subst he
      obtain ⟨c, hc, -⟩ := ho
      rw [hget] at hc
      cases hc
    · exact And.left
  | some connection =>
    simp only [Shared.removeConnection, hget, Owns, IndexMap.get_erase]
    by_cases he : e' = e
    · simp [he]
    · simp [he]

theorem removeConnection_lookup {shared : Shared D} (e s : Str) [Decidable (Owns shared e s)] :
    IndexMap.get s (shared.removeConnection e).1.connectionLookup =
      if Owns shared e s then none else IndexMap.get s shared.connectionLookup := by
  cases hget : IndexMap.get e shared.connections with
  | none =>
    have hnone : ¬ Owns shared e s := by simp [Owns, hget]
    simp only [Shared.removeConnection, hget, hnone, if_false]
  | some connection =>
    simp only [Shared.removeConnection, hget, owns_of_get hget]
    rw [IndexMap.get_foldl_erase]
    congr

theorem consistent_removeConnection {given : List Str} {shared : Shared D}
    (h : Consistent given shared) (e : Str) :
    Consistent given (shared.removeConnection e).1 where
  recorded e' connection hget := by
    have hold : IndexMap.get e' shared.connections = some connection := by
      simp only [Shared.removeConnection] at hget
      split at hget
      · rw [IndexMap.get_erase] at hget
        split at hget
        · cases hget
        · exact hget
      · exact hget
    exact h.recorded e' connection hold
  given e' s ho := h.given e' s ((removeConnection_owns e e' s).mp ho).1
  lookup s e' := by
    classical
    rw [removeConnection_lookup, removeConnection_owns, ← h.lookup s e']
    by_cases ho : Owns shared e s
    · simp only [ho, if_true]
      constructor
      · intro hn
        cases hn
      · intro hl
        exact absurd (h.owner_unique ((h.lookup s e').mp hl.1) ho) hl.2
    · simp only [ho, if_false]
      constructor
      · intro hl
        refine ⟨hl, ?_⟩
        intro he
        subst he
        exact ho ((h.lookup s e').mp hl)
      · exact And.left

inductive Call where
  | addConnection : SimpleNamespace → Str → Handshake → Str → Call
  | removeConnection : Str → Call

def Call.generatedId : Call → Option Str
  | addConnection _ _ _ generatedId => some generatedId
  | removeConnection _ => none

def Call.perform (shared : Shared D) : Call → Shared D
  | addConnection ns e handshake generatedId => (shared.addConnection ns e handshake generatedId).1
  | removeConnection e => (shared.removeConnection e).1

theorem consistent_run {given : List Str} {shared : Shared D} (h : Consistent given shared)
    (calls : List Call) (hfresh : (calls.filterMap Call.generatedId).Nodup)
    (hgiven : ∀ id ∈ calls.filterMap Call.generatedId, id ∉ given) :
    ∃ given', Consistent given' (calls.foldl Call.perform shared) := by
  induction calls generalizing given shared with
  | nil => exact ⟨given, h⟩
  | cons call calls ih =>
    rw [List.foldl_cons]
    cases call with
    | addConnection ns e handshake generatedId =>
      simp only [Call.generatedId, List.filterMap_cons, List.nodup_cons,
        List.forall_mem_cons] at hfresh hgiven
      apply ih (consistent_of_adds h hgiven.1 (addConnection_adds h.recorded ns e handshake
        generatedId)) hfresh.2
      intro id hid hmem
      rcases List.mem_cons.mp hmem with rfl | hmem
      · exact hfresh.1 hid
      · exact hgiven.2 id hid hmem
    | removeConnection e =>
      simp only [Call.generatedId, List.filterMap_cons] at hfresh hgiven
      exact ih (consistent_removeConnection h e) hfresh hgiven

/-- After any run with fresh ids the mapping is exactly the sockets of the connections,
each with its connection, and no socket belongs to two of them. -/
theorem connectionLookup_exact (shared : Shared D) (hconn : shared.connections = [])
    (hlookup : shared.connectionLookup = []) (calls : List Call)
    (hfresh : (calls.filterMap Call.generatedId).Nodup) :
    (∀ s e, IndexMap.get s (calls.foldl Call.perform shared).connectionLookup = some e ↔
      Owns (calls.foldl Call.perform shared) e s) ∧
    ∀ s e e', Owns (calls.foldl Call.perform shared) e s →
      Owns (calls.foldl Call.perform shared) e' s → e = e' := by
  have hempty : ∀ e s, ¬ Owns shared e s := by simp [Owns, hconn, IndexMap.get]
  have hstart : Consistent [] shared := by
    refine ⟨?_, ?_, fun e s ho ↦ absurd ho (hempty e s)⟩
    · intro s e
      simp [hlookup, IndexMap.get, hempty]
    · intro e connection hget
      rw [hconn] at hget
      cases hget
  obtain ⟨given, h⟩ := consistent_run hstart calls hfresh (by simp)
  exact ⟨h.lookup, fun s e e' ↦ h.owner_unique⟩

def comeAndGo : List Call :=
  let handshake : Handshake := ⟨[], 0, [], false, false, 0, [], [], .null⟩
  [.addConnection ⟨0, ['/']⟩ ['e'] handshake ['s'], .addConnection ⟨0, ['/']⟩ ['f'] handshake ['t'],
    .removeConnection ['e']]

theorem connectionLookup_exact_comeAndGo :
    (∀ s e, IndexMap.get s
        (comeAndGo.foldl Call.perform (Shared.new : Shared SocketIoParser.DefaultDecoder)).connectionLookup =
          some e ↔
      Owns (comeAndGo.foldl Call.perform (Shared.new : Shared SocketIoParser.DefaultDecoder)) e s) ∧
    ∀ s e e', Owns (comeAndGo.foldl Call.perform
        (Shared.new : Shared SocketIoParser.DefaultDecoder)) e s →
      Owns (comeAndGo.foldl Call.perform
        (Shared.new : Shared SocketIoParser.DefaultDecoder)) e' s → e = e' :=
  connectionLookup_exact Shared.new rfl rfl comeAndGo (by decide)

end SocketIoRust.SocketIoServer.Lookup
