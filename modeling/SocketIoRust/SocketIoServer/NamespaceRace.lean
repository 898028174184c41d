import SocketIoRust.SocketIoServer.Registry
import SocketIoRust.Library.GetOrCreate
import SocketIoRust.Library.JsonText

namespace SocketIoRust.SocketIoServer.NamespaceRace

open Library Library.Threads Library.GetOrCreate SocketIoParser

variable {D : Type}

/-- The map of the namespaces, which is asked and extended in two steps. -/
def namespaceStore (D : Type) : Store (Shared D) Str SimpleNamespace where
  get shared name := IndexMap.get name shared.namespaces
  create shared name := (shared.register name, ⟨shared.nextAddress, name⟩)
  Made shared ns := ns.address < shared.nextAddress
  Valid shared := ∀ name ns, IndexMap.get name shared.namespaces = some ns →
    ns.address < shared.nextAddress
  valid_create shared name h := by
    intro name' ns hget
    rw [Shared.register, IndexMap.get_insert] at hget
    split at hget
    · cases hget
      exact Nat.lt_succ_self _
    · exact Nat.lt_succ_of_lt (h name' ns hget)
  get_create shared name name' := IndexMap.get_insert name name' _ _
  made_create shared name ns h := by
    rcases h with h | rfl
    · exact Nat.lt_succ_of_lt h
    · exact Nat.lt_succ_self _
  new_create shared name := Nat.lt_irrefl _
  made_get shared name ns h hget := h name ns hget

/-- Without others in between, the two steps are those of `get_or_create_namespace`. -/
theorem getOrCreateNamespace_alone (shared : Shared D) (name : Str) :
    Pool.run (namespaceStore D).next Free ⟨shared, [.get (Shared.normalized name)]⟩ [0, 0] =
      ⟨(shared.getOrCreateNamespace name).1,
        [.done (Shared.normalized name) (shared.getOrCreateNamespace name).2.1
          (decide ((shared.getOrCreateNamespace name).2.2 = .new))]⟩ := by
  cases hget : IndexMap.get (Shared.normalized name) shared.namespaces with
  | some ns =>
    have hfirst : Pool.step (namespaceStore D).next Free
        ⟨shared, [.get (Shared.normalized name)]⟩ 0 =
          ⟨shared, [.done (Shared.normalized name) ns false]⟩ := by
      simp [Pool.step, Store.next, namespaceStore, hget, Free]
    rw [Shared.getOrCreateNamespace_of_some hget, Pool.run, List.foldl_cons, hfirst]
    rfl
  | none =>
    have hfirst : Pool.step (namespaceStore D).next Free
        ⟨shared, [.get (Shared.normalized name)]⟩ 0 =
          ⟨shared, [.create (Shared.normalized name)]⟩ := by
      simp [Pool.step, Store.next, namespaceStore, hget, Free]
    rw [Shared.getOrCreateNamespace_of_none hget, Pool.run, List.foldl_cons, hfirst]
    rfl

variable [Connection.Decoder D]

theorem valid_reached
    (decodeProtoPacket : Str → Outcome HandleEngineMessageError ProtoPacket)
    (operations : List Operation) :
    (namespaceStore D).Valid (Shared.reached D decodeProtoPacket operations) := by
  obtain ⟨directory, h⟩ := Shared.reached_represents D decodeProtoPacket operations
  intro name ns hget
  rw [h.namespaces, Option.map_eq_some_iff] at hget
  obtain ⟨e, hentry, rfl⟩ := hget
  exact h.allocated name e hentry

/-- When calls of `get_or_create_namespace` run at the same time, those for a name all return
the namespace that is registered under it if and only if at most one of them is told that its
namespace is new. -/
theorem registered_iff_one_new (D : Type) [Connection.Decoder D]
    (decodeProtoPacket : Str → Outcome HandleEngineMessageError ProtoPacket)
    (operations : List Operation) (p : Pool (Shared D) (Call Str SimpleNamespace))
    (h : Steps (namespaceStore D).next IsCall Free
      ⟨Shared.reached D decodeProtoPacket operations, []⟩ p) (name : Str) :
    (∀ ns new, .done name ns new ∈ p.threads →
        IndexMap.get name p.shared.namespaces = some ns) ↔
      p.threads.countP (Call.createsFor name) ≤ 1 :=
  GetOrCreate.registered_iff (valid_reached decodeProtoPacket operations) h name

/-- Two calls that look before either of them inserts. -/
def race : Pool (Shared DefaultDecoder) (Call Str SimpleNamespace) :=
  Pool.run (namespaceStore DefaultDecoder).next Free
    ⟨Shared.new, [.get ['/', 'a'], .get ['/', 'a']]⟩ [0, 1, 0, 1]

theorem registered_iff_one_new_race :
    ((∀ ns new, .done ['/', 'a'] ns new ∈ race.threads →
        IndexMap.get ['/', 'a'] race.shared.namespaces = some ns) ↔
      race.threads.countP (Call.createsFor ['/', 'a']) ≤ 1) ∧
    race.threads.countP (Call.createsFor ['/', 'a']) = 2 := by
  refine ⟨registered_iff_one_new DefaultDecoder
    (DefaultDecoder.decodeProtoPacket Json.standard .checked) [] race ?_ ['/', 'a'], rfl⟩
  refine (Steps.startAll _ [.get ['/', 'a'], .get ['/', 'a']] ?_).trans (Steps.run _ [0, 1, 0, 1])
  simp [IsCall]

end SocketIoRust.SocketIoServer.NamespaceRace
