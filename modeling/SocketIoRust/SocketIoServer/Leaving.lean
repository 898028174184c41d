import SocketIoRust.SocketIoServer.Moves
import SocketIoRust.SocketIoServer.Lookup

namespace SocketIoRust.SocketIoServer.Shared

open Library Lookup

variable {D : Type} {shared : Shared D}

/-- What `add_connection` is given, and the id that it would generate. -/
structure Arrival where
  ns : SimpleNamespace
  engineConnectionId : Str
  handshake : Handshake
  generatedId : Str

def arrive (shared : Shared D) (arrival : Arrival) : Shared D :=
  (shared.addConnection arrival.ns arrival.engineConnectionId arrival.handshake
    arrival.generatedId).1

def arriveAll (shared : Shared D) (arrivals : List Arrival) : Shared D :=
  arrivals.foldl arrive shared

/-- The socket is a member of the namespace at the address. -/
def Member (shared : Shared D) (address : ℕ) (s : Str) : Prop :=
  s ∈ (shared.memory address).socketIds

/-- The removal of a connection takes its sockets out of every namespace, and no others. -/
structure Leaves (shared : Shared D) (e : Str) : Prop where
  gone : ∀ s, Owns shared e s → ∀ address, ¬ Member (shared.removeConnection e).1 address s
  others : ∀ e' ≠ e, ∀ s, Owns shared e' s → ∀ address,
    Member (shared.removeConnection e).1 address s ↔ Member shared address s

theorem Unrecorded.recorded (h : Unrecorded shared) : Recorded shared := by
  intro e connection hget name record hrecord
  rw [h e connection hget] at hrecord
  cases hrecord

theorem Unrecorded.arrive (h : Unrecorded shared) (arrival : Arrival) :
    Unrecorded (shared.arrive arrival) := h.addConnection _ _ _ _

theorem Unrecorded.arrive_owns (h : Unrecorded shared) (arrival : Arrival) (e s : Str) :
    Owns (shared.arrive arrival) e s ↔
      Owns shared e s ∨ (arrival.engineConnectionId = e ∧ arrival.generatedId = s) := by
  have hadds := addConnection_adds h.recorded arrival.ns arrival.engineConnectionId
    arrival.handshake arrival.generatedId
  have hid : (shared.addConnection arrival.ns arrival.engineConnectionId arrival.handshake
      arrival.generatedId).2 = arrival.generatedId := by
    rw [addConnection_eq (h.connectionOf _)]
  rw [Shared.arrive, hadds.owns, hid, eq_comm (a := e), eq_comm (a := s)]

theorem Unrecorded.arrive_member (h : Unrecorded shared) (arrival : Arrival) (address : ℕ)
    (s : Str) : Member (shared.arrive arrival) address s ↔
      Member shared address s ∨ (arrival.ns.address = address ∧ arrival.generatedId = s) := by
  rw [Shared.arrive, addConnection_eq (h.connectionOf _), eq_comm (a := arrival.ns.address),
    eq_comm (a := arrival.generatedId)]
  exact SimpleNamespace.mem_addSocket

/-- Every arrival leaves a socket with its connection, which is a member of the namespace. -/
theorem Unrecorded.arriveAll (h : Unrecorded shared) (arrivals : List Arrival) :
    Unrecorded (shared.arriveAll arrivals) ∧
    (∀ e s, Owns (shared.arriveAll arrivals) e s ↔ Owns shared e s ∨
      ∃ arrival ∈ arrivals, arrival.engineConnectionId = e ∧ arrival.generatedId = s) ∧
    ∀ address s, Member (shared.arriveAll arrivals) address s ↔ Member shared address s ∨
      ∃ arrival ∈ arrivals, arrival.ns.address = address ∧ arrival.generatedId = s := by
  induction arrivals generalizing shared with
  | nil => exact ⟨h, by simp [Shared.arriveAll], by simp [Shared.arriveAll]⟩
  | cons arrival arrivals ih =>
    obtain ⟨hlast, howns, hmember⟩ := ih (h.arrive arrival)
    refine ⟨hlast, ?_, ?_⟩
    · intro e s
      refine (howns e s).trans ?_
      rw [h.arrive_owns, List.exists_mem_cons_iff, or_assoc]
    · intro address s
      refine (hmember address s).trans ?_
      rw [h.arrive_member, List.exists_mem_cons_iff, or_assoc]

/-- The destructor finds no namespace to take a socket out of. -/
theorem Unrecorded.removeConnection_memory (h : Unrecorded shared) (e : Str) :
    (shared.removeConnection e).1.memory = shared.memory := by
  rw [Shared.removeConnection]
  split
  · rename_i connection hget
    dsimp only
    rw [Connection.drop, h e connection hget]
    rfl
  · rfl

/-- A connection leaves its namespaces only if it has never been in one. -/
theorem leaves_iff (h : shared.connections = []) (arrivals : List Arrival) (e : Str) :
    Leaves (shared.arriveAll arrivals) e ↔
      ∀ arrival ∈ arrivals, arrival.engineConnectionId ≠ e := by
  have hstart : Unrecorded shared := by
    intro e connection hget
    rw [h] at hget
    cases hget
  have hnone (s : Str) : ¬ Owns shared e s := by
    rintro ⟨connection, hget, -⟩
    rw [h] at hget
    cases hget
  obtain ⟨hlast, howns, hmember⟩ := hstart.arriveAll arrivals
  have hmemory := hlast.removeConnection_memory e
  constructor
  · intro hleaves arrival harrival he
    have howned : Owns (shared.arriveAll arrivals) e arrival.generatedId :=
      (howns _ _).mpr (.inr ⟨arrival, harrival, he, rfl⟩)
    have hjoined : Member (shared.arriveAll arrivals) arrival.ns.address arrival.generatedId :=
      (hmember _ _).mpr (.inr ⟨arrival, harrival, rfl, rfl⟩)
    apply hleaves.gone arrival.generatedId howned arrival.ns.address
    rw [Member, hmemory]
    exact hjoined
  · intro hne
    refine ⟨?_, ?_⟩
    · intro s hs
      rcases (howns e s).mp hs with hold | ⟨arrival, harrival, he, -⟩
      · exact absurd hold (hnone s)
      · exact absurd he (hne arrival harrival)
    · intro e' he s hs address
      rw [Member, Member, hmemory]

/-- A client comes to the root namespace. -/
def rootArrival : Arrival :=
  ⟨⟨0, ['/']⟩, ['e'], ⟨[], 0, [], false, false, 0, [], [], .null⟩, ['s']⟩

theorem leaves_iff_root :
    Leaves ((Shared.new : Shared SocketIoParser.DefaultDecoder).arriveAll [rootArrival]) ['e'] ↔
      ∀ arrival ∈ [rootArrival], arrival.engineConnectionId ≠ ['e'] :=
  leaves_iff rfl [rootArrival] ['e']

theorem arriveAll_root : ¬ ∀ (arrivals : List Arrival) (e : Str),
    Leaves ((Shared.new : Shared SocketIoParser.DefaultDecoder).arriveAll arrivals) e := by
  intro h
  have howns : Owns ((Shared.new : Shared SocketIoParser.DefaultDecoder).arriveAll [rootArrival])
      ['e'] ['s'] := ⟨_, rfl, List.mem_cons_self⟩
  have hmember : Member (((Shared.new : Shared SocketIoParser.DefaultDecoder).arriveAll
      [rootArrival]).removeConnection ['e']).1 0 ['s'] := List.mem_cons_self
  exact (h [rootArrival] ['e']).gone ['s'] howns 0 hmember

end SocketIoRust.SocketIoServer.Shared
