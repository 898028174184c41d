import SocketIoRust.EngineIoServer.Interleaving
import SocketIoRust.EngineIoWarp.AdapterWarp
import Mathlib.Algebra.Order.Group.Multiset
import Mathlib.Data.List.Perm.Subperm

namespace SocketIoRust.EngineIoServer.Conservation

open Library Library.Threads EngineIoParser

variable {A κ α : Type} [Adapter A]

/-- The batch that a flush has taken and not sent yet. -/
def takenPackets : Thread κ → List Packet
  | .sendCmd _ packets => packets
  | _ => []

/-- The callbacks that a flush has taken and not stored yet. -/
def takenCallbacks : Thread κ → List κ
  | .testFraming callbacks => callbacks
  | .extendFlushed batches => batches.flatMap CallbackBatch.callbacks
  | _ => []

/-- The write buffer, the batches that are taken, the commands, and what was cleared. -/
def packetPlaces (pool : Pool (SharedSocket A κ) (Thread κ)) : List (List Packet) :=
  let socket := pool.shared.socket
  [socket.state.writeBuffer] ++ pool.threads.map takenPackets ++
    socket.trace.commands.map TransportCmd.packets ++ [pool.shared.history.cleared]

def callbackPlaces (pool : Pool (SharedSocket A κ) (Thread κ)) : List (List κ) :=
  let socket := pool.shared.socket
  [socket.state.pendingCallbacks] ++ pool.threads.map takenCallbacks ++
    socket.state.flushedCallbacks.map CallbackBatch.callbacks ++
    [socket.trace.executed, pool.shared.history.clearedCallbacks]

/-- Each item is in one of the places, and in no other one. -/
structure Placed (items : List α) (places : List (List α)) : Prop where
  perm : items.Perm places.flatten
  unique : items.Nodup → ∀ x ∈ items, ∃! i : Fin places.length, x ∈ places.get i

/-- Nothing that was pushed is lost, sent twice or executed twice. -/
structure Conserved (pool : Pool (SharedSocket A κ) (Thread κ)) : Prop where
  packets : Placed pool.shared.history.pushed (packetPlaces pool)
  callbacks : Placed pool.shared.history.pushedCallbacks (callbackPlaces pool)
  sent : (pool.shared.socket.trace.commands.flatMap TransportCmd.packets).Subperm
    pool.shared.history.pushed
  executed : pool.shared.socket.trace.executed.Subperm pool.shared.history.pushedCallbacks

theorem Placed.of_perm {items : List α} {places : List (List α)} (h : items.Perm places.flatten) :
    Placed items places := by
  refine ⟨h, ?_⟩
  intro hnodup x hx
  obtain ⟨-, hdisjoint⟩ := List.nodup_flatten.mp (h.nodup_iff.mp hnodup)
  obtain ⟨place, hplace, hmem⟩ := List.mem_flatten.mp (h.mem_iff.mp hx)
  obtain ⟨i, rfl⟩ := List.get_of_mem hplace
  refine ⟨i, hmem, ?_⟩
  intro j hj
  rcases lt_trichotomy j i with hlt | rfl | hlt
  · exact absurd hmem (List.pairwise_iff_get.mp hdisjoint j i hlt hj)
  · rfl
  · exact absurd hj (List.pairwise_iff_get.mp hdisjoint i j hlt hmem)

theorem batch_callbacks (supportsFraming : Bool) (callbacks : List κ) :
    (batch supportsFraming callbacks).flatMap CallbackBatch.callbacks = callbacks := by
  cases supportsFraming with
  | false => simp [batch, CallbackBatch.callbacks]
  | true =>
    induction callbacks with
    | nil => rfl
    | cons callback callbacks ih => simpa [batch, CallbackBatch.callbacks] using ih

/-- The packets and the callbacks that were pushed, as they are counted. -/
def created (s : SharedSocket A κ) : Multiset Packet × Multiset κ :=
  (s.history.pushed, s.history.pushedCallbacks)

/-- Those which no call holds in its hands. -/
def held (s : SharedSocket A κ) : Multiset Packet × Multiset κ :=
  let socket := s.socket
  (socket.state.writeBuffer + (socket.trace.commands.flatMap TransportCmd.packets : List Packet) +
      s.history.cleared,
    socket.state.pendingCallbacks +
      (socket.state.flushedCallbacks.flatMap CallbackBatch.callbacks : List κ) +
      socket.trace.executed + s.history.clearedCallbacks)

def taken (t : Thread κ) : Multiset Packet × Multiset κ := (takenPackets t, takenCallbacks t)

theorem taken_of_emptyHanded {t : Thread κ} (h : t.emptyHanded = true) : taken t = 0 := by
  cases t with
  | sendCmd | testFraming | extendFlushed => cases h
  | _ => rfl

theorem next_conserved (s : SharedSocket A κ) (t : Thread κ) (s' : SharedSocket A κ)
    (t' : Thread κ) (h : Thread.next s t = some (s', t')) :
    created s' + (held s + taken t) = created s + (held s' + taken t') := by
  cases Thread.next_moves h with
  | push packet callback =>
    apply Prod.ext
    · simp only [created, held, taken, takenPackets, SharedSocket.push, SharedSocket.setState,
        SocketState.pushPacket, Prod.fst_add, ← Multiset.coe_add]
      abel
    · simp only [created, held, taken, takenCallbacks, SharedSocket.push, SharedSocket.setState,
        SocketState.pushPacket, Prod.snd_add, ← Multiset.coe_add]
      abel
  | takeWriteBuffer =>
    apply Prod.ext
    · simp only [created, held, taken, takenPackets, SharedSocket.takeWriteBuffer,
        SharedSocket.setState, SocketState.takeWriteBuffer, Prod.fst_add, Multiset.coe_nil]
      abel
    · rfl
  | sendCmd ticket packets =>
    apply Prod.ext
    · simp only [created, held, taken, takenPackets, SharedSocket.sendCmd, Trace.send,
        List.flatMap_append, List.flatMap_singleton, TransportCmd.packets, Prod.fst_add,
        ← Multiset.coe_add, Multiset.coe_nil]
      abel
    · rfl
  | takeCallbacks =>
    apply Prod.ext
    · rfl
    · simp only [created, held, taken, takenCallbacks, SharedSocket.setState,
        SocketState.takeCallbacks, Prod.snd_add, Multiset.coe_nil]
      abel
  | testFraming callbacks =>
    rw [taken, taken, takenCallbacks, takenCallbacks, batch_callbacks]
    rfl
  | extendFlushed batches =>
    apply Prod.ext
    · rfl
    · simp only [created, held, taken, takenCallbacks, SharedSocket.setState,
        SocketState.extendFlushed, List.flatMap_append, Prod.snd_add, ← Multiset.coe_add,
        Multiset.coe_nil]
      abel
  | onDrain =>
    obtain ⟨batches, hstate, hflushed⟩ := s.socket.state.removeFlushed_spec
    rw [hstate]
    apply Prod.ext
    · rfl
    · simp only [created, held, taken, takenCallbacks, Trace.execute, hflushed, Prod.snd_add,
        ← Multiset.coe_add]
      abel
  | clear reason =>
    apply Prod.ext
    · simp only [created, held, taken, takenPackets, SharedSocket.clear, SharedSocket.setState,
        SocketState.clear, Prod.fst_add, ← Multiset.coe_add, Multiset.coe_nil]
      abel
    · simp only [created, held, taken, takenCallbacks, SharedSocket.clear, SharedSocket.setState,
        SocketState.clear, Prod.snd_add, ← Multiset.coe_add, Multiset.coe_nil]
      abel
  | idle hi =>
    rw [taken_of_emptyHanded hi.emptyHanded.1, taken_of_emptyHanded hi.emptyHanded.2]
    simp only [created, held, hi.history, hi.writeBuffer, hi.pendingCallbacks,
      hi.flushedCallbacks, hi.commands, hi.executed]

theorem isCall_taken {t : Thread κ} (h : IsCall t) : taken t = 0 := by
  apply taken_of_emptyHanded
  cases h <;> rfl

theorem total_taken (pool : Pool (SharedSocket A κ) (Thread κ)) :
    pool.total taken =
      (((pool.threads.flatMap takenPackets : List Packet) : Multiset Packet),
        ((pool.threads.flatMap takenCallbacks : List κ) : Multiset κ)) := by
  rw [Pool.total]
  induction pool.threads with
  | nil => rfl
  | cons t ts ih =>
    rw [List.map_cons, List.sum_cons, ih]
    simp only [taken, List.flatMap_cons, Prod.mk_add_mk, Multiset.coe_add]

theorem packets_perm {pool : Pool (SharedSocket A κ) (Thread κ)}
    (h : created pool.shared = held pool.shared + pool.total taken) :
    pool.shared.history.pushed.Perm (packetPlaces pool).flatten := by
  have hfst := congrArg Prod.fst h
  simp only [created, held, total_taken, Prod.fst_add] at hfst
  rw [← Multiset.coe_eq_coe, hfst]
  simp only [packetPlaces, List.flatten_append, List.flatten_singleton, ← Multiset.coe_add,
    ← List.flatMap_def]
  abel

theorem callbacks_perm {pool : Pool (SharedSocket A κ) (Thread κ)}
    (h : created pool.shared = held pool.shared + pool.total taken) :
    pool.shared.history.pushedCallbacks.Perm (callbackPlaces pool).flatten := by
  have hsnd := congrArg Prod.snd h
  simp only [created, held, total_taken, Prod.snd_add] at hsnd
  rw [← Multiset.coe_eq_coe, hsnd]
  simp only [callbackPlaces, List.flatten_append, List.flatten_cons, List.flatten_nil,
    List.append_nil, ← Multiset.coe_add, ← List.flatMap_def]
  abel

theorem created_of (socket : Socket A κ) :
    created (SharedSocket.of socket) =
      held (SharedSocket.of socket) + Pool.total ⟨SharedSocket.of socket, []⟩ taken := by
  simp [created, held, Pool.total, SharedSocket.of, List.perm_append_comm]

theorem Placed.subperm {items : List α} {places kept : List (List α)} (h : Placed items places)
    (hs : kept.Sublist places) : kept.flatten.Subperm items :=
  hs.flatten.subperm.trans h.perm.symm.subperm

/-- Whatever calls run at the same time, each packet and each callback is in one place. -/
theorem calls_conserve (socket : Socket A κ) (pool : Pool (SharedSocket A κ) (Thread κ))
    (h : Steps Thread.next IsCall Free ⟨.of socket, []⟩ pool) : Conserved pool := by
  have hall : created pool.shared = held pool.shared + pool.total taken :=
    h.conserved (fun t ht ↦ isCall_taken ht) next_conserved (created_of socket)
  have hpackets : Placed pool.shared.history.pushed (packetPlaces pool) :=
    .of_perm (packets_perm hall)
  have hcallbacks : Placed pool.shared.history.pushedCallbacks (callbackPlaces pool) :=
    .of_perm (callbacks_perm hall)
  refine ⟨hpackets, hcallbacks, ?_, ?_⟩
  · rw [List.flatMap_def]
    apply hpackets.subperm
    rw [packetPlaces, List.append_assoc]
    exact (List.sublist_append_left _ _).trans (List.sublist_append_right _ _)
  · rw [← List.flatten_singleton (l := pool.shared.socket.trace.executed)]
    apply hcallbacks.subperm
    refine List.Sublist.trans ?_ (List.sublist_append_right _ _)
    exact List.singleton_sublist.mpr (List.mem_cons_self ..)

/-- A call that sends a packet while another one flushes. -/
theorem calls_conserve_two :
    let socket := EngineIoWarp.opened Base64.standard .wrapping Unit (.webSocket true ⟨0⟩)
    let calls := [Thread.sendPacket ⟨.noop, .empty⟩ (some ()), .flush]
    Conserved (Pool.run Thread.next Free ⟨.of socket, calls⟩ [0, 0, 1, 0, 1]) := by
  intro socket calls
  have hcalls : ∀ t ∈ calls, IsCall t := by
    intro t ht
    rcases List.mem_pair.mp ht with rfl | rfl
    · exact .sendPacket _ _
    · exact .flush
  exact calls_conserve socket _ ((Steps.startAll _ calls hcalls).trans (Steps.run _ _))

end SocketIoRust.EngineIoServer.Conservation
