import SocketIoRust.SocketIoServer.Shared
import Mathlib.Data.Finset.Dedup
import Mathlib.Data.Finset.Lattice.Lemmas

namespace SocketIoRust.SocketIoServer

open Library SocketIoParser
open Library.Outcome (ok err)

structure StorageFlags where
  volatile : Bool
  compress : Bool
  «local» : Bool
deriving DecidableEq, Repr

instance : Inhabited StorageFlags := ⟨⟨false, false, false⟩⟩

structure BroadcastError where
deriving DecidableEq, Repr

inductive EmitError where
  | emptyEventName
  | broadcastError
deriving DecidableEq, Repr

def EmitError.fromBroadcastError (_ : BroadcastError) : EmitError := .broadcastError

/-- The trait `Storage`, as far as a broadcast uses it. -/
class Storage (S : Type) where
  broadcast : Packet → List Str → StorageFlags → S → Outcome BroadcastError Unit × S

/-- The trait `NamespacePriv`, for namespaces whose broadcasts change a state of type `σ`. -/
class NamespacePriv (N σ : Type) where
  broadcastPacket : N → Str → PacketDataValue → List Str → StorageFlags → σ →
    Outcome BroadcastError Unit × σ

def messageEventName : Str := "message".toList

def makeHashSetFromStr (inputStr : Str) : Finset Str := insert inputStr ∅

def makePacketForEvent (eventName : Str) (data : PacketDataValue) (namespaceName : Str) : Packet :=
  let name := PacketDataValue.string eventName
  let packetData := PacketDataValue.array [name, data]
  ⟨.event, none, namespaceName, packetData⟩

variable {N S σ ε α : Type}

def SimpleNamespace.broadcastPacket [Storage S] (self : SimpleNamespace) (eventName : Str)
    (data : PacketDataValue) (rooms : List Str) (flags : StorageFlags) (storages : ℕ → S) :
    Outcome BroadcastError Unit × (ℕ → S) :=
  let packet := makePacketForEvent eventName data self.name
  let (result, storage) := Storage.broadcast packet rooms flags (storages self.address)
  (result, Function.update storages self.address storage)

instance [Storage S] : NamespacePriv SimpleNamespace (ℕ → S) := ⟨SimpleNamespace.broadcastPacket⟩

def tryForEach (f : α → σ → Outcome ε Unit × σ) : List α → σ → Outcome ε Unit × σ
  | [], state => (ok (), state)
  | a :: as, state =>
    match f a state with
    | (ok (), state) => tryForEach f as state
    | (err e, state) => (err e, state)
    | (.panic, state) => (.panic, state)

/-- The members are found at the namespace's address, in the order in which they are visited. -/
def DynamicNamespace.broadcastPacket [Storage S] (self : DynamicNamespace) (eventName : Str)
    (data : PacketDataValue) (rooms : List Str) (flags : StorageFlags)
    (state : (ℕ → List (Str × SimpleNamespace)) × (ℕ → S)) :
    Outcome BroadcastError Unit × (ℕ → List (Str × SimpleNamespace)) × (ℕ → S) :=
  let (members, storages) := state
  let (result, storages) := tryForEach
    (fun el ↦ el.2.broadcastPacket eventName data rooms flags) (members self.address) storages
  (result, members, storages)

instance [Storage S] :
    NamespacePriv DynamicNamespace ((ℕ → List (Str × SimpleNamespace)) × (ℕ → S)) :=
  ⟨DynamicNamespace.broadcastPacket⟩

/-- A namespace that targets one or more rooms. -/
structure FilteredNamespace (N : Type) where
  ns : N
  rooms : Finset Str
  nonempty : rooms.Nonempty

/-- An order in which the elements of a set are visited; a hash set promises none. -/
structure Visit (s : Finset Str) where
  elements : List Str
  nodup : elements.Nodup
  toFinset_eq : elements.toFinset = s

namespace FilteredNamespace

def new (room : Str) (ns : N) : FilteredNamespace N := ⟨ns, {room}, Finset.singleton_nonempty room⟩

def toRoom (self : FilteredNamespace N) (roomName : Str) : FilteredNamespace N :=
  ⟨self.ns, makeHashSetFromStr roomName, Finset.insert_nonempty roomName ∅⟩

def addRoom (self : FilteredNamespace N) (roomName : Str) : FilteredNamespace N :=
  ⟨self.ns, insert roomName self.rooms, Finset.insert_nonempty roomName self.rooms⟩

variable [NamespacePriv N σ]

def emitWithFlags (self : FilteredNamespace N) (eventName : Str) (data : PacketDataValue)
    (flags : StorageFlags) (visit : Visit self.rooms) (state : σ) : Outcome EmitError Unit × σ :=
  if eventName = [] then (err .emptyEventName, state) else
  let rooms := visit.elements
  let (result, state) := NamespacePriv.broadcastPacket self.ns eventName data rooms flags state
  (result.mapErr EmitError.fromBroadcastError, state)

def emit (self : FilteredNamespace N) (eventName : Str) (data : PacketDataValue)
    (visit : Visit self.rooms) (state : σ) : Outcome EmitError Unit × σ :=
  self.emitWithFlags eventName data default visit state

def sendWithFlags (self : FilteredNamespace N) (data : PacketDataValue) (flags : StorageFlags)
    (visit : Visit self.rooms) (state : σ) : Outcome EmitError Unit × σ :=
  self.emitWithFlags messageEventName data flags visit state

def send (self : FilteredNamespace N) (data : PacketDataValue) (visit : Visit self.rooms)
    (state : σ) : Outcome EmitError Unit × σ :=
  self.emit messageEventName data visit state

/-- What an emission is to do: the namespace broadcasts to the rooms of `audience`, each
of them named once. -/
def BroadcastsTo (ns : N) (audience : Finset Str) (eventName : Str) (data : PacketDataValue)
    (flags : StorageFlags) (state : σ) (result : Outcome EmitError Unit × σ) : Prop :=
  ∃ rooms : List Str, rooms.Nodup ∧ rooms.toFinset = audience ∧
    result = ((NamespacePriv.broadcastPacket ns eventName data rooms flags state).1.mapErr
        EmitError.fromBroadcastError,
      (NamespacePriv.broadcastPacket ns eventName data rooms flags state).2)

variable (σ) in
/-- The same namespace, exactly the rooms of `audience`, and these are what is emitted to. -/
structure Targets (filtered : FilteredNamespace N) (ns : N) (audience : Finset Str) : Prop where
  ns_eq : filtered.ns = ns
  rooms_eq : filtered.rooms = audience
  emitWithFlags : ∀ (eventName : Str) (data : PacketDataValue) (flags : StorageFlags)
    (visit : Visit filtered.rooms) (state : σ), eventName ≠ [] →
    BroadcastsTo ns audience eventName data flags state
      (filtered.emitWithFlags eventName data flags visit state)
  emit : ∀ (eventName : Str) (data : PacketDataValue) (visit : Visit filtered.rooms) (state : σ),
    eventName ≠ [] → BroadcastsTo ns audience eventName data default state
      (filtered.emit eventName data visit state)

theorem emitWithFlags_broadcastsTo {self : FilteredNamespace N} {eventName : Str}
    (h : eventName ≠ []) (data : PacketDataValue) (flags : StorageFlags)
    (visit : Visit self.rooms) (state : σ) :
    BroadcastsTo self.ns self.rooms eventName data flags state
      (self.emitWithFlags eventName data flags visit state) := by
  refine ⟨visit.elements, visit.nodup, visit.toFinset_eq, ?_⟩
  rw [emitWithFlags, if_neg h]

variable (σ) in
theorem targets_self (self : FilteredNamespace N) : Targets σ self self.ns self.rooms where
  ns_eq := rfl
  rooms_eq := rfl
  emitWithFlags _ data flags visit state h := emitWithFlags_broadcastsTo h data flags visit state
  emit _ data visit state h := emitWithFlags_broadcastsTo h data default visit state

theorem targets_iff {self : FilteredNamespace N} {ns : N} {audience : Finset Str} :
    Targets σ self ns audience ↔ self.ns = ns ∧ self.rooms = audience := by
  constructor
  · intro h
    exact ⟨h.ns_eq, h.rooms_eq⟩
  · rintro ⟨rfl, rfl⟩
    exact targets_self σ self

theorem send_broadcastsTo (self : FilteredNamespace N) (data : PacketDataValue)
    (visit : Visit self.rooms) (state : σ) :
    BroadcastsTo self.ns self.rooms messageEventName data default state
      (self.send data visit state) :=
  emitWithFlags_broadcastsTo (by decide) data default visit state

omit [NamespacePriv N σ]

@[simp] theorem ns_foldl_toRoom (self : FilteredNamespace N) (rooms : List Str) :
    (rooms.foldl toRoom self).ns = self.ns := by
  induction rooms generalizing self with
  | nil => rfl
  | cons room rooms ih => exact ih (self.toRoom room)

@[simp] theorem ns_foldl_addRoom (self : FilteredNamespace N) (rooms : List Str) :
    (rooms.foldl addRoom self).ns = self.ns := by
  induction rooms generalizing self with
  | nil => rfl
  | cons room rooms ih => exact ih (self.addRoom room)

theorem rooms_foldl_addRoom (self : FilteredNamespace N) (rooms : List Str) :
    (rooms.foldl addRoom self).rooms = self.rooms ∪ rooms.toFinset := by
  induction rooms generalizing self with
  | nil => simp
  | cons room rooms ih =>
    rw [List.foldl_cons, ih, addRoom, List.toFinset_cons, Finset.insert_union, Finset.union_insert]

/-- Only the room named last is kept. -/
theorem rooms_foldl_toRoom (self : FilteredNamespace N) (rooms : List Str) (room : Str) :
    ((rooms ++ [room]).foldl toRoom self).rooms = {room} := by
  rw [List.foldl_append]
  rfl

theorem rooms_foldl_toRoom_eq_union_iff (self : FilteredNamespace N) (rooms : List Str) :
    (rooms.foldl toRoom self).rooms = self.rooms ∪ rooms.toFinset ↔
      ∀ room ∈ rooms, ∀ r, r ∈ self.rooms ∨ r ∈ rooms → r = room := by
  induction rooms using List.reverseRecOn with
  | nil => simp
  | append_singleton rooms last =>
    rw [rooms_foldl_toRoom]
    constructor
    · intro h room hroom r hr
      have hall : ∀ x, x ∈ self.rooms ∨ x ∈ rooms ++ [last] → x = last := by
        intro x hx
        rw [← Finset.mem_singleton, h, Finset.mem_union, List.mem_toFinset]
        exact hx
      rw [hall r hr, hall room (.inr hroom)]
    · intro h
      have hlast := h last (by simp)
      ext x
      rw [Finset.mem_singleton, Finset.mem_union, List.mem_toFinset]
      constructor
      · rintro rfl
        simp
      · exact hlast x

variable (σ) in
theorem toRoom_addRoom_targets_iff [NamespacePriv N σ] (self : FilteredNamespace N)
    (rooms : List Str) :
    (Targets σ (rooms.foldl toRoom self) self.ns (self.rooms ∪ rooms.toFinset) ∧
        Targets σ (rooms.foldl addRoom self) self.ns (self.rooms ∪ rooms.toFinset)) ↔
      ∀ room ∈ rooms, ∀ r, r ∈ self.rooms ∨ r ∈ rooms → r = room := by
  rw [targets_iff, targets_iff, ← rooms_foldl_toRoom_eq_union_iff]
  simp [rooms_foldl_addRoom]

/-- Going on to a second room leaves the first one out. -/
theorem not_toRoom_addRoom_targets :
    ((new ['a'] ()).toRoom ['b']).rooms = {['b']} ∧
      ¬ ∀ (N σ : Type) [NamespacePriv N σ] (self : FilteredNamespace N) (rooms : List Str),
        Targets σ (rooms.foldl toRoom self) self.ns (self.rooms ∪ rooms.toFinset) ∧
          Targets σ (rooms.foldl addRoom self) self.ns (self.rooms ∪ rooms.toFinset) := by
  refine ⟨rfl, ?_⟩
  intro h
  let _ : NamespacePriv Unit Unit := ⟨fun _ _ _ _ _ state ↦ (ok (), state)⟩
  have hrooms := (h Unit Unit (new ['a'] ()) [['b']]).1.rooms_eq
  exact absurd hrooms (by decide)

end FilteredNamespace

end SocketIoRust.SocketIoServer
