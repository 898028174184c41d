import SocketIoRust.SocketIoServer.FilteredNamespace
import SocketIoRust.SocketIoServer.Children
import SocketIoRust.Library.JsonText

namespace SocketIoRust.SocketIoServer

open Library SocketIoParser
open Library.Outcome (ok err)

variable {N S σ ε κ α : Type}

/-- A broadcast to all the rooms of a namespace: none of them is named. -/
def broadcastToAll [NamespacePriv N σ] (ns : N) (eventName : Str) (data : PacketDataValue)
    (flags : StorageFlags) (state : σ) : Outcome EmitError Unit × σ :=
  let rooms : List Str := []
  let (result, state) := NamespacePriv.broadcastPacket ns eventName data rooms flags state
  (result.mapErr EmitError.fromBroadcastError, state)

/-- Only an emission through a filter checks the name of the event. -/
theorem emptyEventName_iff [NamespacePriv N σ] (filtered : FilteredNamespace N) (eventName : Str)
    (data : PacketDataValue) (flags : StorageFlags) (visit : Visit filtered.rooms)
    (state : σ) :
    ((filtered.emitWithFlags eventName data flags visit state).1 = err .emptyEventName ↔
      eventName = []) ∧
    (broadcastToAll filtered.ns eventName data flags state).1 ≠ err .emptyEventName := by
  have hne (result : Outcome BroadcastError Unit) :
      result.mapErr EmitError.fromBroadcastError ≠ err .emptyEventName := by
    cases result <;> simp [Outcome.mapErr, EmitError.fromBroadcastError]
  refine ⟨?_, hne _⟩
  rw [FilteredNamespace.emitWithFlags]
  split
  · exact ⟨fun _ ↦ by assumption, fun _ ↦ rfl⟩
  · exact ⟨fun h ↦ absurd h (hne _), fun h ↦ absurd h (by assumption)⟩

namespace SimpleNamespace

variable [Storage S]

def emitWithFlags (self : SimpleNamespace) (eventName : Str) (data : PacketDataValue)
    (flags : StorageFlags) (storages : ℕ → S) : Outcome EmitError Unit × (ℕ → S) :=
  broadcastToAll self eventName data flags storages

def emit (self : SimpleNamespace) (eventName : Str) (data : PacketDataValue)
    (storages : ℕ → S) : Outcome EmitError Unit × (ℕ → S) :=
  self.emitWithFlags eventName data default storages

def sendWithFlags (self : SimpleNamespace) (data : PacketDataValue) (flags : StorageFlags)
    (storages : ℕ → S) : Outcome EmitError Unit × (ℕ → S) :=
  self.emitWithFlags messageEventName data flags storages

def send (self : SimpleNamespace) (data : PacketDataValue) (storages : ℕ → S) :
    Outcome EmitError Unit × (ℕ → S) :=
  self.sendWithFlags data default storages

end SimpleNamespace

namespace DynamicNamespace

/-- The members of all dynamic namespaces, in the order in which they are visited, and the
storages of all namespaces. -/
abbrev State (S : Type) := (ℕ → List (Str × SimpleNamespace)) × (ℕ → S)

variable [Storage S]

def emitWithFlags (self : DynamicNamespace) (eventName : Str) (data : PacketDataValue)
    (flags : StorageFlags) (state : State S) : Outcome EmitError Unit × State S :=
  broadcastToAll self eventName data flags state

def emit (self : DynamicNamespace) (eventName : Str) (data : PacketDataValue)
    (state : State S) : Outcome EmitError Unit × State S :=
  self.emitWithFlags eventName data default state

def sendWithFlags (self : DynamicNamespace) (data : PacketDataValue) (flags : StorageFlags)
    (state : State S) : Outcome EmitError Unit × State S :=
  self.emitWithFlags messageEventName data flags state

def send (self : DynamicNamespace) (data : PacketDataValue) (state : State S) :
    Outcome EmitError Unit × State S :=
  self.emit messageEventName data state

end DynamicNamespace

/-- A visit that looks at one cell and changes no other. -/
def visit [DecidableEq κ] (cell : α → κ) (act : α → S → Outcome ε Unit × S) (a : α)
    (cells : κ → S) : Outcome ε Unit × (κ → S) :=
  let (result, content) := act a (cells (cell a))
  (result, Function.update cells (cell a) content)

/-- How a loop over some elements ends: with the last of them, or with the first that fails. -/
inductive Ends (answer : α → Outcome ε Unit) : List α → List α → Outcome ε Unit → Prop
  | all {visited : List α} : (∀ a ∈ visited, answer a = ok ()) → Ends answer visited [] (ok ())
  | fails {served rest : List α} {failed : α} : (∀ a ∈ served, answer a = ok ()) →
      answer failed ≠ ok () → Ends answer (served ++ [failed]) rest (answer failed)

variable {answer : α → Outcome ε Unit} {visited rest : List α} {result : Outcome ε Unit}

theorem Ends.cons {a : α} (ha : answer a = ok ()) (h : Ends answer visited rest result) :
    Ends answer (a :: visited) rest result := by
  cases h with
  | all hall => exact .all (List.forall_mem_cons.mpr ⟨ha, hall⟩)
  | fails hserved hfailed => exact .fails (List.forall_mem_cons.mpr ⟨ha, hserved⟩) hfailed

theorem Ends.congr {answer' : α → Outcome ε Unit} (h : Ends answer visited rest result)
    (heq : ∀ a ∈ visited, answer' a = answer a) : Ends answer' visited rest result := by
  cases h with
  | all hall => exact .all (fun a ha ↦ (heq a ha).trans (hall a ha))
  | @fails served rest failed hserved hfailed =>
    have hlast := heq failed (by simp)
    rw [← hlast] at hfailed ⊢
    refine .fails ?_ hfailed
    intro a ha
    rw [heq a (List.mem_append_left _ ha), hserved a ha]

theorem Ends.mapErr {ε' : Type} (f : ε → ε') (h : Ends answer visited rest result) :
    Ends (fun a ↦ (answer a).mapErr f) visited rest (result.mapErr f) := by
  have hok {x : Outcome ε Unit} : x.mapErr f = ok () ↔ x = ok () := by
    cases x <;> simp [Outcome.mapErr]
  cases h with
  | all hall => exact .all (fun a ha ↦ hok.mpr (hall a ha))
  | @fails served rest failed hserved hfailed =>
    have hserved' : ∀ a ∈ served, (answer a).mapErr f = ok () :=
      fun a ha ↦ hok.mpr (hserved a ha)
    exact .fails hserved' (fun h ↦ hfailed (hok.mp h))

theorem Ends.map {β : Type} (answer : β → Outcome ε Unit) (g : α → β)
    (h : Ends (fun a ↦ answer (g a)) visited rest result) :
    Ends answer (visited.map g) (rest.map g) result := by
  cases h with
  | all hall => exact .all (List.forall_mem_map.mpr hall)
  | @fails served rest failed hserved hfailed =>
    rw [List.map_append]
    exact .fails (List.forall_mem_map.mpr hserved) hfailed

/-- What the visits have done when the loop ends: each is as if it were the only one, and
nothing else is changed. -/
structure Visits [DecidableEq κ] (cell : α → κ) (act : α → S → Outcome ε Unit × S) (cells : κ → S)
    (visited rest : List α) (after : Outcome ε Unit × (κ → S)) : Prop where
  ends : Ends (fun a ↦ (act a (cells (cell a))).1) visited rest after.1
  served : ∀ a ∈ visited, after.2 (cell a) = (act a (cells (cell a))).2
  frame : ∀ k, (∀ a ∈ visited, cell a ≠ k) → after.2 k = cells k

section Visits

variable [DecidableEq κ] {cell : α → κ} {act : α → S → Outcome ε Unit × S} {cells : κ → S}
  {after : Outcome ε Unit × (κ → S)} {a : α}

theorem Visits.fails (h : (act a (cells (cell a))).1 ≠ ok ()) (rest : List α) :
    Visits cell act cells [a] rest (visit cell act a cells) := by
  have hnone : ∀ b ∈ ([] : List α), (act b (cells (cell b))).1 = ok () := by simp
  refine ⟨.fails hnone h, ?_, ?_⟩
  · intro b hb
    rw [List.mem_singleton.mp hb]
    exact Function.update_self ..
  · intro k hk
    exact Function.update_of_ne (hk a (List.mem_singleton_self a)).symm ..

theorem Visits.cons (hact : (act a (cells (cell a))).1 = ok ())
    (hne : ∀ b ∈ visited, cell b ≠ cell a)
    (h : Visits cell act (visit cell act a cells).2 visited rest after) :
    Visits cell act cells (a :: visited) rest after := by
  have hcell : ∀ b ∈ visited, (visit cell act a cells).2 (cell b) = cells (cell b) :=
    fun b hb ↦ Function.update_of_ne (hne b hb) ..
  refine ⟨.cons hact (h.ends.congr fun b hb ↦ by rw [hcell b hb]), ?_, ?_⟩
  · rw [List.forall_mem_cons]
    constructor
    · rw [h.frame (cell a) hne]
      exact Function.update_self ..
    · intro b hb
      rw [h.served b hb, hcell b hb]
  · intro k hk
    rw [List.forall_mem_cons] at hk
    rw [h.frame k hk.2]
    exact Function.update_of_ne hk.1.symm ..

theorem tryForEach_visits (act : α → S → Outcome ε Unit × S) {as : List α}
    (hnodup : (as.map cell).Nodup) (cells : κ → S) :
    ∃ visited rest, as = visited ++ rest ∧
      Visits cell act cells visited rest (tryForEach (visit cell act) as cells) := by
  induction as generalizing cells with
  | nil => exact ⟨[], [], rfl, .all (by simp), by simp, fun _ _ ↦ rfl⟩
  | cons a as ih =>
    rw [List.map_cons, List.nodup_cons] at hnodup
    cases hact : (act a (cells (cell a))).1 with
    | ok _ =>
      obtain ⟨visited, rest, rfl, h⟩ := ih hnodup.2 (visit cell act a cells).2
      have hne : ∀ b ∈ visited, cell b ≠ cell a := by
        intro b hb he
        exact hnodup.1 (he ▸ List.mem_map_of_mem (List.mem_append_left rest hb))
      have hfirst : visit cell act a cells = (ok (), (visit cell act a cells).2) := by
        simp only [visit, hact]
      refine ⟨a :: visited, rest, rfl, ?_⟩
      rw [tryForEach, hfirst]
      exact .cons hact hne h
    | err e =>
      have hfirst : tryForEach (visit cell act) (a :: as) cells = visit cell act a cells := by
        simp only [tryForEach, visit, hact]
      exact ⟨[a], as, rfl, hfirst ▸ .fails (by simp [hact]) as⟩
    | panic =>
      have hfirst : tryForEach (visit cell act) (a :: as) cells = visit cell act a cells := by
        simp only [tryForEach, visit, hact]
      exact ⟨[a], as, rfl, hfirst ▸ .fails (by simp [hact]) as⟩

end Visits

namespace Shared

variable {D : Type} {shared shared' : Shared D}

/-- No dynamic namespace has two members of one name. -/
def DistinctMembers (shared : Shared D) : Prop :=
  ∀ address, (IndexMap.keys (shared.members address)).Nodup

theorem DistinctMembers.adopt (h : DistinctMembers shared) (parent : Option DynamicNamespace)
    (name : Str) (address : ℕ) : (IndexMap.keys (shared.adopt parent name address)).Nodup := by
  cases parent with
  | none => exact h address
  | some dynamic =>
    simp only [Shared.adopt]
    by_cases ha : address = dynamic.address
    · subst ha
      rw [Function.update_self]
      exact IndexMap.nodup_keys_insert (h _)
    · rw [Function.update_of_ne ha]
      exact h address

theorem DistinctMembers.moves {directory : Directory} (h : DistinctMembers shared)
    (hrep : Represents shared directory) (hmoves : Moves shared shared') :
    DistinctMembers shared' := by
  cases hmoves with
  | quietly hquiet =>
    rw [DistinctMembers, hquiet.members]
    exact h
  | connects context name e auth environment hquiet =>
    rename_i quiet
    have h' : DistinctMembers quiet := by
      rw [DistinctMembers, hquiet.members]
      exact h
    rw [DistinctMembers, handleClientConnect_members (hrep.quiet hquiet).slashed]
    exact h'.adopt _ _
  | removes e =>
    rw [DistinctMembers, removeConnection_members]
    exact h
  | creates name =>
    rw [DistinctMembers, getOrCreateNamespace_members]
    exact h
  | addsMatcher namespaceDescriptor =>
    intro address
    simp only [makeDynamicNamespace]
    by_cases ha : address = shared.nextAddress
    · subst ha
      rw [Function.update_self]
      exact List.nodup_nil
    · rw [Function.update_of_ne ha]
      exact h address

theorem reached_distinctMembers (D : Type) [Connection.Decoder D]
    (decodeProtoPacket : Str → Outcome HandleEngineMessageError ProtoPacket)
    (operations : List Operation) :
    DistinctMembers (reached D decodeProtoPacket operations) := by
  have hstart : (∃ directory, Represents (Shared.new : Shared D) directory) ∧
      DistinctMembers (Shared.new : Shared D) :=
    ⟨⟨_, represents_new⟩, fun _ ↦ List.nodup_nil⟩
  refine (run_invariant (I := fun shared : Shared D ↦ (∃ directory, Represents shared directory) ∧
    DistinctMembers shared) decodeProtoPacket ?_ hstart operations).2
  rintro shared shared' ⟨⟨directory, hrep⟩, h⟩ hmoves
  obtain ⟨directory', hrep', -⟩ := hrep.moves hmoves
  exact ⟨⟨directory', hrep'⟩, h.moves hrep hmoves⟩

/-- In whatever order the members are visited, their storages differ. -/
theorem Represents.order_nodup {directory : Directory} (h : Represents shared directory)
    (hmembers : DistinctMembers shared) {dynamic : DynamicNamespace}
    (hd : dynamic ∈ shared.dynamics) {order : List (Str × SimpleNamespace)}
    (horder : order.Perm (shared.members dynamic.address)) :
    (order.map (fun el ↦ el.2.address)).Nodup := by
  have hentry {el : Str × SimpleNamespace} (hel : el ∈ order) :
      directory.entry el.1 = some ⟨el.2, some dynamic⟩ :=
    (h.members dynamic hd el.1 el.2).mp
      ((IndexMap.get_eq_some_iff (hmembers _)).mpr (horder.mem_iff.mp hel))
  have hnodup : order.Nodup := horder.nodup_iff.mpr (hmembers dynamic.address).of_map
  refine hnodup.map_on ?_
  intro el hel el' hel' haddress
  have hname := h.distinct el.1 el'.1 _ _ (hentry hel) (hentry hel') haddress
  have hns := hentry hel
  rw [hname, hentry hel'] at hns
  exact Prod.ext hname (congrArg Entry.ns (Option.some.inj hns)).symm

end Shared

/-- What the storage of a namespace makes of a broadcast to all its rooms. -/
def SimpleNamespace.answerTo [Storage S] (self : SimpleNamespace) (eventName : Str)
    (data : PacketDataValue) (flags : StorageFlags) (storages : ℕ → S) :
    Outcome BroadcastError Unit × S :=
  Storage.broadcast (makePacketForEvent eventName data self.name) [] flags
    (storages self.address)

/-- What an emission over a dynamic namespace is to do: it is given to the children, under the
name of each, once, up to the first that fails, and to no other namespace of the server. -/
def Reaches [Storage S] {D : Type} (shared : Shared D) (dynamic : DynamicNamespace)
    (eventName : Str) (data : PacketDataValue) (flags : StorageFlags) (storages : ℕ → S)
    (result : Outcome EmitError Unit) (storages' : ℕ → S) : Prop :=
  ∃ visited rest : List SimpleNamespace,
    ((visited ++ rest).map SimpleNamespace.name).Perm (shared.childNames dynamic) ∧
    ((visited ++ rest).map SimpleNamespace.name).Nodup ∧
    Ends (fun ns ↦ (ns.answerTo eventName data flags storages).1.mapErr
      EmitError.fromBroadcastError) visited rest result ∧
    ∀ name ns, IndexMap.get name shared.namespaces = some ns →
      (ns ∈ visited → storages' ns.address = (ns.answerTo eventName data flags storages).2) ∧
      (ns ∉ visited → storages' ns.address = storages ns.address)

/-- Whatever has happened to a server, what is emitted over a dynamic namespace reaches its
children, in whatever order they are visited. -/
theorem emitWithFlags_reaches (D : Type) [Connection.Decoder D] [Storage S]
    (decodeProtoPacket : Str → Outcome HandleEngineMessageError ProtoPacket)
    (operations : List Operation) (dynamic : DynamicNamespace)
    (hd : dynamic ∈ (Shared.reached D decodeProtoPacket operations).dynamics)
    (members : ℕ → List (Str × SimpleNamespace))
    (hmembers : (members dynamic.address).Perm
      ((Shared.reached D decodeProtoPacket operations).members dynamic.address))
    (eventName : Str) (data : PacketDataValue) (flags : StorageFlags) (storages : ℕ → S) :
    let emission := dynamic.emitWithFlags eventName data flags (members, storages)
    Reaches (Shared.reached D decodeProtoPacket operations) dynamic eventName data flags storages
      emission.1 emission.2.2 := by
  intro emission
  obtain ⟨directory, h⟩ := Shared.reached_represents D decodeProtoPacket operations
  have hdistinct := Shared.reached_distinctMembers D decodeProtoPacket operations
  have hentry : ∀ el ∈ members dynamic.address,
      directory.entry el.1 = some ⟨el.2, some dynamic⟩ := by
    intro el hel
    exact (h.members dynamic hd el.1 el.2).mp
      ((IndexMap.get_eq_some_iff (hdistinct _)).mpr (hmembers.mem_iff.mp hel))
  obtain ⟨visited, rest, hsplit, hvisits⟩ := tryForEach_visits
    (fun el ↦ Storage.broadcast (makePacketForEvent eventName data el.2.name) [] flags)
    (h.order_nodup hdistinct hd hmembers) storages
  have hnames : ((visited.map Prod.snd ++ rest.map Prod.snd).map SimpleNamespace.name) =
      IndexMap.keys (members dynamic.address) := by
    rw [← List.map_append, ← hsplit, List.map_map, IndexMap.keys]
    exact List.map_congr_left fun el hel ↦ directory.named (hentry el hel)
  refine ⟨visited.map Prod.snd, rest.map Prod.snd, ?_, ?_, ?_, ?_⟩
  · rw [hnames]
    exact hmembers.map Prod.fst
  · rw [hnames]
    exact (hmembers.map Prod.fst).nodup_iff.mpr (hdistinct dynamic.address)
  · have hends := hvisits.ends.mapErr EmitError.fromBroadcastError
    exact Ends.map (fun ns : SimpleNamespace ↦ (ns.answerTo eventName data flags storages).1.mapErr
      EmitError.fromBroadcastError) Prod.snd hends
  · intro name ns hget
    rw [h.namespaces, Option.map_eq_some_iff] at hget
    obtain ⟨e, hname, rfl⟩ := hget
    constructor
    · intro hmem
      obtain ⟨el, hel, heq⟩ := List.mem_map.mp hmem
      rw [← heq]
      exact hvisits.served el hel
    · intro hnot
      refine hvisits.frame e.ns.address ?_
      intro el hel haddress
      have hel' := hentry el (hsplit ▸ List.mem_append_left rest hel)
      have hsame := h.distinct el.1 name _ e hel' hname haddress
      rw [hsame, hname] at hel'
      exact hnot (List.mem_map.mpr ⟨el, hel, (congrArg Entry.ns (Option.some.inj hel')).symm⟩)

/-- A storage that keeps what it is given, and refuses it when it is full. -/
structure Log where
  packets : List Packet
  full : Bool

instance : Storage Log where
  broadcast packet _ _ log :=
    if log.full then (err ⟨⟩, log) else (ok (), { log with packets := log.packets ++ [packet] })

def connectTo (name : Str) : Operation :=
  .clientConnect ⟨[], [], none, false, [], [], .polling, .get, [], [], none⟩ name ['e'] .null
    ⟨name, 0⟩

/-- A dynamic namespace with three children, and a namespace of the owner's between them. -/
def threeChildren : List Operation :=
  [.makeDynamicNamespace (.function fun _ _ ↦ true), connectTo ['/', 'a'], connectTo ['/', 'b'],
    .getNamespace ['c'], connectTo ['/', 'd']]

/-- The second child refuses the event: the first one has it, the third one never gets it. -/
theorem emitWithFlags_reaches_full :
    let shared := Shared.reached DefaultDecoder
      (DefaultDecoder.decodeProtoPacket Json.standard .checked) threeChildren
    let storages : ℕ → Log := fun address ↦ ⟨[], address = 2⟩
    let emission := DynamicNamespace.emitWithFlags ⟨0⟩ ['x'] .null default
      (shared.members, storages)
    Reaches shared ⟨0⟩ ['x'] .null default storages emission.1 emission.2.2 ∧
      emission.1 = err .broadcastError ∧
      emission.2.2 1 = ⟨[makePacketForEvent ['x'] .null ['/', 'a']], false⟩ ∧
      emission.2.2 4 = ⟨[], false⟩ :=
  ⟨emitWithFlags_reaches DefaultDecoder
    (DefaultDecoder.decodeProtoPacket Json.standard .checked) threeChildren ⟨0⟩
    (List.mem_singleton_self _) _ (.refl _) ['x'] .null default _, rfl, rfl, rfl⟩

end SocketIoRust.SocketIoServer
