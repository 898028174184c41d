import SocketIoRust.SocketIoServer.Registry

namespace SocketIoRust.SocketIoServer.Shared

open Library SocketIoParser
open EngineIoServer (RequestContext)

variable {D : Type} {shared shared' : Shared D}

/-- The dynamic namespace that takes in a request for a name that is not registered: of those
whose function accepts it, the one that was made first. -/
def adopter (shared : Shared D) (name : Str) (auth : PacketDataValue) : Option DynamicNamespace :=
  match IndexMap.get (normalized name) shared.namespaces with
  | some _ => none
  | none => (shared.dynamicNamespaces.find? (fun dynamic ↦ dynamic.1 name auth)).map Prod.snd

/-- Addresses that are not in use have no members. -/
def Unused (shared : Shared D) : Prop :=
  ∀ address, shared.nextAddress ≤ address → shared.members address = []

def Slashed (shared : Shared D) : Prop :=
  ∀ name ns, IndexMap.get name shared.namespaces = some ns → ∃ rest, name = '/' :: rest

theorem Represents.slashed {directory : Directory} (h : Represents shared directory) :
    Slashed shared := by
  intro name ns hget
  rw [h.namespaces, Option.map_eq_some_iff] at hget
  obtain ⟨e, hentry, -⟩ := hget
  exact directory.slash hentry

theorem getOrCreateNamespace_members (shared : Shared D) (name : Str) :
    (shared.getOrCreateNamespace name).1.members = shared.members := by
  cases hget : IndexMap.get (normalized name) shared.namespaces with
  | some ns => rw [getOrCreateNamespace_of_some hget]
  | none =>
    rw [getOrCreateNamespace_of_none hget]
    rfl

theorem addConnection_members (shared : Shared D) (ns : SimpleNamespace) (e : Str)
    (handshake : Handshake) (generatedId : Str) :
    (shared.addConnection ns e handshake generatedId).1.members = shared.members := by
  simp only [addConnection]
  cases IndexMap.get e shared.connections <;> rfl

theorem removeConnection_members (shared : Shared D) (e : Str) :
    (shared.removeConnection e).1.members = shared.members := by
  simp only [removeConnection]
  cases IndexMap.get e shared.connections <;> rfl

/-- The members with a new one, for the dynamic namespace that has taken it in. -/
def adopt (shared : Shared D) (parent : Option DynamicNamespace) (name : Str) :
    ℕ → List (Str × SimpleNamespace) :=
  match parent with
  | some dynamic => Function.update shared.members dynamic.address
      (IndexMap.insert name ⟨shared.nextAddress, name⟩ (shared.members dynamic.address))
  | none => shared.members

theorem lookFor_members (h : Slashed shared) (name : Str) (auth : PacketDataValue) :
    (shared.lookFor name auth).members =
      shared.adopt (shared.adopter name auth) (normalized name) := by
  rw [lookFor]
  split
  · rename_i hexists
    rw [namespaceExists, Option.isSome_iff_exists] at hexists
    obtain ⟨ns, hget⟩ := hexists
    have hnormal : IndexMap.get (normalized name) shared.namespaces = some ns := by
      rw [normalized_of_slash (h name ns hget), hget]
    rw [adopter, hnormal]
    rfl
  · rw [getMatchingDynamicNamespace, adopter]
    cases hfind : shared.dynamicNamespaces.find? (fun dynamic ↦ dynamic.1 name auth) with
    | none =>
      cases IndexMap.get (normalized name) shared.namespaces <;> rfl
    | some dynamic =>
      cases hget : IndexMap.get (normalized name) shared.namespaces with
      | some ns =>
        simp only [getOrCreateNamespace_of_some hget]
        rfl
      | none =>
        simp only [getOrCreateNamespace_of_none hget]
        rfl

theorem handleClientConnect_members (h : Slashed shared) (context : RequestContext)
    (name e : Str) (auth : PacketDataValue) (environment : Environment) :
    (shared.handleClientConnect context name e auth environment).1.members =
      shared.adopt (shared.adopter name auth) (normalized name) := by
  by_cases hadmits : shared.Admits name auth
  · rw [handleClientConnect_of_admits hadmits]
    simp only [connectClient, addConnection_members, getOrCreateNamespace_members]
    exact lookFor_members h name auth
  · rw [handleClientConnect_of_not_admits hadmits]
    rw [Admits, not_or] at hadmits
    have hnone : shared.dynamicNamespaces.find? (fun dynamic ↦ dynamic.1 name auth) = none :=
      List.find?_eq_none.mpr fun dynamic hd ha ↦ hadmits.2 ⟨dynamic, hd, ha⟩
    rw [adopter, hnone]
    cases IndexMap.get (normalized name) shared.namespaces <;> rfl

theorem Quiet.adopt (h : Quiet shared shared') (name name' : Str) (auth : PacketDataValue) :
    shared'.adopt (shared'.adopter name auth) name' =
      shared.adopt (shared.adopter name auth) name' := by
  simp only [Shared.adopt, adopter, h.namespaces, h.dynamicNamespaces, h.members, h.nextAddress]

theorem adopt_adopter (shared : Shared D) (name : Str) (auth : PacketDataValue)
    (dynamic : DynamicNamespace) (name' : Str) :
    name' ∈ IndexMap.keys (shared.adopt (shared.adopter name auth) (normalized name)
        dynamic.address) ↔
      name' ∈ shared.childNames dynamic ∨
        shared.adopter name auth = some dynamic ∧ normalized name = name' := by
  cases shared.adopter name auth with
  | none => simp [adopt, childNames]
  | some parent =>
    simp only [adopt, childNames]
    by_cases hd : parent = dynamic
    · subst hd
      rw [Function.update_self, IndexMap.mem_keys_insert]
      simp only [true_and]
      rw [or_comm, eq_comm]
    · have hne : dynamic.address ≠ parent.address := by
        intro he
        cases dynamic
        cases parent
        exact hd (congrArg DynamicNamespace.mk he.symm)
      rw [Function.update_of_ne hne]
      simp [hd]

theorem nextAddress_le_getOrCreateNamespace (shared : Shared D) (name : Str) :
    shared.nextAddress ≤ (shared.getOrCreateNamespace name).1.nextAddress := by
  cases hget : IndexMap.get (normalized name) shared.namespaces with
  | some ns => rw [getOrCreateNamespace_of_some hget]
  | none =>
    rw [getOrCreateNamespace_of_none hget]
    exact Nat.le_succ _

theorem addConnection_nextAddress (shared : Shared D) (ns : SimpleNamespace) (e : Str)
    (handshake : Handshake) (generatedId : Str) :
    (shared.addConnection ns e handshake generatedId).1.nextAddress = shared.nextAddress := by
  simp only [addConnection]
  cases IndexMap.get e shared.connections <;> rfl

theorem removeConnection_nextAddress (shared : Shared D) (e : Str) :
    (shared.removeConnection e).1.nextAddress = shared.nextAddress := by
  simp only [removeConnection]
  cases IndexMap.get e shared.connections <;> rfl

theorem nextAddress_le_lookFor (shared : Shared D) (name : Str) (auth : PacketDataValue) :
    shared.nextAddress ≤ (shared.lookFor name auth).nextAddress := by
  rw [lookFor]
  split
  · exact Nat.le_refl _
  · rw [getMatchingDynamicNamespace]
    cases shared.dynamicNamespaces.find? (fun dynamic ↦ dynamic.1 name auth) with
    | none => exact Nat.le_refl _
    | some dynamic =>
      cases hget : IndexMap.get (normalized name) shared.namespaces with
      | some ns =>
        simp only [getOrCreateNamespace_of_some hget]
        exact Nat.le_refl _
      | none =>
        simp only [getOrCreateNamespace_of_none hget]
        exact Nat.le_succ _

theorem nextAddress_le_handleClientConnect (shared : Shared D) (context : RequestContext)
    (name e : Str) (auth : PacketDataValue) (environment : Environment) :
    shared.nextAddress ≤
      (shared.handleClientConnect context name e auth environment).1.nextAddress := by
  by_cases hadmits : shared.Admits name auth
  · rw [handleClientConnect_of_admits hadmits]
    simp only [connectClient, addConnection_nextAddress]
    exact (nextAddress_le_lookFor shared name auth).trans
      (nextAddress_le_getOrCreateNamespace _ name)
  · rw [handleClientConnect_of_not_admits hadmits]

theorem mem_dynamics_of_adopter {name : Str} {auth : PacketDataValue} {dynamic : DynamicNamespace}
    (h : shared.adopter name auth = some dynamic) : dynamic ∈ shared.dynamics := by
  rw [adopter] at h
  split at h
  · cases h
  · obtain ⟨e, hfind, rfl⟩ := Option.map_eq_some_iff.mp h
    exact List.mem_map_of_mem (List.mem_of_find?_eq_some hfind)

theorem Unused.handleClientConnect {directory : Directory} (h : Unused shared)
    (hrep : Represents shared directory) (context : RequestContext) (name e : Str)
    (auth : PacketDataValue) (environment : Environment) :
    Unused (shared.handleClientConnect context name e auth environment).1 := by
  intro address haddress
  have hle := (nextAddress_le_handleClientConnect shared context name e auth environment).trans
    haddress
  rw [handleClientConnect_members hrep.slashed]
  cases hadopter : shared.adopter name auth with
  | none => exact h address hle
  | some parent =>
    have hlt := hrep.dynamicsAllocated parent (mem_dynamics_of_adopter hadopter)
    rw [adopt, Function.update_of_ne (Nat.ne_of_gt (hlt.trans_le hle))]
    exact h address hle

theorem Unused.moves {directory : Directory} (h : Unused shared)
    (hrep : Represents shared directory) (hmoves : Moves shared shared') : Unused shared' := by
  cases hmoves with
  | quietly hquiet =>
    rw [Unused, hquiet.members, hquiet.nextAddress]
    exact h
  | connects context name e auth environment hquiet =>
    rename_i quiet
    have h' : Unused quiet := by
      rw [Unused, hquiet.members, hquiet.nextAddress]
      exact h
    exact h'.handleClientConnect (hrep.quiet hquiet) context name e auth environment
  | removes e =>
    rw [Unused, removeConnection_members, removeConnection_nextAddress]
    exact h
  | creates name =>
    intro address haddress
    rw [getOrCreateNamespace_members]
    exact h address ((nextAddress_le_getOrCreateNamespace shared name).trans haddress)
  | addsMatcher namespaceDescriptor =>
    intro address haddress
    have hlt : shared.nextAddress < address := haddress
    simp only [Shared.makeDynamicNamespace]
    rw [Function.update_of_ne (Nat.ne_of_gt hlt)]
    exact h address hlt.le

variable [Connection.Decoder D]
variable (decodeProtoPacket : Str → Outcome HandleEngineMessageError ProtoPacket)

/-- The name and the data of the connect request that the operation is handled as. -/
def requestOf (shared : Shared D) : Operation → Option (Str × PacketDataValue)
  | .clientConnect _ name _ auth _ => some (name, auth)
  | .engineEvent (.message message) =>
    (shared.connectRequest decodeProtoPacket message).map fun packet ↦ (packet.nsp, packet.data)
  | _ => none

/-- The namespace that the operation makes a child, with its parent. -/
def adoption (shared : Shared D) (operation : Operation) : Option (DynamicNamespace × Str) :=
  match shared.requestOf decodeProtoPacket operation with
  | some (name, auth) =>
    (shared.adopter name auth).map fun dynamic ↦ (dynamic, normalized name)
  | none => none

/-- What one operation makes of the children of a dynamic namespace. -/
theorem mem_childNames_perform (hslash : Slashed shared) (hunused : Unused shared)
    (operation : Operation) (dynamic : DynamicNamespace) (name : Str) :
    name ∈ (shared.perform decodeProtoPacket operation).childNames dynamic ↔
      name ∈ shared.childNames dynamic ∨
        shared.adoption decodeProtoPacket operation = some (dynamic, name) := by
  have hsame {shared' : Shared D} (hmembers : shared'.members = shared.members)
      (hnone : shared.adoption decodeProtoPacket operation = none) :
      name ∈ shared'.childNames dynamic ↔ name ∈ shared.childNames dynamic ∨
        shared.adoption decodeProtoPacket operation = some (dynamic, name) := by
    rw [childNames, childNames, hmembers, hnone]
    simp
  have hmatcher (namespaceDescriptor : NamespaceDescriptor) :
      (shared.makeDynamicNamespace namespaceDescriptor).1.members = shared.members := by
    simp only [Shared.makeDynamicNamespace]
    exact Function.update_eq_self_iff.mpr (hunused _ (Nat.le_refl _)).symm
  have hrequest {shared' : Shared D} {name' : Str} {auth : PacketDataValue}
      (hrequest : shared.requestOf decodeProtoPacket operation = some (name', auth))
      (hmembers : shared'.members =
        shared.adopt (shared.adopter name' auth) (normalized name')) :
      name ∈ shared'.childNames dynamic ↔ name ∈ shared.childNames dynamic ∨
        shared.adoption decodeProtoPacket operation = some (dynamic, name) := by
    rw [childNames, hmembers, adopt_adopter, adoption, hrequest]
    simp only [Option.map_eq_some_iff, Prod.mk.injEq]
    refine or_congr_right ?_
    constructor
    · rintro ⟨hparent, hname⟩
      exact ⟨dynamic, hparent, rfl, hname⟩
    · rintro ⟨parent, hparent, rfl, hname⟩
      exact ⟨hparent, hname⟩
  cases operation with
  | getNamespace name' => exact hsame (getOrCreateNamespace_members shared name') rfl
  | of namespaceDescriptor =>
    cases namespaceDescriptor with
    | text name' => exact hsame (getOrCreateNamespace_members shared name') rfl
    | regex regex => exact hsame (hmatcher (.regex regex)) rfl
    | function f => exact hsame (hmatcher (.function f)) rfl
  | makeDynamicNamespace namespaceDescriptor => exact hsame (hmatcher namespaceDescriptor) rfl
  | clientConnect context name' e auth environment =>
    exact hrequest rfl (handleClientConnect_members hslash context name' e auth environment)
  | engineEvent event =>
    cases event with
    | connection _ | flush _ | drain _ | error _ => exact hsame rfl rfl
    | close connectionId _ => exact hsame (removeConnection_members shared connectionId) rfl
    | message message =>
      cases hconnect : shared.connectRequest decodeProtoPacket message with
      | none =>
        refine hsame (handleNewMessage_of_none hconnect).members ?_
        rw [adoption, requestOf, hconnect]
        rfl
      | some packet =>
        obtain ⟨shared', hquiet, heq⟩ := handleNewMessage_of_some hconnect
        have hslash' : Slashed shared' := by
          rw [Slashed, hquiet.namespaces]
          exact hslash
        have hasks : shared.requestOf decodeProtoPacket (.engineEvent (.message message)) =
            some (packet.nsp, packet.data) := by
          rw [requestOf, hconnect]
          rfl
        refine hrequest hasks ?_
        rw [perform, handleEngineEvent, heq, handleClientConnect_members hslash', hquiet.adopt]

/-- Whatever has happened to a server, a namespace is a child of the dynamic namespace that took
it in when a client was the first to ask for its name: of those whose function accepted the
request, the one that had been made first. -/
theorem children_exact (D : Type) [Connection.Decoder D]
    (decodeProtoPacket : Str → Outcome HandleEngineMessageError ProtoPacket)
    (operations : List Operation) (dynamic : DynamicNamespace) (name : Str) :
    name ∈ (reached D decodeProtoPacket operations).childNames dynamic ↔
      ∃ before operation after, operations = before ++ operation :: after ∧
        (reached D decodeProtoPacket before).adoption decodeProtoPacket operation =
          some (dynamic, name) := by
  have hmarks : Runs.Marks (perform decodeProtoPacket)
      (fun shared operation ↦ shared.adoption decodeProtoPacket operation = some (dynamic, name))
      (fun _ ↦ False)
      (fun shared : Shared D ↦ (∃ directory, Represents shared directory) ∧ Unused shared)
      (fun shared ↦ name ∈ shared.childNames dynamic) := by
    refine ⟨?_, ?_, ?_, ?_⟩
    · rintro shared operation ⟨⟨directory, hrep⟩, hunused⟩
      have hmoves := perform_moves decodeProtoPacket shared operation
      obtain ⟨directory', hrep', -⟩ := hrep.moves hmoves
      exact ⟨⟨directory', hrep'⟩, hunused.moves hrep hmoves⟩
    · rintro shared operation ⟨⟨directory, hrep⟩, hunused⟩ hsets
      exact (mem_childNames_perform decodeProtoPacket hrep.slashed hunused operation dynamic
        name).mpr (.inr hsets)
    · exact fun _ _ _ hfalse ↦ hfalse.elim
    · rintro shared operation ⟨⟨directory, hrep⟩, hunused⟩ hnot -
      rw [mem_childNames_perform decodeProtoPacket hrep.slashed hunused]
      exact or_iff_left hnot
  have hstart : (∃ directory, Represents (Shared.new : Shared D) directory) ∧
      Unused (Shared.new : Shared D) :=
    ⟨⟨_, represents_new⟩, fun _ _ ↦ rfl⟩
  have hnew : name ∉ (Shared.new : Shared D).childNames dynamic := by
    simp [childNames, Shared.new, IndexMap.keys]
  rw [reached, run, hmarks.foldl_iff hstart hnew operations]
  simp [Runs.Remains, reached, run]

end SocketIoRust.SocketIoServer.Shared
