import SocketIoRust.SocketIoServer.Directory

namespace SocketIoRust.SocketIoServer

open Library SocketIoParser

/-- The owner of the server asks for a namespace by its name, or for a dynamic one. -/
def Operation.Explicit : Operation → Prop
  | getNamespace _ => True
  | of _ => True
  | _ => False

namespace Shared

variable {D : Type} {shared shared' : Shared D} {directory : Directory}

def childNames (shared : Shared D) (dynamic : DynamicNamespace) : List Str :=
  IndexMap.keys (shared.members dynamic.address)

theorem Represents.mem_childNames (h : Represents shared directory) {dynamic : DynamicNamespace}
    (hd : dynamic ∈ shared.dynamics) {name : Str} :
    name ∈ shared.childNames dynamic ↔
      ∃ e, directory.entry name = some e ∧ e.parent = some dynamic := by
  rw [childNames, IndexMap.mem_keys]
  simp only [h.members dynamic hd]
  constructor
  · rintro ⟨ns, hentry⟩
    exact ⟨_, hentry, rfl⟩
  · rintro ⟨⟨ns, parent⟩, hentry, rfl⟩
    exact ⟨ns, hentry⟩

/-- A child of one dynamic namespace is no child of another. -/
theorem Represents.childNames_disjoint (h : Represents shared directory)
    {dynamic dynamic' : DynamicNamespace} (hd : dynamic ∈ shared.dynamics)
    (hd' : dynamic' ∈ shared.dynamics) (hne : dynamic ≠ dynamic') :
    ∀ name ∈ shared.childNames dynamic, name ∉ shared.childNames dynamic' := by
  intro name hmem hmem'
  obtain ⟨e, hentry, hparent⟩ := (h.mem_childNames hd).mp hmem
  obtain ⟨e', hentry', hparent'⟩ := (h.mem_childNames hd').mp hmem'
  rw [hentry] at hentry'
  cases hentry'
  rw [hparent] at hparent'
  exact hne (Option.some.inj hparent')

theorem Represents.moves (h : Represents shared directory) (hmoves : Moves shared shared') :
    ∃ directory', Represents shared' directory' ∧ directory.Extends directory' := by
  cases hmoves with
  | quietly hquiet => exact ⟨directory, h.quiet hquiet, .refl directory⟩
  | connects context name e auth environment hquiet =>
    exact (h.quiet hquiet).handleClientConnect context name e auth environment
  | removes e => exact ⟨directory, h.removeConnection e, .refl directory⟩
  | creates name =>
    obtain ⟨directory', hcreated, hextends, -⟩ := h.getOrCreateNamespace name
    exact ⟨directory', hcreated, hextends⟩
  | addsMatcher namespaceDescriptor =>
    exact ⟨directory, h.makeDynamicNamespace namespaceDescriptor, .refl directory⟩

/-- What the owner of the server asks for is nobody's child. -/
theorem Represents.explicit [Connection.Decoder D]
    (decodeProtoPacket : Str → Outcome HandleEngineMessageError ProtoPacket)
    (h : Represents shared directory) {operation : Operation} (hexplicit : operation.Explicit) :
    ∃ directory', Represents (shared.perform decodeProtoPacket operation) directory' ∧
      directory.Extends directory' ∧ ∀ name e, directory.entry name = none →
        directory'.entry name = some e → e.parent = none := by
  have hmatcher (namespaceDescriptor : NamespaceDescriptor) : ∃ directory',
      Represents (shared.makeDynamicNamespace namespaceDescriptor).1 directory' ∧
        directory.Extends directory' ∧ ∀ name e, directory.entry name = none →
          directory'.entry name = some e → e.parent = none := by
    refine ⟨directory, h.makeDynamicNamespace namespaceDescriptor, .refl directory, ?_⟩
    intro name e hnone hsome
    rw [hnone] at hsome
    cases hsome
  cases operation with
  | getNamespace name => exact h.getOrCreateNamespace name
  | of namespaceDescriptor =>
    cases namespaceDescriptor with
    | text name => exact h.getOrCreateNamespace name
    | regex regex => exact hmatcher (.regex regex)
    | function f => exact hmatcher (.function f)
  | makeDynamicNamespace namespaceDescriptor => cases hexplicit
  | clientConnect context name e auth environment => cases hexplicit
  | engineEvent event => cases hexplicit

variable [Connection.Decoder D]
variable (decodeProtoPacket : Str → Outcome HandleEngineMessageError ProtoPacket)

theorem Represents.run (h : Represents shared directory) (operations : List Operation) :
    ∃ directory', Represents (shared.run decodeProtoPacket operations) directory' ∧
      directory.Extends directory' := by
  refine run_invariant (I := fun shared ↦ ∃ directory', Represents shared directory' ∧
    directory.Extends directory') decodeProtoPacket ?_ ⟨directory, h, .refl directory⟩ operations
  rintro shared shared' ⟨directory', h', hextends⟩ hmoves
  obtain ⟨directory'', h'', hextends'⟩ := h'.moves hmoves
  exact ⟨directory'', h'', hextends.trans hextends'⟩

variable (D)

/-- The server after these operations. -/
def reached (operations : List Operation) : Shared D :=
  Shared.new.run decodeProtoPacket operations

theorem reached_append (operations later : List Operation) :
    reached D decodeProtoPacket (operations ++ later) =
      (reached D decodeProtoPacket operations).run decodeProtoPacket later :=
  List.foldl_append

theorem reached_represents (operations : List Operation) :
    ∃ directory, Represents (reached D decodeProtoPacket operations) directory := by
  have hnew : Represents (Shared.new : Shared D) Directory.empty := represents_new
  obtain ⟨directory, h, -⟩ := hnew.run decodeProtoPacket operations
  exact ⟨directory, h⟩

/-- Whatever happens to a server, a name stands for one namespace object, which is a child
of at most one dynamic namespace, and of none if the owner was the first to ask for it. -/
theorem reached_registry (operations later : List Operation) :
    (∀ name ns,
      IndexMap.get name (reached D decodeProtoPacket operations).namespaces = some ns →
      (∃ rest, name = '/' :: rest) ∧ ns.name = name ∧
        IndexMap.get name (reached D decodeProtoPacket (operations ++ later)).namespaces =
          some ns) ∧
    (∀ dynamic ∈ (reached D decodeProtoPacket operations).dynamics, ∀ name ns,
      IndexMap.get name ((reached D decodeProtoPacket operations).members dynamic.address) =
        some ns →
      ns.name = name ∧
        IndexMap.get name (reached D decodeProtoPacket operations).namespaces = some ns) ∧
    (reached D decodeProtoPacket operations).dynamics.Pairwise (fun dynamic dynamic' ↦
      ∀ name ∈ (reached D decodeProtoPacket operations).childNames dynamic,
        name ∉ (reached D decodeProtoPacket operations).childNames dynamic') ∧
    ∀ operation name, operation.Explicit →
      IndexMap.get name (reached D decodeProtoPacket operations).namespaces = none →
      (∃ ns, IndexMap.get name
        (reached D decodeProtoPacket (operations ++ [operation])).namespaces = some ns) →
      ∀ dynamic ∈ (reached D decodeProtoPacket (operations ++ operation :: later)).dynamics,
        name ∉
          (reached D decodeProtoPacket (operations ++ operation :: later)).childNames dynamic := by
  obtain ⟨directory, h⟩ := reached_represents D decodeProtoPacket operations
  refine ⟨?_, ?_, ?_, ?_⟩
  · intro name ns hget
    rw [h.namespaces, Option.map_eq_some_iff] at hget
    obtain ⟨e, hentry, rfl⟩ := hget
    obtain ⟨directory', h', hextends⟩ := h.run decodeProtoPacket later
    refine ⟨directory.slash hentry, directory.named hentry, ?_⟩
    rw [reached_append, h'.namespaces, hextends name e hentry, Option.map_some]
  · intro dynamic hd name ns hget
    have hentry := (h.members dynamic hd name ns).mp hget
    refine ⟨directory.named hentry, ?_⟩
    rw [h.namespaces, hentry, Option.map_some]
  · refine h.dynamicsNodup.pairwise_of_forall_ne ?_
    intro dynamic hd dynamic' hd' hne
    exact h.childNames_disjoint hd hd' hne
  · intro operation name hexplicit hnone hsome dynamic hd hmem
    obtain ⟨directory₁, h₁, -, hparent⟩ := h.explicit decodeProtoPacket hexplicit
    obtain ⟨directory₂, h₂, hextends⟩ := h₁.run decodeProtoPacket later
    obtain ⟨ns, hget⟩ := hsome
    have hnext : reached D decodeProtoPacket (operations ++ [operation]) =
        (reached D decodeProtoPacket operations).perform decodeProtoPacket operation :=
      reached_append D decodeProtoPacket operations [operation]
    have hlast : reached D decodeProtoPacket (operations ++ operation :: later) =
        ((reached D decodeProtoPacket operations).perform decodeProtoPacket operation).run
          decodeProtoPacket later :=
      reached_append D decodeProtoPacket operations (operation :: later)
    rw [hnext, h₁.namespaces, Option.map_eq_some_iff] at hget
    rw [hlast] at hd hmem
    obtain ⟨e, hentry, -⟩ := hget
    obtain ⟨e', hentry', hchild⟩ := (h₂.mem_childNames hd).mp hmem
    rw [hextends name e hentry] at hentry'
    cases hentry'
    rw [hparent name e ((h.get_eq_none name).mp hnone) hentry] at hchild
    cases hchild

end Shared

end SocketIoRust.SocketIoServer
