import SocketIoRust.SocketIoServer.Moves

namespace SocketIoRust.SocketIoServer

open Library SocketIoParser
open EngineIoServer (RequestContext)

/-- A registered namespace, and the dynamic namespace that it is a child of. -/
structure Entry where
  ns : SimpleNamespace
  parent : Option DynamicNamespace

/-- What a server is meant to know of each name: one namespace of that name, with at most
one parent. -/
structure Directory where
  entry : Str → Option Entry
  slash : ∀ {name : Str} {e : Entry}, entry name = some e → ∃ rest, name = '/' :: rest
  named : ∀ {name : Str} {e : Entry}, entry name = some e → e.ns.name = name

namespace Directory

def empty : Directory where
  entry _ := none
  slash h := nomatch h
  named h := nomatch h

def add (directory : Directory) (e : Entry) (h : ∃ rest, e.ns.name = '/' :: rest) : Directory where
  entry := Function.update directory.entry e.ns.name (some e)
  slash {name e'} hentry := by
    by_cases hname : name = e.ns.name
    · exact hname ▸ h
    · rw [Function.update_of_ne hname] at hentry
      exact directory.slash hentry
  named {name e'} hentry := by
    by_cases hname : name = e.ns.name
    · subst hname
      rw [Function.update_self] at hentry
      rw [Option.some.inj hentry]
    · rw [Function.update_of_ne hname] at hentry
      exact directory.named hentry

theorem add_entry (directory : Directory) (e : Entry) (h : ∃ rest, e.ns.name = '/' :: rest)
    (name : Str) : (directory.add e h).entry name =
      if name = e.ns.name then some e else directory.entry name :=
  Function.update_apply directory.entry e.ns.name (some e) name

/-- An entry is never changed or removed. -/
def Extends (directory directory' : Directory) : Prop :=
  ∀ name e, directory.entry name = some e → directory'.entry name = some e

theorem Extends.refl (directory : Directory) : Extends directory directory := fun _ _ h ↦ h

theorem Extends.trans {directory directory' directory'' : Directory}
    (h : Extends directory directory') (h' : Extends directory' directory'') :
    Extends directory directory'' := by
  intro name e hentry
  exact h' name e (h name e hentry)

theorem extends_add (directory : Directory) {e : Entry} (h : ∃ rest, e.ns.name = '/' :: rest)
    (hnone : directory.entry e.ns.name = none) : Extends directory (directory.add e h) := by
  intro name e' hentry
  have hne : name ≠ e.ns.name := by
    intro hname
    rw [hname, hnone] at hentry
    cases hentry
  rw [add_entry, if_neg hne]
  exact hentry

end Directory

namespace Shared

variable {D : Type} {shared shared' : Shared D} {directory : Directory}

def dynamics (shared : Shared D) : List DynamicNamespace := shared.dynamicNamespaces.map Prod.snd

/-- The maps of the server and of its dynamic namespaces are those of the directory, and
every object is at an address of its own. -/
structure Represents (shared : Shared D) (directory : Directory) : Prop where
  namespaces : ∀ name, IndexMap.get name shared.namespaces =
    (directory.entry name).map Entry.ns
  members : ∀ dynamic ∈ shared.dynamics, ∀ name ns,
    IndexMap.get name (shared.members dynamic.address) = some ns ↔
      directory.entry name = some ⟨ns, some dynamic⟩
  parents : ∀ name e dynamic, directory.entry name = some e → e.parent = some dynamic →
    dynamic ∈ shared.dynamics
  allocated : ∀ name e, directory.entry name = some e → e.ns.address < shared.nextAddress
  distinct : ∀ name name' e e', directory.entry name = some e → directory.entry name' = some e' →
    e.ns.address = e'.ns.address → name = name'
  dynamicsAllocated : ∀ dynamic ∈ shared.dynamics, dynamic.address < shared.nextAddress
  dynamicsNodup : shared.dynamics.Nodup

theorem represents_new : Represents (Shared.new : Shared D) Directory.empty where
  namespaces _ := rfl
  members _ h := nomatch h
  parents _ _ _ h := nomatch h
  allocated _ _ h := nomatch h
  distinct _ _ _ _ h := nomatch h
  dynamicsAllocated _ h := nomatch h
  dynamicsNodup := List.nodup_nil

/-- Only four of the maps of a server take part. -/
theorem Represents.congr (h : Represents shared directory)
    (hnamespaces : shared'.namespaces = shared.namespaces)
    (hdynamic : shared'.dynamicNamespaces = shared.dynamicNamespaces)
    (hmembers : shared'.members = shared.members)
    (hnext : shared'.nextAddress = shared.nextAddress) : Represents shared' directory := by
  have hdynamics : shared'.dynamics = shared.dynamics := by rw [dynamics, dynamics, hdynamic]
  refine ⟨?_, ?_, ?_, ?_, h.distinct, ?_, ?_⟩
  · rw [hnamespaces]
    exact h.namespaces
  · rw [hdynamics, hmembers]
    exact h.members
  · rw [hdynamics]
    exact h.parents
  · rw [hnext]
    exact h.allocated
  · rw [hdynamics, hnext]
    exact h.dynamicsAllocated
  · rw [hdynamics]
    exact h.dynamicsNodup

/-- A new namespace of that name, as a child of the parent if there is one. -/
def enter (shared : Shared D) (parent : Option DynamicNamespace) (name : Str) : Shared D :=
  match parent with
  | none => shared.register name
  | some dynamic =>
    (shared.register name).insertSimpleNamespace dynamic ⟨shared.nextAddress, name⟩

theorem enter_dynamics (shared : Shared D) (parent : Option DynamicNamespace) (name : Str) :
    (shared.enter parent name).dynamics = shared.dynamics := by
  cases parent <;> rfl

theorem enter_nextAddress (shared : Shared D) (parent : Option DynamicNamespace) (name : Str) :
    (shared.enter parent name).nextAddress = shared.nextAddress + 1 := by
  cases parent <;> rfl

theorem enter_namespaces (shared : Shared D) (parent : Option DynamicNamespace) (name : Str) :
    (shared.enter parent name).namespaces =
      IndexMap.insert name ⟨shared.nextAddress, name⟩ shared.namespaces := by
  cases parent <;> rfl

theorem enter_members (shared : Shared D) (parent : Option DynamicNamespace)
    (dynamic : DynamicNamespace) (name name' : Str) :
    IndexMap.get name' ((shared.enter parent name).members dynamic.address) =
      if name' = name ∧ parent = some dynamic then some ⟨shared.nextAddress, name⟩
      else IndexMap.get name' (shared.members dynamic.address) := by
  cases parent with
  | none => simp [enter, register]
  | some dynamic' =>
    simp only [enter, insertSimpleNamespace, register, Option.some.injEq]
    by_cases hd : dynamic' = dynamic
    · subst hd
      rw [Function.update_self, IndexMap.get_insert]
      simp
    · have hne : dynamic.address ≠ dynamic'.address := by
        intro h
        cases dynamic
        cases dynamic'
        exact hd (congrArg DynamicNamespace.mk h.symm)
      rw [Function.update_of_ne hne, if_neg (fun h ↦ hd h.2)]

theorem Represents.enter (h : Represents shared directory) {name : Str}
    (hslash : ∃ rest, name = '/' :: rest) (hnone : directory.entry name = none)
    (parent : Option DynamicNamespace) (hparent : ∀ dynamic ∈ parent, dynamic ∈ shared.dynamics) :
    Represents (shared.enter parent name)
      (directory.add ⟨⟨shared.nextAddress, name⟩, parent⟩ hslash) := by
  have hentry (name' : Str) :=
    directory.add_entry ⟨⟨shared.nextAddress, name⟩, parent⟩ hslash name'
  dsimp only at hentry
  refine ⟨?_, ?_, ?_, ?_, ?_, ?_, ?_⟩
  · intro name'
    rw [enter_namespaces, IndexMap.get_insert, hentry, h.namespaces]
    split <;> rfl
  · intro dynamic hd name' ns
    rw [enter_dynamics] at hd
    rw [enter_members, hentry]
    by_cases hname : name' = name
    · subst hname
      simp only [true_and, if_true]
      by_cases hp : parent = some dynamic
      · simp [hp]
      · rw [if_neg hp, h.members dynamic hd, hnone]
        simp [hp]
    · simp only [hname, false_and, if_false]
      exact h.members dynamic hd name' ns
  · intro name' e dynamic he hp
    rw [enter_dynamics]
    rw [hentry] at he
    split at he
    · cases he
      exact hparent dynamic hp
    · exact h.parents name' e dynamic he hp
  · intro name' e he
    rw [enter_nextAddress]
    rw [hentry] at he
    split at he
    · cases he
      exact Nat.lt_succ_self _
    · exact Nat.lt_succ_of_lt (h.allocated name' e he)
  · intro name₁ name₂ e₁ e₂ he₁ he₂ haddress
    rw [hentry] at he₁ he₂
    split at he₁
    · split at he₂
      · rename_i h₁ h₂
        rw [h₁, h₂]
      · cases he₁
        exact absurd haddress (Nat.ne_of_gt (h.allocated name₂ e₂ he₂))
    · split at he₂
      · cases he₂
        exact absurd haddress (Nat.ne_of_lt (h.allocated name₁ e₁ he₁))
      · exact h.distinct name₁ name₂ e₁ e₂ he₁ he₂ haddress
  · intro dynamic hd
    rw [enter_nextAddress]
    exact Nat.lt_succ_of_lt (h.dynamicsAllocated dynamic (by rwa [enter_dynamics] at hd))
  · rw [enter_dynamics]
    exact h.dynamicsNodup

theorem Represents.exists_enter (h : Represents shared directory) {name : Str}
    (hslash : ∃ rest, name = '/' :: rest) (hnone : directory.entry name = none)
    (parent : Option DynamicNamespace) (hparent : ∀ dynamic ∈ parent, dynamic ∈ shared.dynamics) :
    ∃ directory', Represents (shared.enter parent name) directory' ∧
      directory.Extends directory' ∧ ∀ name', directory'.entry name' =
        if name' = name then some ⟨⟨shared.nextAddress, name⟩, parent⟩
        else directory.entry name' :=
  ⟨_, h.enter hslash hnone parent hparent, directory.extends_add hslash hnone,
    directory.add_entry _ hslash⟩

theorem Represents.makeDynamicNamespace (h : Represents shared directory)
    (namespaceDescriptor : NamespaceDescriptor) :
    Represents (shared.makeDynamicNamespace namespaceDescriptor).1 directory := by
  have hdynamics : (shared.makeDynamicNamespace namespaceDescriptor).1.dynamics =
      shared.dynamics ++ [⟨shared.nextAddress⟩] := by
    rw [dynamics, dynamics]
    exact List.map_append
  have hnot : (⟨shared.nextAddress⟩ : DynamicNamespace) ∉ shared.dynamics :=
    fun hd ↦ Nat.lt_irrefl _ (h.dynamicsAllocated _ hd)
  refine ⟨h.namespaces, ?_, ?_, ?_, h.distinct, ?_, ?_⟩
  · intro dynamic hd name ns
    rw [hdynamics, List.mem_append, List.mem_singleton] at hd
    simp only [Shared.makeDynamicNamespace]
    rcases hd with hd | rfl
    · rw [Function.update_of_ne (Nat.ne_of_lt (h.dynamicsAllocated dynamic hd))]
      exact h.members dynamic hd name ns
    · rw [Function.update_self]
      constructor
      · intro hget
        cases hget
      · intro hentry
        exact absurd (h.parents name _ _ hentry rfl) hnot
  · intro name e dynamic he hp
    rw [hdynamics]
    exact List.mem_append_left _ (h.parents name e dynamic he hp)
  · intro name e he
    exact Nat.lt_succ_of_lt (h.allocated name e he)
  · intro dynamic hd
    rw [hdynamics, List.mem_append, List.mem_singleton] at hd
    rcases hd with hd | rfl
    · exact Nat.lt_succ_of_lt (h.dynamicsAllocated dynamic hd)
    · exact Nat.lt_succ_self _
  · rw [hdynamics]
    exact h.dynamicsNodup.append (List.nodup_singleton _) (by simpa using hnot)

theorem Represents.quiet (h : Represents shared directory) (hquiet : Quiet shared shared') :
    Represents shared' directory :=
  h.congr hquiet.namespaces hquiet.dynamicNamespaces hquiet.members hquiet.nextAddress

theorem Represents.addConnection (h : Represents shared directory) (ns : SimpleNamespace)
    (e : Str) (handshake : Handshake) (generatedId : Str) :
    Represents (shared.addConnection ns e handshake generatedId).1 directory := by
  simp only [Shared.addConnection]
  cases IndexMap.get e shared.connections <;> exact h.congr rfl rfl rfl rfl

theorem Represents.removeConnection (h : Represents shared directory) (e : Str) :
    Represents (shared.removeConnection e).1 directory := by
  simp only [Shared.removeConnection]
  cases IndexMap.get e shared.connections <;> exact h.congr rfl rfl rfl rfl

theorem Represents.get_eq_none (h : Represents shared directory) (name : Str) :
    IndexMap.get name shared.namespaces = none ↔ directory.entry name = none := by
  rw [h.namespaces, Option.map_eq_none_iff]

/-- A name that is looked up for its owner gets an entry without a parent. -/
theorem Represents.getOrCreateNamespace (h : Represents shared directory) (name : Str) :
    ∃ directory', Represents (shared.getOrCreateNamespace name).1 directory' ∧
      directory.Extends directory' ∧ ∀ name' e, directory.entry name' = none →
        directory'.entry name' = some e → e.parent = none := by
  cases hget : IndexMap.get (normalized name) shared.namespaces with
  | some ns =>
    rw [getOrCreateNamespace_of_some hget]
    refine ⟨directory, h, .refl directory, ?_⟩
    intro name' e hnone hsome
    rw [hnone] at hsome
    cases hsome
  | none =>
    obtain ⟨directory', henter, hextends, hentry⟩ := h.exists_enter (normalized_slash name)
      ((h.get_eq_none _).mp hget) none (by simp)
    rw [getOrCreateNamespace_of_none hget]
    refine ⟨directory', henter, hextends, ?_⟩
    intro name' e hnone hsome
    rw [hentry, hnone] at hsome
    split at hsome
    · cases hsome
      rfl
    · cases hsome

/-- A request that is admitted finds its namespace, or makes it a child. -/
theorem Represents.lookFor_cases (h : Represents shared directory) {name : Str}
    {auth : PacketDataValue} (hadmits : shared.Admits name auth) :
    (shared.lookFor name auth = shared ∧ ∃ e, directory.entry (normalized name) = some e) ∨
      ∃ dynamic ∈ shared.dynamics, directory.entry (normalized name) = none ∧
        shared.lookFor name auth = shared.enter (some dynamic) (normalized name) := by
  by_cases hexists : shared.namespaceExists name = true
  · rw [lookFor, if_pos hexists]
    rw [namespaceExists, Option.isSome_iff_exists] at hexists
    obtain ⟨ns, hget⟩ := hexists
    rw [h.namespaces, Option.map_eq_some_iff] at hget
    obtain ⟨e, hentry, -⟩ := hget
    refine .inl ⟨rfl, e, ?_⟩
    rw [normalized_of_slash (directory.slash hentry)]
    exact hentry
  · obtain ⟨dynamic, hd, hmatch⟩ :=
      getMatchingDynamicNamespace_of_some (hadmits.resolve_left hexists)
    rw [lookFor, if_neg hexists, hmatch]
    cases hget : IndexMap.get (normalized name) shared.namespaces with
    | some ns =>
      rw [h.namespaces, Option.map_eq_some_iff] at hget
      obtain ⟨e, hentry, -⟩ := hget
      exact .inl ⟨rfl, e, hentry⟩
    | none =>
      exact .inr ⟨dynamic.2, List.mem_map_of_mem hd, (h.get_eq_none _).mp hget, rfl⟩

theorem Represents.lookFor (h : Represents shared directory) {name : Str} {auth : PacketDataValue}
    (hadmits : shared.Admits name auth) :
    ∃ directory' e, Represents (shared.lookFor name auth) directory' ∧
      directory.Extends directory' ∧ directory'.entry (normalized name) = some e := by
  rcases h.lookFor_cases hadmits with ⟨heq, e, hentry⟩ | ⟨dynamic, hd, hnone, heq⟩
  · rw [heq]
    exact ⟨directory, e, h, .refl directory, hentry⟩
  · obtain ⟨directory', henter, hextends, hentry⟩ := h.exists_enter (normalized_slash name)
      hnone (some dynamic) (by simpa using hd)
    rw [heq]
    exact ⟨directory', _, henter, hextends, by rw [hentry, if_pos rfl]⟩

/-- The client of an admitted request joins the namespace of the normalized name. -/
theorem Represents.handleClientConnect_eq {name : Str} {auth : PacketDataValue}
    (h : Represents (shared.lookFor name auth) directory) {entry : Entry}
    (hentry : directory.entry (normalized name) = some entry)
    (hadmits : shared.Admits name auth) (context : RequestContext) (e : Str)
    (environment : Environment) :
    shared.handleClientConnect context name e auth environment =
      (let (shared, socketId) := (shared.lookFor name auth).addConnection entry.ns e
        (Handshake.new context auth environment) environment.generatedId
      (shared, ⟨.connect, none, normalized name,
        .object [("sid".toList, .string socketId)]⟩)) := by
  have hget : IndexMap.get (normalized name) (shared.lookFor name auth).namespaces =
      some entry.ns := by rw [h.namespaces, hentry, Option.map_some]
  rw [handleClientConnect_of_admits hadmits]
  simp only [connectClient, getOrCreateNamespace_of_some hget, directory.named hentry]

theorem Represents.handleClientConnect (h : Represents shared directory)
    (context : RequestContext) (name e : Str) (auth : PacketDataValue)
    (environment : Environment) :
    ∃ directory',
      Represents (shared.handleClientConnect context name e auth environment).1 directory' ∧
        directory.Extends directory' := by
  by_cases hadmits : shared.Admits name auth
  · obtain ⟨directory', entry, hfound, hextends, hentry⟩ := h.lookFor hadmits
    refine ⟨directory', ?_, hextends⟩
    rw [hfound.handleClientConnect_eq hentry hadmits]
    exact hfound.addConnection _ _ _ _
  · rw [handleClientConnect_of_not_admits hadmits]
    exact ⟨directory, h, .refl directory⟩

end Shared

end SocketIoRust.SocketIoServer
