import SocketIoRust.SocketIoServer.Registry
import SocketIoRust.SocketIoServer.Lookup
import SocketIoRust.Library.GetOrCreate
import SocketIoRust.Library.JsonText

namespace SocketIoRust.SocketIoServer.ConnectionRace

open Library Library.Threads SocketIoParser
open Library.GetOrCreate (eq_of_countP_le_one)
open Lookup (Owns owns_insert owns_of_get)

variable {D : Type}

/-- What `add_connection` is called with, and the id that `generate_id` would answer with. -/
structure Request where
  ns : SimpleNamespace
  engineConnectionId : Str
  handshake : Handshake
  generatedId : Str

/-- A call of `add_connection`: it looks for the connection, makes one if there is none, and
writes down whose socket it has added. The steps of other calls come in between. -/
inductive Task where
  | get : Request → Task
  | insert : Request → Task
  | record : Request → (socketId : Str) → (new : Bool) → Task
  | done : Request → (socketId : Str) → (new : Bool) → Task

namespace Task

def request : Task → Request
  | get r => r
  | insert r => r
  | record r _ _ => r
  | done r _ _ => r

/-- Whether the connection of the task's socket is one that the task has made. -/
def origin : Task → Option Bool
  | get _ => none
  | insert _ => none
  | record _ _ new => some new
  | done _ _ new => some new

def Inserts (e : Str) (t : Task) : Prop := t.origin = some true ∧ t.request.engineConnectionId = e

instance (e : Str) (t : Task) : Decidable (t.Inserts e) := inferInstanceAs (Decidable (_ ∧ _))

end Task

def IsCall (t : Task) : Prop := ∃ r, t = .get r

/-- What is left of the connection that an insertion replaces. -/
def dropReplaced (shared : Shared D) (e : Str) (memory : Memory) : Memory :=
  match IndexMap.get e shared.connections with
  | some replaced => Connection.drop replaced.state memory
  | none => memory

def next : Program (Shared D) Task := fun shared t ↦
  match t with
  | .get r =>
    match IndexMap.get r.engineConnectionId shared.connections with
    | some connection =>
      let (state, memory, success) :=
        Connection.addToNamespace connection.state r.handshake r.ns r.generatedId shared.memory
      some ({ shared with
        connections := IndexMap.insert r.engineConnectionId { connection with state := state }
          shared.connections
        memory := memory }, .record r success.socketId false)
    | none => some (shared, .insert r)
  | .insert r =>
    let (connection, memory, socketId) := Connection.initializeConnection r.engineConnectionId
      r.handshake r.ns r.generatedId shared.memory
    some ({ shared with
      connections := IndexMap.insert r.engineConnectionId connection shared.connections
      memory := dropReplaced shared r.engineConnectionId memory }, .record r socketId true)
  | .record r socketId new =>
    some ({ shared with
      connectionLookup := IndexMap.insert socketId r.engineConnectionId shared.connectionLookup },
      .done r socketId new)
  | .done _ _ _ => none

/-- Without others in between, the steps are those of `add_connection`. -/
theorem addConnection_alone (shared : Shared D) (r : Request) :
    ∃ new, Pool.run next Free ⟨shared, [.get r]⟩ [0, 0, 0] =
      ⟨(shared.addConnection r.ns r.engineConnectionId r.handshake r.generatedId).1,
        [.done r (shared.addConnection r.ns r.engineConnectionId r.handshake r.generatedId).2
          new]⟩ := by
  cases hget : IndexMap.get r.engineConnectionId shared.connections with
  | some connection =>
    refine ⟨false, ?_⟩
    simp [Pool.run, Pool.step, next, Shared.addConnection, hget, Free]
  | none =>
    refine ⟨true, ?_⟩
    simp [Pool.run, Pool.step, next, Shared.addConnection, hget, Free, dropReplaced]

def Has (shared : Shared D) (e : Str) : Prop := (IndexMap.get e shared.connections).isSome = true

theorem has_insert {shared shared' : Shared D} {e : Str} {connection : Connection D}
    (h : shared'.connections = IndexMap.insert e connection shared.connections) (e' : Str) :
    Has shared' e' ↔ e' = e ∨ Has shared e' := by
  rw [Has, h, IndexMap.get_insert]
  by_cases he : e' = e
  · simp [he]
  · simp [he, Has]

/-- What a step does to a server that records no namespaces. -/
inductive Moves (shared : Shared D) : Task → Shared D → Task → Prop
  | looks {r : Request} : ¬ Has shared r.engineConnectionId →
      Moves shared (.get r) shared (.insert r)
  | adds {r : Request} {shared' : Shared D} : Has shared r.engineConnectionId →
      (∀ e, Has shared' e ↔ Has shared e) →
      (∀ e s, Owns shared' e s ↔
        Owns shared e s ∨ (e = r.engineConnectionId ∧ s = r.generatedId)) →
      shared'.connectionLookup = shared.connectionLookup →
      Moves shared (.get r) shared' (.record r r.generatedId false)
  | replaces {r : Request} {shared' : Shared D} :
      (∀ e, Has shared' e ↔ e = r.engineConnectionId ∨ Has shared e) →
      (∀ e s, Owns shared' e s ↔
        if e = r.engineConnectionId then s = r.generatedId else Owns shared e s) →
      shared'.connectionLookup = shared.connectionLookup →
      Moves shared (.insert r) shared' (.record r r.generatedId true)
  | records {r : Request} {socketId : Str} {new : Bool} {shared' : Shared D} :
      shared'.connections = shared.connections →
      shared'.connectionLookup =
        IndexMap.insert socketId r.engineConnectionId shared.connectionLookup →
      Moves shared (.record r socketId new) shared' (.done r socketId new)

theorem next_moves {shared shared' : Shared D} {t t' : Task} (h : shared.Unrecorded)
    (hn : next shared t = some (shared', t')) :
    Moves shared t shared' t' ∧ shared'.Unrecorded := by
  cases t with
  | get r =>
    rw [next] at hn
    cases hget : IndexMap.get r.engineConnectionId shared.connections with
    | none =>
      simp only [hget, Option.some.injEq, Prod.mk.injEq] at hn
      obtain ⟨rfl, rfl⟩ := hn
      exact ⟨.looks (by simp [Has, hget]), h⟩
    | some connection =>
      have hnone : IndexMap.get r.ns.name connection.state.namespaces = none := by
        rw [h _ connection hget]
        rfl
      simp only [hget, Connection.addToNamespace, hnone, Option.some.injEq, Prod.mk.injEq] at hn
      obtain ⟨rfl, rfl⟩ := hn
      have hhas : Has shared r.engineConnectionId := by simp [Has, hget]
      refine ⟨.adds hhas ?_ ?_ rfl, ?_⟩
      · intro e
        rw [has_insert rfl]
        exact ⟨fun he ↦ he.elim (fun he ↦ he ▸ hhas) id, .inr⟩
      · intro e s
        rw [owns_insert rfl]
        by_cases he : e = r.engineConnectionId
        · subst he
          rw [if_pos rfl, owns_of_get hget, or_comm]
          simp only [true_and]
          exact IndexMap.mem_keys_insert
        · simp [he]
      · intro e connection' hget'
        dsimp only at hget'
        rw [IndexMap.get_insert] at hget'
        split at hget'
        · cases hget'
          exact h _ connection hget
        · exact h e connection' hget'
  | insert r =>
    cases hn
    refine ⟨.replaces (has_insert rfl) ?_ rfl, ?_⟩
    · intro e s
      rw [owns_insert rfl]
      by_cases he : e = r.engineConnectionId
      · rw [if_pos he, if_pos he]
        exact List.mem_singleton
      · rw [if_neg he, if_neg he]
    · intro e connection hget
      dsimp only at hget
      rw [IndexMap.get_insert] at hget
      split at hget
      · cases hget
        rfl
      · exact h e connection hget
  | record r socketId new =>
    cases hn
    exact ⟨.records rfl rfl, h⟩
  | done r socketId new => cases hn

/-- Of the tasks that have made a connection for `e` there is only one. -/
def Single (e : Str) (ts : List Task) : Prop :=
  ∀ t ∈ ts, ∀ u ∈ ts, t.Inserts e → u.Inserts e → t.request.generatedId = u.request.generatedId

/-- What holds of a server and the tasks that have run on it. -/
structure Facts (start shared : Shared D) (ts : List Task) : Prop where
  unrecorded : shared.Unrecorded
  had : ∀ e, Has shared e → Has start e ∨ ∃ t ∈ ts, t.Inserts e
  kept : ∀ e, Has start e → Has shared e
  looked : ∀ r, .insert r ∈ ts → ¬ Has start r.engineConnectionId
  has : ∀ t ∈ ts, t.origin ≠ none → Has shared t.request.engineConnectionId
  owns : ∀ e, Single e ts → ∀ t ∈ ts, t.origin ≠ none → t.request.engineConnectionId = e →
    Owns shared e t.request.generatedId
  single : ∀ e, (∀ t ∈ ts, t.Inserts e → Owns shared e t.request.generatedId) → Single e ts
  answer : ∀ r socketId new, .record r socketId new ∈ ts ∨ .done r socketId new ∈ ts →
    socketId = r.generatedId
  lookup : ∀ r socketId new, .done r socketId new ∈ ts →
    IndexMap.get socketId shared.connectionLookup = some r.engineConnectionId

variable {start shared shared' : Shared D} {t t' : Task} {ts ts' : List Task}

theorem Single.of_mem {e : Str} (h : Single e ts) (hts : ∀ t ∈ ts', t.Inserts e → t ∈ ts) :
    Single e ts' := by
  intro t ht u hu hte hue
  exact h t (hts t ht hte) u (hts u hu hue) hte hue

theorem Facts.perm (h : Facts start shared ts) (hperm : ts.Perm ts') : Facts start shared ts' := by
  have hsingle (e : Str) : Single e ts ↔ Single e ts' :=
    ⟨fun hs ↦ hs.of_mem fun t ht _ ↦ hperm.mem_iff.mpr ht,
      fun hs ↦ hs.of_mem fun t ht _ ↦ hperm.mem_iff.mp ht⟩
  refine ⟨h.unrecorded, ?_, h.kept, ?_, ?_, ?_, ?_, ?_, ?_⟩
  · simpa only [hperm.mem_iff] using h.had
  · simpa only [hperm.mem_iff] using h.looked
  · simpa only [hperm.mem_iff] using h.has
  · simpa only [hperm.mem_iff, hsingle] using h.owns
  · simpa only [hperm.mem_iff, hsingle] using h.single
  · simpa only [hperm.mem_iff] using h.answer
  · simpa only [hperm.mem_iff] using h.lookup

/-- A task without a socket has no part in what the others have done. -/
theorem Facts.tail (h : Facts start shared (t :: ts)) (ht : t.origin = none) :
    Facts start shared ts := by
  have hinserts (e : Str) : ¬ t.Inserts e := by
    intro hi
    rw [Task.Inserts, ht] at hi
    cases hi.1
  have hsingle {e : Str} (hs : Single e ts) : Single e (t :: ts) := by
    refine hs.of_mem fun u hu hue ↦ (List.mem_cons.mp hu).resolve_left ?_
    rintro rfl
    exact hinserts e hue
  refine ⟨h.unrecorded, ?_, h.kept, ?_, ?_, ?_, ?_, ?_, ?_⟩
  · intro e he
    refine (h.had e he).imp_right ?_
    rintro ⟨u, hu, hue⟩
    rcases List.mem_cons.mp hu with rfl | hu
    · exact absurd hue (hinserts e)
    · exact ⟨u, hu, hue⟩
  · intro r hr
    exact h.looked r (List.mem_cons_of_mem _ hr)
  · intro u hu
    exact h.has u (List.mem_cons_of_mem _ hu)
  · intro e hs u hu
    exact h.owns e (hsingle hs) u (List.mem_cons_of_mem _ hu)
  · intro e hall
    have hall' : ∀ u ∈ t :: ts, u.Inserts e → Owns shared e u.request.generatedId :=
      List.forall_mem_cons.mpr ⟨fun hte ↦ absurd hte (hinserts e), hall⟩
    exact (h.single e hall').of_mem fun u hu _ ↦ List.mem_cons_of_mem _ hu
  · intro r socketId new hmem
    exact h.answer r socketId new (hmem.imp (List.mem_cons_of_mem _) (List.mem_cons_of_mem _))
  · intro r socketId new hmem
    exact h.lookup r socketId new (List.mem_cons_of_mem _ hmem)

theorem Facts.cons (h : Facts start shared ts) (ht : t.origin = none)
    (hlooked : ∀ r, t = .insert r → ¬ Has start r.engineConnectionId) :
    Facts start shared (t :: ts) := by
  have hinserts (e : Str) : ¬ t.Inserts e := by
    intro hi
    rw [Task.Inserts, ht] at hi
    cases hi.1
  have horigin {r : Request} {socketId : Str} {new : Bool} :
      t ≠ .record r socketId new ∧ t ≠ .done r socketId new := by
    constructor <;> rintro rfl <;> cases ht
  refine ⟨h.unrecorded, ?_, h.kept, ?_, ?_, ?_, ?_, ?_, ?_⟩
  · intro e he
    refine (h.had e he).imp_right ?_
    rintro ⟨u, hu, hue⟩
    exact ⟨u, List.mem_cons_of_mem _ hu, hue⟩
  · intro r hr
    rcases List.mem_cons.mp hr with rfl | hr
    · exact hlooked r rfl
    · exact h.looked r hr
  · rw [List.forall_mem_cons]
    exact ⟨fun hne ↦ absurd ht hne, h.has⟩
  · intro e hs
    rw [List.forall_mem_cons]
    exact ⟨fun hne ↦ absurd ht hne,
      h.owns e (hs.of_mem fun u hu _ ↦ List.mem_cons_of_mem _ hu)⟩
  · intro e hall
    refine (h.single e (List.forall_mem_cons.mp hall).2).of_mem ?_
    intro u hu hue
    rcases List.mem_cons.mp hu with rfl | hu
    · exact absurd hue (hinserts e)
    · exact hu
  · intro r socketId new hmem
    refine h.answer r socketId new (hmem.imp ?_ ?_)
    · exact fun hmem ↦ (List.mem_cons.mp hmem).resolve_left fun he ↦ horigin.1 he.symm
    · exact fun hmem ↦ (List.mem_cons.mp hmem).resolve_left fun he ↦ horigin.2 he.symm
  · intro r socketId new hmem
    exact h.lookup r socketId new
      ((List.mem_cons.mp hmem).resolve_left fun he ↦ horigin.2 he.symm)

/-- A socket is added to the connection that is there. -/
theorem Facts.adds {r : Request} (h : Facts start shared ts)
    (hid : ∀ u ∈ ts, u.request.generatedId ≠ r.generatedId) (hu : shared'.Unrecorded)
    (hr : Has shared r.engineConnectionId) (hhas : ∀ e, Has shared' e ↔ Has shared e)
    (howns : ∀ e s, Owns shared' e s ↔
      Owns shared e s ∨ (e = r.engineConnectionId ∧ s = r.generatedId))
    (hlookup : shared'.connectionLookup = shared.connectionLookup) :
    Facts start shared' (.record r r.generatedId false :: ts) := by
  have hinserts (e : Str) : ¬ (Task.record r r.generatedId false).Inserts e := fun hi ↦ nomatch hi.1
  refine ⟨hu, ?_, ?_, ?_, ?_, ?_, ?_, ?_, ?_⟩
  · intro e he
    refine (h.had e ((hhas e).mp he)).imp_right ?_
    rintro ⟨u, hu, hue⟩
    exact ⟨u, List.mem_cons_of_mem _ hu, hue⟩
  · intro e he
    exact (hhas e).mpr (h.kept e he)
  · intro r' hr'
    exact h.looked r' (by simpa using hr')
  · simp only [hhas, List.forall_mem_cons]
    exact ⟨fun _ ↦ hr, h.has⟩
  · intro e hs
    simp only [howns, List.forall_mem_cons]
    refine ⟨fun _ he ↦ .inr ⟨he.symm, rfl⟩, fun u hu hne he ↦ .inl ?_⟩
    exact h.owns e (hs.of_mem fun u hu _ ↦ List.mem_cons_of_mem _ hu) u hu hne he
  · intro e hall
    have hall' : ∀ u ∈ ts, u.Inserts e → Owns shared e u.request.generatedId := by
      intro u hu hue
      refine ((howns e _).mp (hall u (List.mem_cons_of_mem _ hu) hue)).resolve_right ?_
      exact fun hsame ↦ hid u hu hsame.2
    refine (h.single e hall').of_mem ?_
    intro u hu hue
    rcases List.mem_cons.mp hu with rfl | hu
    · exact absurd hue (hinserts e)
    · exact hu
  · intro r' socketId new hmem
    simp only [List.mem_cons, Task.record.injEq, reduceCtorEq, false_or] at hmem
    rcases hmem with (⟨rfl, rfl, -⟩ | hmem) | hmem
    · rfl
    · exact h.answer r' socketId new (.inl hmem)
    · exact h.answer r' socketId new (.inr hmem)
  · intro r' socketId new hmem
    rw [hlookup]
    exact h.lookup r' socketId new (by simpa using hmem)

/-- A connection takes the place of one that has been made in the meantime, if there is one. -/
theorem Facts.replaces {r : Request} (h : Facts start shared ts)
    (hlooked : ¬ Has start r.engineConnectionId)
    (hid : ∀ u ∈ ts, u.request.generatedId ≠ r.generatedId) (hu : shared'.Unrecorded)
    (hhas : ∀ e, Has shared' e ↔ e = r.engineConnectionId ∨ Has shared e)
    (howns : ∀ e s, Owns shared' e s ↔
      if e = r.engineConnectionId then s = r.generatedId else Owns shared e s)
    (hlookup : shared'.connectionLookup = shared.connectionLookup) :
    Facts start shared' (.record r r.generatedId true :: ts) := by
  have hinserts {e : Str} : (Task.record r r.generatedId true).Inserts e ↔
      r.engineConnectionId = e := by
    simp [Task.Inserts, Task.origin, Task.request]
  refine ⟨hu, ?_, ?_, ?_, ?_, ?_, ?_, ?_, ?_⟩
  · intro e he
    rcases (hhas e).mp he with rfl | he
    · exact .inr ⟨_, List.mem_cons_self .., hinserts.mpr rfl⟩
    · refine (h.had e he).imp_right ?_
      rintro ⟨u, hu, hue⟩
      exact ⟨u, List.mem_cons_of_mem _ hu, hue⟩
  · intro e he
    exact (hhas e).mpr (.inr (h.kept e he))
  · intro r' hr'
    exact h.looked r' (by simpa using hr')
  · simp only [hhas, List.forall_mem_cons]
    exact ⟨fun _ ↦ .inl rfl, fun u hu hne ↦ .inr (h.has u hu hne)⟩
  · intro e hs u hu hne he
    rw [howns]
    rcases List.mem_cons.mp hu with rfl | hu
    · have her : e = r.engineConnectionId := he.symm
      rw [if_pos her]
      rfl
    · by_cases her : e = r.engineConnectionId
      · -- whoever has joined a connection of `e` before would have had to make it
        exfalso
        have hhad := h.had e (he ▸ h.has u hu hne)
        rcases hhad with hstart | ⟨v, hv, hve⟩
        · exact hlooked (her ▸ hstart)
        · exact hid v hv (hs v (List.mem_cons_of_mem _ hv) _ (List.mem_cons_self ..) hve
            (hinserts.mpr her.symm))
      · rw [if_neg her]
        exact h.owns e (hs.of_mem fun u hu _ ↦ List.mem_cons_of_mem _ hu) u hu hne he
  · intro e hall
    by_cases her : e = r.engineConnectionId
    · have hmade : ∀ u ∈ Task.record r r.generatedId true :: ts, u.Inserts e →
          u.request.generatedId = r.generatedId := by
        intro u hu hue
        have hown := hall u hu hue
        rwa [howns, if_pos her] at hown
      intro u hu v hv hue hve
      rw [hmade u hu hue, hmade v hv hve]
    · have hall' : ∀ u ∈ ts, u.Inserts e → Owns shared e u.request.generatedId := by
        intro u hu hue
        have hown := hall u (List.mem_cons_of_mem _ hu) hue
        rwa [howns, if_neg her] at hown
      refine (h.single e hall').of_mem ?_
      intro u hu hue
      rcases List.mem_cons.mp hu with rfl | hu
      · exact absurd (hinserts.mp hue).symm her
      · exact hu
  · intro r' socketId new hmem
    simp only [List.mem_cons, Task.record.injEq, reduceCtorEq, false_or] at hmem
    rcases hmem with (⟨rfl, rfl, -⟩ | hmem) | hmem
    · rfl
    · exact h.answer r' socketId new (.inl hmem)
    · exact h.answer r' socketId new (.inr hmem)
  · intro r' socketId new hmem
    rw [hlookup]
    exact h.lookup r' socketId new (by simpa using hmem)

theorem Facts.records {r : Request} {socketId : Str} {new : Bool}
    (h : Facts start shared (.record r socketId new :: ts))
    (hid : ∀ u ∈ ts, u.request.generatedId ≠ r.generatedId) (hu : shared'.Unrecorded)
    (hconnections : shared'.connections = shared.connections)
    (hlookup : shared'.connectionLookup =
      IndexMap.insert socketId r.engineConnectionId shared.connectionLookup) :
    Facts start shared' (.done r socketId new :: ts) := by
  have hhas (e : Str) : Has shared' e ↔ Has shared e := by rw [Has, Has, hconnections]
  have howns (e s : Str) : Owns shared' e s ↔ Owns shared e s := by
    rw [Owns, Owns, hconnections]
  have hsingle (e : Str) : Single e (.done r socketId new :: ts) ↔
      Single e (.record r socketId new :: ts) := by
    simp only [Single, List.forall_mem_cons]
    exact Iff.rfl
  have hanswer := h.answer r socketId new (.inl (List.mem_cons_self ..))
  refine ⟨hu, ?_, ?_, ?_, ?_, ?_, ?_, ?_, ?_⟩
  · intro e he
    refine (h.had e ((hhas e).mp he)).imp_right ?_
    simp only [List.exists_mem_cons_iff]
    exact id
  · intro e he
    exact (hhas e).mpr (h.kept e he)
  · intro r' hr'
    exact h.looked r' (by simpa using hr')
  · simp only [hhas]
    have hbefore := h.has
    rw [List.forall_mem_cons] at hbefore ⊢
    exact hbefore
  · intro e hs
    simp only [howns]
    have hbefore := h.owns e ((hsingle e).mp hs)
    rw [List.forall_mem_cons] at hbefore ⊢
    exact hbefore
  · intro e hall
    simp only [howns] at hall
    refine (hsingle e).mpr (h.single e ?_)
    rw [List.forall_mem_cons] at hall ⊢
    exact hall
  · intro r' socketId' new' hmem
    simp only [List.mem_cons, Task.done.injEq, reduceCtorEq, false_or] at hmem
    rcases hmem with hmem | ⟨rfl, rfl, -⟩ | hmem
    · exact h.answer r' socketId' new' (.inl (List.mem_cons_of_mem _ hmem))
    · exact hanswer
    · exact h.answer r' socketId' new' (.inr (List.mem_cons_of_mem _ hmem))
  · intro r' socketId' new' hmem
    rw [hlookup, IndexMap.get_insert]
    simp only [List.mem_cons, Task.done.injEq] at hmem
    rcases hmem with ⟨rfl, rfl, -⟩ | hmem
    · rw [if_pos rfl]
    · have hother := h.answer r' socketId' new' (.inr (List.mem_cons_of_mem _ hmem))
      rw [if_neg, h.lookup r' socketId' new' (List.mem_cons_of_mem _ hmem)]
      rw [hanswer, hother]
      exact hid _ hmem

theorem Facts.moves (h : Facts start shared (t :: ts))
    (hid : ∀ u ∈ ts, u.request.generatedId ≠ t.request.generatedId)
    (hm : Moves shared t shared' t') (hu : shared'.Unrecorded) :
    Facts start shared' (t' :: ts) := by
  cases hm with
  | looks hnot =>
    refine (h.tail rfl).cons rfl ?_
    intro r he
    cases he
    exact fun hstart ↦ hnot (h.kept _ hstart)
  | adds hr hhas howns hlookup => exact (h.tail rfl).adds hid hu hr hhas howns hlookup
  | replaces hhas howns hlookup =>
    exact (h.tail rfl).replaces (h.looked _ (List.mem_cons_self ..)) hid hu hhas howns hlookup
  | records hconnections hlookup => exact h.records hid hu hconnections hlookup

theorem next_request (hn : next shared t = some (shared', t')) : t'.request = t.request := by
  cases t with
  | get r =>
    rw [next] at hn
    cases hget : IndexMap.get r.engineConnectionId shared.connections with
    | none =>
      rw [hget] at hn
      cases hn
      rfl
    | some connection =>
      rw [hget] at hn
      cases hn
      rfl
  | insert r =>
    cases hn
    rfl
  | record r socketId new =>
    cases hn
    rfl
  | done r socketId new => cases hn

def Distinct (ts : List Task) : Prop := (ts.map fun t ↦ t.request.generatedId).Nodup

theorem Distinct.perm (h : Distinct ts) (hperm : ts.Perm ts') : Distinct ts' :=
  (hperm.map _).nodup_iff.mp h

theorem facts (hstart : start.Unrecorded) {p : Pool (Shared D) Task}
    (h : Steps next IsCall Free ⟨start, []⟩ p) (hids : Distinct p.threads) :
    Facts start p.shared p.threads := by
  refine h.invariant (I := fun p ↦ Distinct p.threads → Facts start p.shared p.threads)
    ?_ ?_ hids
  swap
  · intro _
    refine ⟨hstart, fun e he ↦ .inl he, fun e he ↦ he, ?_, ?_, ?_, ?_, ?_, ?_⟩
    all_goals simp [Single]
  intro p q hI hs hdistinct
  cases hs with
  | @start s ts t ht =>
    obtain ⟨r, rfl⟩ := ht
    have hbefore : Distinct ts := by
      rw [Distinct, List.map_append] at hdistinct
      exact hdistinct.of_append_left
    have hcons := (hI hbefore).cons (t := .get r) rfl (by simp)
    exact hcons.perm (List.perm_append_singleton _ _).symm
  | @run s s' before after t t' _ hn =>
    have hrequest := next_request hn
    have hbefore : Distinct (before ++ t :: after) := by
      simpa only [Distinct, List.map_append, List.map_cons, hrequest] using hdistinct
    have hfacts := (hI hbefore).perm List.perm_middle
    obtain ⟨hm, hu⟩ := next_moves hfacts.unrecorded hn
    have hid : ∀ u ∈ before ++ after, u.request.generatedId ≠ t.request.generatedId := by
      have hnodup : Distinct (t :: (before ++ after)) := hbefore.perm List.perm_middle
      rw [Distinct, List.map_cons, List.nodup_cons] at hnodup
      intro u hu he
      exact hnodup.1 (he ▸ List.mem_map_of_mem hu)
    exact (hfacts.moves hid hm hu).perm List.perm_middle.symm

/-- Among tasks with ids of their own, `Single` is a matter of counting. -/
theorem single_iff {e : Str} (h : Distinct ts) :
    Single e ts ↔ ts.countP (fun t ↦ t.Inserts e) ≤ 1 := by
  constructor
  · intro hs
    rw [List.countP_eq_length_filter]
    have hnodup := h.sublist ((List.filter_sublist (p := fun t ↦ t.Inserts e)).map _)
    match hf : ts.filter (fun t ↦ t.Inserts e) with
    | [] => simp [hf]
    | [t] => simp [hf]
    | t :: u :: rest =>
      have hmem : ∀ v ∈ t :: u :: rest, v ∈ ts ∧ v.Inserts e := by
        intro v hv
        rw [← hf, List.mem_filter] at hv
        exact ⟨hv.1, of_decide_eq_true hv.2⟩
      obtain ⟨ht, hte⟩ := hmem t (by simp)
      obtain ⟨hu, hue⟩ := hmem u (by simp)
      rw [hf, List.map_cons, List.map_cons, hs t ht u hu hte hue] at hnodup
      simp at hnodup
  · intro hone t ht u hu hte hue
    rw [eq_of_countP_le_one hone ht hu (decide_eq_true hte) (decide_eq_true hue)]

/-- When calls of `add_connection` run at the same time, all the sockets that they answer with
belong to the connection that is kept if and only if at most one call has made one. A socket
that does not belong to it stays in the lookup when the connection is removed. -/
theorem sockets_kept_iff (D : Type) [Connection.Decoder D]
    (decodeProtoPacket : Str → Outcome HandleEngineMessageError ProtoPacket)
    (operations : List Operation) (p : Pool (Shared D) Task)
    (h : Steps next IsCall Free ⟨Shared.reached D decodeProtoPacket operations, []⟩ p)
    (hids : Distinct p.threads) (e : Str) :
    ((∀ t ∈ p.threads, t.origin ≠ none → t.request.engineConnectionId = e →
        Owns p.shared e t.request.generatedId) ↔
      p.threads.countP (fun t ↦ t.Inserts e) ≤ 1) ∧
    ∀ r socketId new, .done r socketId new ∈ p.threads → r.engineConnectionId = e →
      socketId = r.generatedId ∧
      IndexMap.get socketId p.shared.connectionLookup = some e ∧
      (Owns p.shared e socketId ↔
        IndexMap.get socketId (p.shared.removeConnection e).1.connectionLookup = none) := by
  have hfacts := facts (Shared.unrecorded_run decodeProtoPacket operations) h hids
  refine ⟨?_, ?_⟩
  · rw [← single_iff hids]
    constructor
    · intro hall
      refine hfacts.single e ?_
      intro t ht hte
      exact hall t ht (by simp [hte.1]) hte.2
    · exact hfacts.owns e
  · intro r socketId new hmem he
    have hlookup := hfacts.lookup r socketId new hmem
    have hhas := hfacts.has _ hmem (by simp [Task.origin])
    rw [he] at hlookup
    refine ⟨hfacts.answer r socketId new (.inr hmem), hlookup, ?_⟩
    obtain ⟨connection, hget⟩ := Option.isSome_iff_exists.mp hhas
    have hget' : IndexMap.get e p.shared.connections = some connection := he ▸ hget
    rw [owns_of_get hget', Shared.removeConnection, hget', IndexMap.get_foldl_erase]
    by_cases hown : socketId ∈ connection.iterSocketIds
    · simp [hown]
    · simp [hown, hlookup]

/-- Two requests of one client, which are both handled before its connection is known. -/
def race : Pool (Shared DefaultDecoder) Task :=
  let request (name : Str) (generatedId : Str) : Task :=
    .get ⟨⟨0, name⟩, ['e'], ⟨[], 0, [], false, false, 0, [], [], .null⟩, generatedId⟩
  Pool.run next Free ⟨Shared.new, [request ['/', 'a'] ['s'], request ['/', 'b'] ['t']]⟩
    [0, 1, 0, 1, 0, 1]

theorem sockets_kept_iff_race :
    ((∀ t ∈ race.threads, t.origin ≠ none → t.request.engineConnectionId = ['e'] →
        Owns race.shared ['e'] t.request.generatedId) ↔
      race.threads.countP (fun t ↦ t.Inserts ['e']) ≤ 1) ∧
    (∀ r socketId new, .done r socketId new ∈ race.threads → r.engineConnectionId = ['e'] →
      socketId = r.generatedId ∧
      IndexMap.get socketId race.shared.connectionLookup = some ['e'] ∧
      (Owns race.shared ['e'] socketId ↔
        IndexMap.get socketId (race.shared.removeConnection ['e']).1.connectionLookup = none)) ∧
    race.threads.countP (fun t ↦ t.Inserts ['e']) = 2 := by
  have h := sockets_kept_iff DefaultDecoder (DefaultDecoder.decodeProtoPacket Json.standard .checked)
    [] race ?_ ?_ ['e']
  · exact ⟨h.1, h.2, rfl⟩
  · refine (Steps.startAll _ _ ?_).trans (Steps.run _ [0, 1, 0, 1, 0, 1])
    simp [IsCall]
  · show (race.threads.map fun t ↦ t.request.generatedId).Nodup
    decide

end SocketIoRust.SocketIoServer.ConnectionRace
