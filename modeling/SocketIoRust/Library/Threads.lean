import Mathlib.Algebra.BigOperators.Group.List.Basic
import Mathlib.Algebra.Group.Basic
import Mathlib.Data.List.Induction
import Mathlib.Logic.Relation
import Mathlib.Tactic.Abel

namespace SocketIoRust.Library.Threads

variable {σ τ M : Type}

/-- Threads over a state that they share. -/
structure Pool (σ τ : Type) where
  shared : σ
  threads : List τ

/-- What a thread does next, unless it is done: one step that no other thread interrupts. -/
abbrev Program (σ τ : Type) := σ → τ → Option (σ × τ)

/-- A new thread starts, or one of the threads takes a step that the state allows. -/
inductive Step (next : Program σ τ) (Starts : τ → Prop) (Allowed : σ → τ → Prop) :
    Pool σ τ → Pool σ τ → Prop
  | start {s : σ} {ts : List τ} {t : τ} : Starts t →
      Step next Starts Allowed ⟨s, ts⟩ ⟨s, ts ++ [t]⟩
  | run {s s' : σ} {before after : List τ} {t t' : τ} : Allowed s t → next s t = some (s', t') →
      Step next Starts Allowed ⟨s, before ++ t :: after⟩ ⟨s', before ++ t' :: after⟩

/-- The runs in which every step is allowed. -/
abbrev Steps (next : Program σ τ) (Starts : τ → Prop) (Allowed : σ → τ → Prop) :
    Pool σ τ → Pool σ τ → Prop :=
  Relation.ReflTransGen (Step next Starts Allowed)

/-- Any step of any thread. -/
def Free (_ : σ) (_ : τ) : Prop := True

instance (s : σ) (t : τ) : Decidable (Free s t) := inferInstanceAs (Decidable True)

variable {next : Program σ τ} {Starts : τ → Prop} {Allowed : σ → τ → Prop} {p q : Pool σ τ}

theorem Steps.invariant {I : Pool σ τ → Prop}
    (hstep : ∀ p q, I p → Step next Starts Allowed p q → I q) (hp : I p)
    (h : Steps next Starts Allowed p q) : I q := by
  induction h with
  | refl => exact hp
  | tail _ hs ih => exact hstep _ _ ih hs

/-- An invariant of the shared state, and of each thread with it. A thread has to bear with
the steps of those that are apart from it, as all of them are at first. -/
theorem Steps.forall_threads {I : σ → Prop} {T : σ → τ → Prop} {R : τ → τ → Prop}
    (hsymm : ∀ t u, R t u → R u t)
    (hstart : ∀ s t, I s → Starts t → T s t ∧ ∀ u, R t u)
    (hrun : ∀ s t s' t', I s → T s t → Allowed s t → next s t = some (s', t') →
      I s' ∧ T s' t' ∧ ∀ u, T s u → R t u → T s' u ∧ R t' u)
    (hp : I p.shared ∧ p.threads = []) (h : Steps next Starts Allowed p q) :
    I q.shared ∧ (∀ t ∈ q.threads, T q.shared t) ∧ q.threads.Pairwise R := by
  refine h.invariant (I := fun p ↦
    I p.shared ∧ (∀ t ∈ p.threads, T p.shared t) ∧ p.threads.Pairwise R) ?_ ?_
  swap
  · refine ⟨hp.1, ?_, ?_⟩
    · simp [hp.2]
    · simp [hp.2]
  intro p q hI hs
  obtain ⟨hI, hT, hapart⟩ := hI
  cases hs with
  | @start s ts t ht =>
    obtain ⟨ht', hnew⟩ := hstart s t hI ht
    refine ⟨hI, ?_, ?_⟩
    · exact List.forall_mem_append.mpr ⟨hT, List.forall_mem_singleton.mpr ht'⟩
    · refine List.pairwise_append.mpr ⟨hapart, List.pairwise_singleton _ _, ?_⟩
      intro u _ v hv
      rw [List.mem_singleton.mp hv]
      exact hsymm t u (hnew u)
  | @run s s' before after t t' ha hn =>
    obtain ⟨hI', ht', hothers⟩ := hrun s t s' t' hI (hT t (by simp)) ha hn
    simp only [List.forall_mem_append, List.forall_mem_cons] at hT
    obtain ⟨hbefore, -, hafter⟩ := hT
    obtain ⟨hpb, hpt, hbt⟩ := List.pairwise_append.mp hapart
    obtain ⟨hta, hpa⟩ := List.pairwise_cons.mp hpt
    have hleft : ∀ u ∈ before, T s' u ∧ R t' u := fun u hu ↦
      hothers u (hbefore u hu) (hsymm u t (hbt u hu t (List.mem_cons_self ..)))
    have hright : ∀ u ∈ after, T s' u ∧ R t' u := fun u hu ↦
      hothers u (hafter u hu) (hta u hu)
    refine ⟨hI', ?_, ?_⟩
    · simp only [List.forall_mem_append, List.forall_mem_cons]
      exact ⟨fun u hu ↦ (hleft u hu).1, ht', fun u hu ↦ (hright u hu).1⟩
    · refine List.pairwise_append.mpr
        ⟨hpb, List.pairwise_cons.mpr ⟨fun u hu ↦ (hright u hu).2, hpa⟩, ?_⟩
      intro u hu v hv
      rcases List.mem_cons.mp hv with rfl | hv
      · exact hsymm v u (hleft u hu).2
      · exact hbt u hu v (List.mem_cons_of_mem t hv)

theorem Steps.startAll (s : σ) (ts : List τ) (h : ∀ t ∈ ts, Starts t) :
    Steps next Starts Allowed ⟨s, []⟩ ⟨s, ts⟩ := by
  induction ts using List.reverseRecOn with
  | nil => exact .refl
  | append_singleton ts t ih =>
    obtain ⟨hts, ht⟩ := List.forall_mem_append.mp h
    exact (ih hts).tail (.start (List.forall_mem_singleton.mp ht))

section Execution

variable [∀ s t, Decidable (Allowed s t)]

/-- The pool after the step of its thread `i`, if it can take one. -/
def Pool.step (next : Program σ τ) (Allowed : σ → τ → Prop) [∀ s t, Decidable (Allowed s t)]
    (p : Pool σ τ) (i : ℕ) : Pool σ τ :=
  match p.threads[i]? with
  | none => p
  | some t =>
    if Allowed p.shared t then
      match next p.shared t with
      | none => p
      | some (s, t) => ⟨s, p.threads.set i t⟩
    else p

/-- The pool after the steps of its threads in the given order. -/
def Pool.run (next : Program σ τ) (Allowed : σ → τ → Prop) [∀ s t, Decidable (Allowed s t)]
    (p : Pool σ τ) (schedule : List ℕ) : Pool σ τ :=
  schedule.foldl (Pool.step next Allowed) p

theorem Steps.step (p : Pool σ τ) (i : ℕ) :
    Steps next Starts Allowed p (p.step next Allowed i) := by
  rw [Pool.step]
  split
  · exact .refl
  rename_i t ht
  split
  swap
  · exact .refl
  rename_i ha
  split
  · exact .refl
  rename_i s t' hn
  obtain ⟨hi, hget⟩ := List.getElem?_eq_some_iff.mp ht
  have hthreads : p.threads = p.threads.take i ++ t :: p.threads.drop (i + 1) := by
    rw [← hget, List.cons_getElem_drop_succ, List.take_append_drop]
  have hset : p.threads.set i t' = p.threads.take i ++ t' :: p.threads.drop (i + 1) :=
    List.set_eq_take_cons_drop t' hi
  have hs : Step next Starts Allowed ⟨p.shared, p.threads.take i ++ t :: p.threads.drop (i + 1)⟩
      ⟨s, p.threads.take i ++ t' :: p.threads.drop (i + 1)⟩ := .run ha hn
  rw [← hthreads, ← hset] at hs
  exact .single hs

theorem Steps.run (p : Pool σ τ) (schedule : List ℕ) :
    Steps next Starts Allowed p (p.run next Allowed schedule) := by
  induction schedule generalizing p with
  | nil => exact .refl
  | cons i schedule ih => exact (Steps.step p i).trans (ih _)

end Execution

section Conservation

variable [AddCancelCommMonoid M] {created held : σ → M} {weight : τ → M}

/-- What the threads hold together. -/
def Pool.total (p : Pool σ τ) (weight : τ → M) : M := (p.threads.map weight).sum

/-- What has been created is in the shared state or in the hands of a thread, if this is so
of every single step. -/
theorem Steps.conserved (hstart : ∀ t, Starts t → weight t = 0)
    (hrun : ∀ s t s' t', next s t = some (s', t') →
      created s' + (held s + weight t) = created s + (held s' + weight t'))
    (hp : created p.shared = held p.shared + p.total weight)
    (h : Steps next Starts Allowed p q) :
    created q.shared = held q.shared + q.total weight := by
  refine h.invariant (I := fun p ↦ created p.shared = held p.shared + p.total weight) ?_ hp
  intro p q hI hs
  cases hs with
  | start ht =>
    simp only [Pool.total, List.map_append, List.sum_append, List.map_cons, List.map_nil,
      List.sum_singleton, hstart _ ht, add_zero] at hI ⊢
    exact hI
  | @run s s' before after t t' _ hn =>
    have hstep := hrun s t s' t' hn
    simp only [Pool.total, List.map_append, List.sum_append, List.map_cons,
      List.sum_cons] at hI ⊢
    apply add_right_cancel (b := held s + weight t)
    rw [hstep, hI]
    abel

end Conservation

end SocketIoRust.Library.Threads
