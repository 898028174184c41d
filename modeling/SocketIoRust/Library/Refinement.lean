import Mathlib.Data.List.Basic

namespace SocketIoRust.Library.Refinement

variable {σ τ ι κ ρ : Type}

/-- A component that answers each input and moves to its next state. -/
structure Machine (σ ι ρ : Type) where
  step : σ → ι → σ × ρ

/-- The state after a sequence of inputs, and the answers to them. -/
def Machine.run (M : Machine σ ι ρ) (s : σ) : List ι → σ × List ρ
  | [] => (s, [])
  | i :: is =>
    let next := M.step s i
    let (s, answers) := M.run next.1 is
    (s, next.2 :: answers)

theorem Machine.run_cons (M : Machine σ ι ρ) (s : σ) (i : ι) (is : List ι) :
    M.run s (i :: is) = ((M.run (M.step s i).1 is).1, (M.step s i).2 :: (M.run (M.step s i).1 is).2) :=
  rfl

/-- Every step of `C` from a state that `R` relates is the step that `A` takes. -/
structure Refines (C : Machine σ ι ρ) (A : Machine τ ι ρ) (R : σ → τ → Prop) : Prop where
  step : ∀ s t i, R s t → R (C.step s i).1 (A.step t i).1 ∧ (C.step s i).2 = (A.step t i).2

/-- A simulation that is kept by the inputs of one kind. -/
theorem Machine.run_simulation {C : Machine σ ι ρ} {A : Machine τ ι ρ} {R : σ → τ → Prop}
    {I : ι → Prop}
    (h : ∀ s t i, I i → R s t → R (C.step s i).1 (A.step t i).1 ∧ (C.step s i).2 = (A.step t i).2)
    {s : σ} {t : τ} (hR : R s t) {is : List ι} (his : ∀ i ∈ is, I i) :
    R (C.run s is).1 (A.run t is).1 ∧ (C.run s is).2 = (A.run t is).2 := by
  induction is generalizing s t with
  | nil => exact ⟨hR, rfl⟩
  | cons i is ih =>
    rw [List.forall_mem_cons] at his
    obtain ⟨hnext, hanswer⟩ := h s t i his.1 hR
    obtain ⟨hlast, hanswers⟩ := ih hnext his.2
    rw [C.run_cons, A.run_cons]
    exact ⟨hlast, by rw [hanswer, hanswers]⟩

theorem Refines.run {C : Machine σ ι ρ} {A : Machine τ ι ρ} {R : σ → τ → Prop}
    (h : Refines C A R) {s : σ} {t : τ} (hR : R s t) (is : List ι) :
    R (C.run s is).1 (A.run t is).1 ∧ (C.run s is).2 = (A.run t is).2 :=
  Machine.run_simulation (I := fun _ ↦ True) (fun s t i _ ↦ h.step s t i) hR (fun _ _ ↦ trivial)

/-- The machine that reads each input as an input of `M`. -/
def Machine.comap (M : Machine σ κ ρ) (f : ι → κ) : Machine σ ι ρ where
  step s i := M.step s (f i)

theorem Machine.comap_run (M : Machine σ κ ρ) (f : ι → κ) (s : σ) (is : List ι) :
    (M.comap f).run s is = M.run s (is.map f) := by
  induction is generalizing s with
  | nil => rfl
  | cons i is ih =>
    rw [List.map_cons, M.run_cons, (M.comap f).run_cons, ih]
    rfl

/-- What holds of every answer of a step holds of every answer of a run. -/
theorem Machine.forall_answers (M : Machine σ ι ρ) {P : ρ → Prop}
    (h : ∀ s i, P (M.step s i).2) (s : σ) (is : List ι) : ∀ a ∈ (M.run s is).2, P a := by
  induction is generalizing s with
  | nil => intro a ha; cases ha
  | cons i is ih =>
    rw [M.run_cons, List.forall_mem_cons]
    exact ⟨h s i, ih _⟩

/-- An invariant that every step keeps, and under which every answer satisfies `P`. -/
theorem Machine.run_invariant (M : Machine σ ι ρ) {I : σ → Prop} {P : ρ → Prop}
    (h : ∀ s i, I s → I (M.step s i).1 ∧ P (M.step s i).2) {s : σ} (hs : I s) (is : List ι) :
    I (M.run s is).1 ∧ ∀ a ∈ (M.run s is).2, P a := by
  induction is generalizing s with
  | nil => exact ⟨hs, fun a ha ↦ nomatch ha⟩
  | cons i is ih =>
    obtain ⟨hnext, hanswer⟩ := h s i hs
    obtain ⟨hlast, hanswers⟩ := ih hnext
    rw [M.run_cons, List.forall_mem_cons]
    exact ⟨hlast, hanswer, hanswers⟩

theorem Machine.run_append (M : Machine σ ι ρ) (s : σ) (is js : List ι) :
    (M.run s (is ++ js)).2 = (M.run s is).2 ++ (M.run (M.run s is).1 js).2 := by
  induction is generalizing s with
  | nil => rfl
  | cons i is ih => rw [List.cons_append, M.run_cons, M.run_cons, ih, List.cons_append]

end SocketIoRust.Library.Refinement
