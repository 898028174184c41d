import SocketIoRust.Library.Refinement
import Mathlib.Data.List.ReduceOption

namespace SocketIoRust.Library.Refinement

variable {σ τ ι κ ρ : Type}

/-- The answers to the inputs that satisfy `p`. -/
def answersTo (p : ι → Bool) : List ι → List ρ → List ρ
  | i :: is, a :: as => if p i then a :: answersTo p is as else answersTo p is as
  | _, _ => []

/-- One of the parties that share `C` sees the machine `A`: its own inputs are steps of
`A`, and what the others do keeps the relation as it is. -/
structure Session (C : Machine σ ι ρ) (A : Machine τ κ ρ) (R : σ → τ → Prop) (I : ι → Prop)
    (own : ι → Bool) (view : ι → κ) : Prop where
  step_own : ∀ s t i, I i → own i = true → R s t →
    R (C.step s i).1 (A.step t (view i)).1 ∧ (C.step s i).2 = (A.step t (view i)).2
  step_other : ∀ s t i, I i → own i = false → R s t → R (C.step s i).1 t

/-- However the inputs of the parties are mixed, a party gets the answers that it would get
alone. -/
theorem Session.run {C : Machine σ ι ρ} {A : Machine τ κ ρ} {R : σ → τ → Prop} {I : ι → Prop}
    {own : ι → Bool} {view : ι → κ} (h : Session C A R I own view) {s : σ} {t : τ} (hR : R s t)
    {is : List ι} (his : ∀ i ∈ is, I i) :
    R (C.run s is).1 (A.run t ((is.filter own).map view)).1 ∧
      answersTo own is (C.run s is).2 = (A.run t ((is.filter own).map view)).2 := by
  induction is generalizing s t with
  | nil => exact ⟨hR, rfl⟩
  | cons i is ih =>
    rw [List.forall_mem_cons] at his
    rw [C.run_cons, answersTo]
    cases hown : own i with
    | true =>
      obtain ⟨hnext, hanswer⟩ := h.step_own s t i his.1 hown hR
      obtain ⟨hlast, hanswers⟩ := ih hnext his.2
      rw [List.filter_cons_of_pos hown, List.map_cons, A.run_cons, if_pos rfl, hanswers, hanswer]
      exact ⟨hlast, rfl⟩
    | false =>
      have hnot : ¬ own i = true := by simp [hown]
      rw [List.filter_cons_of_neg hnot, if_neg Bool.false_ne_true]
      exact ih (h.step_other s t i his.1 hown hR) his.2

/-- Inputs that change nothing and are not answered can be left out of a run. -/
theorem Machine.run_filter {C : Machine σ ι (Option ρ)} {I : σ → Prop} {p : ι → Bool}
    (hI : ∀ s i, I s → I (C.step s i).1)
    (hskip : ∀ s i, I s → p i = false → C.step s i = (s, none)) {s : σ} (hs : I s) (is : List ι) :
    (C.run s is).1 = (C.run s (is.filter p)).1 ∧
      (C.run s is).2.reduceOption = (C.run s (is.filter p)).2.reduceOption := by
  induction is generalizing s with
  | nil => exact ⟨rfl, rfl⟩
  | cons i is ih =>
    obtain ⟨hlast, hanswers⟩ := ih (hI s i hs)
    cases hp : p i with
    | true =>
      rw [List.filter_cons_of_pos hp, C.run_cons, C.run_cons]
      refine ⟨hlast, ?_⟩
      dsimp only
      cases (C.step s i).2 with
      | none => exact hanswers
      | some a =>
        rw [List.reduceOption_cons_of_some, List.reduceOption_cons_of_some, hanswers]
    | false =>
      have hnot : ¬ p i = true := by simp [hp]
      rw [List.filter_cons_of_neg hnot, C.run_cons]
      rw [hskip s i hs hp] at hlast hanswers ⊢
      exact ⟨hlast, hanswers⟩

end SocketIoRust.Library.Refinement
