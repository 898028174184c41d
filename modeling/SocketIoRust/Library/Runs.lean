import Mathlib.Data.List.Basic
import Mathlib.Data.List.Induction

namespace SocketIoRust.Library.Runs

variable {σ ι : Type}

theorem foldl_invariant {step : σ → ι → σ} {I : σ → Prop} (h : ∀ s i, I s → I (step s i)) {s : σ}
    (hs : I s) (inputs : List ι) : I (inputs.foldl step s) := by
  induction inputs generalizing s with
  | nil => exact hs
  | cons i inputs ih => exact ih (h s i hs)

/-- Some input of the run sets the mark, and none that comes later clears it. -/
def Remains (step : σ → ι → σ) (Sets : σ → ι → Prop) (Clears : ι → Prop) (s : σ)
    (inputs : List ι) : Prop :=
  ∃ before i after, inputs = before ++ i :: after ∧ Sets (before.foldl step s) i ∧
    ∀ j ∈ after, ¬ Clears j

variable {step : σ → ι → σ} {Sets : σ → ι → Prop} {Clears : ι → Prop}

theorem not_remains_nil (s : σ) : ¬ Remains step Sets Clears s [] := by
  rintro ⟨before, i, after, h, -⟩
  exact List.append_ne_nil_of_right_ne_nil before (List.cons_ne_nil i after) h.symm

/-- The last input decides, unless it lets the mark be. -/
theorem remains_append_singleton (s : σ) (inputs : List ι) (i : ι) :
    Remains step Sets Clears s (inputs ++ [i]) ↔
      Sets (inputs.foldl step s) i ∨ (¬ Clears i ∧ Remains step Sets Clears s inputs) := by
  constructor
  · rintro ⟨before, j, after, h, hsets, hlater⟩
    rcases List.eq_nil_or_concat' after with rfl | ⟨after, k, rfl⟩
    · obtain ⟨rfl, heq⟩ := List.append_inj' h rfl
      cases heq
      exact .inl hsets
    · have h' : inputs ++ [i] = (before ++ j :: after) ++ [k] := by simpa using h
      obtain ⟨rfl, heq⟩ := List.append_inj' h' rfl
      cases heq
      rw [List.forall_mem_append] at hlater
      exact .inr ⟨hlater.2 i (List.mem_singleton_self i), before, j, after, rfl, hsets, hlater.1⟩
  · rintro (hsets | ⟨hclears, before, j, after, rfl, hsets, hlater⟩)
    · exact ⟨inputs, i, [], rfl, hsets, fun _ h ↦ nomatch h⟩
    · refine ⟨before, j, after ++ [i], by simp, hsets, ?_⟩
      rw [List.forall_mem_append]
      exact ⟨hlater, by simpa using hclears⟩

theorem not_remains_iff (s : σ) (inputs : List ι) : ¬ Remains step Sets Clears s inputs ↔
    ∀ before i after, inputs = before ++ i :: after → Sets (before.foldl step s) i →
      ∃ j ∈ after, Clears j := by
  simp only [Remains, not_exists, not_and, not_forall, not_not, exists_prop]

/-- The mark is what the inputs say of it, as long as an invariant holds. -/
structure Marks (step : σ → ι → σ) (Sets : σ → ι → Prop) (Clears : ι → Prop)
    (I Marked : σ → Prop) : Prop where
  invariant : ∀ s i, I s → I (step s i)
  sets : ∀ s i, I s → Sets s i → Marked (step s i)
  clears : ∀ s i, I s → Clears i → ¬ Marked (step s i)
  keeps : ∀ s i, I s → ¬ Sets s i → ¬ Clears i → (Marked (step s i) ↔ Marked s)

variable {I Marked : σ → Prop}

theorem Marks.foldl_iff (h : Marks step Sets Clears I Marked) {s : σ} (hs : I s)
    (hm : ¬ Marked s) (inputs : List ι) :
    Marked (inputs.foldl step s) ↔ Remains step Sets Clears s inputs := by
  induction inputs using List.reverseRecOn with
  | nil => exact iff_of_false hm (not_remains_nil s)
  | append_singleton inputs i ih =>
    have hbefore := foldl_invariant h.invariant hs inputs
    rw [List.foldl_concat, remains_append_singleton]
    by_cases hclears : Clears i
    · have hnot := h.clears _ i hbefore hclears
      refine iff_of_false hnot ?_
      rintro (hsets | ⟨hno, -⟩)
      · exact hnot (h.sets _ i hbefore hsets)
      · exact hno hclears
    · by_cases hsets : Sets (inputs.foldl step s) i
      · exact iff_of_true (h.sets _ i hbefore hsets) (.inl hsets)
      · rw [h.keeps _ i hbefore hsets hclears, ih]
        simp [hsets, hclears]

variable {β κ : Type}

/-- What the steps of a run note down, in order. -/
def noted (step : σ → ι → σ) (note : σ → ι → List β) : σ → List ι → List β
  | _, [] => []
  | s, i :: inputs => note s i ++ noted step note (step s i) inputs

variable {note : σ → ι → List β}

theorem noted_concat (s : σ) (inputs : List ι) (i : ι) :
    noted step note s (inputs ++ [i]) =
      noted step note s inputs ++ note (inputs.foldl step s) i := by
  induction inputs generalizing s with
  | nil => exact List.append_nil _
  | cons j inputs ih =>
    rw [List.cons_append, noted, noted, ih, List.append_assoc]
    rfl

/-- The notes that bear the key. -/
def notesOf [DecidableEq κ] (key : κ) (log : List (κ × β)) : List β :=
  (log.filter fun entry ↦ entry.1 = key).map Prod.snd

variable [DecidableEq κ]

theorem notesOf_append (key : κ) (log log' : List (κ × β)) :
    notesOf key (log ++ log') = notesOf key log ++ notesOf key log' := by
  rw [notesOf, List.filter_append, List.map_append]
  rfl

theorem notesOf_map (key key' : κ) (notes : List β) :
    notesOf key (notes.map fun note ↦ (key', note)) = if key' = key then notes else [] := by
  split
  · rename_i h
    simp [notesOf, List.filter_map, Function.comp_def, h]
  · rename_i h
    simp [notesOf, List.filter_map, Function.comp_def, h]

end SocketIoRust.Library.Runs
