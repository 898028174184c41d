import SocketIoRust.Library.Threads

namespace SocketIoRust.Library.Threads

variable {σ τ γ δ : Type} {next : Program σ τ} {Starts Starts' : τ → Prop}
  {Allowed Allowed' : σ → τ → Prop}

theorem Step.mono {p q : Pool σ τ} (hstart : ∀ t, Starts t → Starts' t)
    (hallowed : ∀ s t, Allowed s t → Allowed' s t) (h : Step next Starts Allowed p q) :
    Step next Starts' Allowed' p q := by
  cases h with
  | start ht => exact .start (hstart _ ht)
  | run ha hn => exact .run (hallowed _ _ ha) hn

theorem Steps.mono {p q : Pool σ τ} (hstart : ∀ t, Starts t → Starts' t)
    (hallowed : ∀ s t, Allowed s t → Allowed' s t) (h : Steps next Starts Allowed p q) :
    Steps next Starts' Allowed' p q :=
  h.lift id (fun _ _ ↦ Step.mono hstart hallowed)

/-- A program that also keeps notes, on the shared state and on each thread; no step
depends on them. -/
def annotate (next : Program σ τ) (note : σ × γ → τ × δ → γ × δ) : Program (σ × γ) (τ × δ) :=
  fun s t ↦
    match next s.1 t.1 with
    | some (s', t') => some ((s', (note s t).1), (t', (note s t).2))
    | none => none

variable {note : σ × γ → τ × δ → γ × δ}

theorem annotate_eq_some {s s' : σ × γ} {t t' : τ × δ} :
    annotate next note s t = some (s', t') ↔
      next s.1 t.1 = some (s'.1, t'.1) ∧ s'.2 = (note s t).1 ∧ t'.2 = (note s t).2 := by
  obtain ⟨a, g⟩ := s'
  obtain ⟨b, d⟩ := t'
  rw [annotate]
  cases hn : next s.1 t.1 with
  | none => simp
  | some x =>
    simp only [Option.some.injEq, Prod.mk.injEq]
    constructor
    · rintro ⟨⟨rfl, rfl⟩, rfl, rfl⟩
      exact ⟨rfl, rfl, rfl⟩
    · rintro ⟨rfl, rfl, rfl⟩
      exact ⟨⟨rfl, rfl⟩, rfl, rfl⟩

def Noted (Starts : τ → Prop) (d : δ) (t : τ × δ) : Prop := Starts t.1 ∧ t.2 = d

def Pool.erase (p : Pool (σ × γ) (τ × δ)) : Pool σ τ := ⟨p.shared.1, p.threads.map Prod.fst⟩

/-- A run that keeps notes is a run. -/
theorem Steps.erase {d : δ} {Allowed : σ × γ → τ × δ → Prop} {p q : Pool (σ × γ) (τ × δ)}
    (h : Steps (annotate next note) (Noted Starts d) Allowed p q) :
    Steps next Starts Free p.erase q.erase := by
  induction h with
  | refl => exact .refl
  | tail _ hs ih =>
    refine ih.tail ?_
    cases hs with
    | start ht =>
      simp only [Pool.erase, List.map_append, List.map_cons, List.map_nil]
      exact .start ht.1
    | run ha hn =>
      simp only [Pool.erase, List.map_append, List.map_cons]
      exact .run trivial (annotate_eq_some.mp hn).1

/-- Every run can be one that keeps notes. -/
theorem Steps.exists_annotated {p q : Pool σ τ} (h : Steps next Starts Free p q) (d : δ)
    {p' : Pool (σ × γ) (τ × δ)} (hp : p'.erase = p) :
    ∃ q', q'.erase = q ∧ Steps (annotate next note) (Noted Starts d) Free p' q' := by
  induction h with
  | refl => exact ⟨p', hp, .refl⟩
  | @tail b c _ hs ih =>
    obtain ⟨⟨⟨s₀, g⟩, ts₀⟩, he, hsteps⟩ := ih
    cases hs with
    | @start s ts t ht =>
      obtain ⟨rfl, hts⟩ := Pool.mk.inj he
      refine ⟨⟨(s₀, g), ts₀ ++ [(t, d)]⟩, ?_, hsteps.tail (.start ⟨ht, rfl⟩)⟩
      simp only [Pool.erase, List.map_append, hts, List.map_cons, List.map_nil]
    | @run s s' before after t t' _ hn =>
      obtain ⟨rfl, hts⟩ := Pool.mk.inj he
      obtain ⟨before', rest, rfl, hbefore, hrest⟩ := List.map_eq_append_iff.mp hts
      obtain ⟨⟨t₀, e⟩, after', rfl, ht, hafter⟩ := List.map_eq_cons_iff.mp hrest
      subst ht
      refine ⟨⟨(s', (note (s₀, g) (t₀, e)).1),
        before' ++ (t', (note (s₀, g) (t₀, e)).2) :: after'⟩, ?_, hsteps.tail (.run trivial ?_)⟩
      · simp only [Pool.erase, List.map_append, List.map_cons, hbefore, hafter]
      · exact annotate_eq_some.mpr ⟨hn, rfl, rfl⟩

end SocketIoRust.Library.Threads
