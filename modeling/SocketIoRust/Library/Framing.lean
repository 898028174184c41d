import SocketIoRust.Library.Nom

namespace SocketIoRust.Library.Framing

open Nom
open Outcome (ok err Agrees)

variable {τ α φ ε : Type}

/-- A payload format: what a frame looks like and which items it may stand for. -/
structure Grammar (τ α φ : Type) where
  render : φ → List τ
  Denotes : φ → α → Prop

variable (G : Grammar τ α φ)

def Grammar.renderAll (fs : List φ) : List τ := fs.flatMap G.render

theorem Grammar.renderAll_cons (f : φ) (fs : List φ) :
    G.renderAll (f :: fs) = G.render f ++ G.renderAll fs := List.flatMap_cons

/-- The input is a concatenation of frames, one for each item. -/
def Grammar.Splits (as : List α) (input : List τ) : Prop :=
  ∃ fs, input = G.renderAll fs ∧ List.Forall₂ G.Denotes fs as

/-- The decoder returns items only for a whole sequence of frames, and answers every
other input with an error. -/
def Exact (decode : List τ → Outcome ε (List α)) (input : List τ) : Prop :=
  (∀ as, decode input = ok as → G.Splits as input) ∧
    ((∀ as, ¬ G.Splits as input) → ∃ e, decode input = err e)

/-- Collects the items that `parse` reads and ignores what follows them. -/
def decodeAll (e : ε) (parse : Parser τ α) (input : List τ) : Outcome ε (List α) :=
  match foldMany0 parse (fun acc item ↦ acc ++ [item]) [] input with
  | ok (_, as) => ok as
  | err _ => err e
  | .panic => .panic

theorem decodeAll_cases (e : ε) {parse : Parser τ α} (hp : Consuming parse) (input : List τ) :
    ∃ as rest, Reads (Yields parse) input as rest ∧
      ((∃ j k, parse rest = err (.error j k) ∧ decodeAll e parse input = ok as) ∨
       (∃ j k, parse rest = err (.failure j k) ∧ decodeAll e parse input = err e) ∨
       (parse rest = .panic ∧ decodeAll e parse input = .panic)) := by
  obtain ⟨as, rest, hr, h⟩ := foldMany0_cases hp (fun acc item ↦ acc ++ [item]) [] input
  refine ⟨as, rest, hr, ?_⟩
  unfold decodeAll
  rcases h with ⟨j, k, hj, h⟩ | ⟨j, k, hj, h⟩ | ⟨hj, h⟩
  · exact .inl ⟨j, k, hj, by rw [h, foldl_push, List.nil_append]⟩
  · exact .inr (.inl ⟨j, k, hj, by rw [h]⟩)
  · exact .inr (.inr ⟨hj, by rw [h]⟩)

theorem reads_of_decodeAll {e : ε} {parse : Parser τ α} (hp : Consuming parse) {input : List τ}
    {as : List α} (h : decodeAll e parse input = ok as) :
    ∃ rest, Reads (Yields parse) input as rest ∧ ∃ j k, parse rest = err (.error j k) := by
  obtain ⟨as', rest, hr, hc⟩ := decodeAll_cases e hp input
  rcases hc with ⟨j, k, hj, hc⟩ | ⟨_, _, _, hc⟩ | ⟨_, hc⟩ <;> rw [h] at hc <;> cases hc
  exact ⟨rest, hr, j, k, hj⟩

/-- Items read off the front of an input stand in front of whatever the rest decodes to. -/
theorem decodeAll_of_reads (e : ε) {parse : Parser τ α} (hp : Consuming parse)
    {input rest : List τ} {as : List α} (h : Reads (Yields parse) input as rest) :
    decodeAll e parse input = (decodeAll e parse rest).map (as ++ ·) := by
  simp only [decodeAll]
  rw [foldMany0_of_reads hp h, foldMany0_push hp, foldl_push, List.nil_append]
  cases foldMany0 parse (fun acc item ↦ acc ++ [item]) [] rest <;> rfl

theorem decodeAll_of_error (e : ε) {parse : Parser τ α} {input j : List τ} {k : ErrorKind}
    (h : parse input = err (.error j k)) : decodeAll e parse input = ok [] := by
  rw [decodeAll, foldMany0, h]

theorem decodeAll_of_failure (e : ε) {parse : Parser τ α} {input j : List τ} {k : ErrorKind}
    (h : parse input = err (.failure j k)) : decodeAll e parse input = err e := by
  rw [decodeAll, foldMany0, h]

theorem decodeAll_of_panic (e : ε) {parse : Parser τ α} {input : List τ}
    (h : parse input = .panic) : decodeAll e parse input = .panic := by
  rw [decodeAll, foldMany0, h]

theorem decodeAll_agrees {e : ε} {parse parse' : Parser τ α}
    (h : ∀ input, Agrees (parse input) (parse' input)) (input : List τ) :
    Agrees (decodeAll e parse input) (decodeAll e parse' input) := by
  simp only [decodeAll]
  rcases foldMany0_agrees h (fun acc item ↦ acc ++ [item]) [] input with hp | he
  · rw [hp]
    exact .inl rfl
  · rw [he]
    exact .refl _

theorem decodeAll_panic_iff {e : ε} {parse : Parser τ α} (hp : Consuming parse)
    {A : List τ → α → List τ → Prop} {F P : List τ → Prop} (hs : Spec parse A F P)
    (input : List τ) :
    decodeAll e parse input = .panic ↔ ∃ as rest, Reads A input as rest ∧ P rest := by
  rw [← hs.yields_eq]
  constructor
  · intro h
    obtain ⟨as, rest, hr, hc⟩ := decodeAll_cases e hp input
    rcases hc with ⟨_, _, _, hc⟩ | ⟨_, _, _, hc⟩ | ⟨hpanic, _⟩
    · rw [h] at hc
      cases hc
    · rw [h] at hc
      cases hc
    · exact ⟨as, rest, hr, hs.panic_iff.mp hpanic⟩
  · intro h
    obtain ⟨as, rest, hr, hpanic⟩ := h
    rw [decodeAll_of_reads e hp hr, decodeAll_of_panic e (hs.panics hpanic), Outcome.map_panic]

variable {G}
variable {parse : Parser τ α} {CleanAt : φ → List τ → Prop}

/-- `CleanAt f rest` is exactly when `parse` reads the frame `f` for what it is, with
`rest` after it. -/
structure Framed (G : Grammar τ α φ) (parse : Parser τ α) (CleanAt : φ → List τ → Prop) :
    Prop where
  consuming : Consuming parse
  stop : ∃ j k, parse [] = err (.error j k)
  read : ∀ f rest, CleanAt f rest → ∃ a, G.Denotes f a ∧ parse (G.render f ++ rest) = ok (rest, a)
  clean : ∀ f fs rest a, G.Denotes f a → parse (G.render f ++ G.renderAll fs) = ok (rest, a) →
    CleanAt f (G.renderAll fs) ∧ rest = G.renderAll fs

variable (G CleanAt) in
def CleanAll : List φ → Prop
  | [] => True
  | f :: fs => CleanAt f (G.renderAll fs) ∧ CleanAll fs

theorem reads_of_clean (h : Framed G parse CleanAt) {fs : List φ} (hc : CleanAll G CleanAt fs) :
    ∃ as, List.Forall₂ G.Denotes fs as ∧ Reads (Yields parse) (G.renderAll fs) as [] := by
  induction fs with
  | nil => exact ⟨[], .nil, .nil []⟩
  | cons f fs ih =>
    obtain ⟨as, hd, hr⟩ := ih hc.2
    obtain ⟨a, ha, hp⟩ := h.read f _ hc.1
    rw [← G.renderAll_cons] at hp
    exact ⟨a :: as, .cons ha hd, .cons hp hr⟩

theorem clean_of_reads (h : Framed G parse CleanAt) {fs : List φ} {as : List α} {rest : List τ}
    (hd : List.Forall₂ G.Denotes fs as) (hr : Reads (Yields parse) (G.renderAll fs) as rest) :
    CleanAll G CleanAt fs := by
  induction hd generalizing rest with
  | nil => trivial
  | @cons f a fs as hfa hd ih =>
    cases hr with
    | cons hp hr =>
      rw [G.renderAll_cons] at hp
      obtain ⟨hc, rfl⟩ := h.clean f fs _ a hfa hp
      exact ⟨hc, ih hr⟩

theorem decodeAll_of_clean (e : ε) (h : Framed G parse CleanAt) {fs : List φ}
    (hc : CleanAll G CleanAt fs) :
    ∃ as, List.Forall₂ G.Denotes fs as ∧ decodeAll e parse (G.renderAll fs) = ok as := by
  obtain ⟨as, hd, hr⟩ := reads_of_clean h hc
  obtain ⟨j, k, hs⟩ := h.stop
  refine ⟨as, hd, ?_⟩
  rw [decodeAll_of_reads e h.consuming hr, decodeAll_of_error e hs, Outcome.map_ok,
    List.append_nil]

theorem clean_of_decodeAll (e : ε) (h : Framed G parse CleanAt) {fs : List φ} {as : List α}
    (hd : List.Forall₂ G.Denotes fs as) (hok : decodeAll e parse (G.renderAll fs) = ok as) :
    CleanAll G CleanAt fs := by
  obtain ⟨rest, hr, -⟩ := reads_of_decodeAll h.consuming hok
  exact clean_of_reads h hd hr

/-- The decoder is exact on an input in three cases only: it is made of frames that are
read for what they are, or some items are read and then a failure, or it is made of
frames and some items are read and then a panic. -/
theorem exact_iff (e : ε) (h : Framed G parse CleanAt) {A : List τ → α → List τ → Prop}
    {F P : List τ → Prop} (hs : Spec parse A F P) (input : List τ) :
    Exact G (decodeAll e parse) input ↔
      (∃ fs, input = G.renderAll fs ∧ CleanAll G CleanAt fs) ∨
      (∃ as rest, Reads A input as rest ∧ F rest) ∨
      ((∃ as rest, Reads A input as rest ∧ P rest) ∧ ∃ as, G.Splits as input) := by
  rw [← hs.yields_eq]
  constructor
  · intro hx
    obtain ⟨hok, herr⟩ := hx
    obtain ⟨as, rest, hr, hc⟩ := decodeAll_cases e h.consuming input
    rcases hc with ⟨_, _, _, hc⟩ | ⟨j, k, hj, hc⟩ | ⟨hj, hc⟩
    · obtain ⟨fs, rfl, hd⟩ := hok as hc
      exact .inl ⟨fs, rfl, clean_of_decodeAll e h hd hc⟩
    · exact .inr (.inl ⟨as, rest, hr, hs.failure_iff.mp ⟨j, k, hj⟩⟩)
    · refine .inr (.inr ⟨⟨as, rest, hr, hs.panic_iff.mp hj⟩, ?_⟩)
      by_contra hn
      obtain ⟨e', he⟩ := herr (fun as' ha ↦ hn ⟨as', ha⟩)
      rw [hc] at he
      cases he
  · intro hx
    rcases hx with ⟨fs, rfl, hcl⟩ | ⟨as, rest, hr, hf⟩ | ⟨⟨as, rest, hr, hp⟩, hsplits⟩
    · obtain ⟨as, hd, hok⟩ := decodeAll_of_clean e h hcl
      refine ⟨fun as' h' ↦ ?_, fun hn ↦ absurd ⟨fs, rfl, hd⟩ (hn as)⟩
      rw [hok] at h'
      cases h'
      exact ⟨fs, rfl, hd⟩
    · obtain ⟨j, k, hj⟩ := hs.fails hf
      have hfail : decodeAll e parse input = err e := by
        rw [decodeAll_of_reads e h.consuming hr, decodeAll_of_failure e hj, Outcome.map_err]
      exact ⟨fun _ ha ↦ by simp [hfail] at ha, fun _ ↦ ⟨e, hfail⟩⟩
    · have hpanic : decodeAll e parse input = .panic := by
        rw [decodeAll_of_reads e h.consuming hr, decodeAll_of_panic e (hs.panics hp),
          Outcome.map_panic]
      obtain ⟨as', hsplits⟩ := hsplits
      exact ⟨fun _ ha ↦ by simp [hpanic] at ha, fun hn ↦ absurd hsplits (hn as')⟩

end SocketIoRust.Library.Framing
