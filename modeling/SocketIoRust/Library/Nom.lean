import SocketIoRust.Library.Outcome
import Mathlib.Algebra.GroupWithZero.Nat
import Mathlib.Data.List.TakeWhile

namespace SocketIoRust.Library.Nom

open Outcome (ok err)

variable {τ α β ρ : Type}

inductive ErrorKind where
  | digit | char | eof | many0 | takeTill1 | takeWhile1 | alphaNumeric | satisfy
deriving DecidableEq, Repr

/-- A recoverable `error` lets the caller try something else, a `failure` does not. -/
inductive Err (ι : Type) where
  | error : ι → ErrorKind → Err ι
  | failure : ι → ErrorKind → Err ι
deriving DecidableEq, Repr

/-- A parser's answer: the unread input and the value it read. -/
abbrev IResult (ι α : Type) := Outcome (Err ι) (ι × α)

abbrev Parser (τ α : Type) := List τ → IResult (List τ) α

def take (n : ℕ) (input : List τ) : IResult (List τ) (List τ) :=
  if n ≤ input.length then ok (input.drop n, input.take n) else err (.error input .eof)

def takeWhile1 (p : τ → Bool) (kind : ErrorKind) (input : List τ) : IResult (List τ) (List τ) :=
  match input.takeWhile p with
  | [] => err (.error input kind)
  | a :: run => ok (input.dropWhile p, a :: run)

def takeTill1 (stop : τ → Bool) : Parser τ (List τ) := takeWhile1 (fun a ↦ !stop a) .takeTill1

def digit1 : Parser Char (List Char) := takeWhile1 Char.isDigit .digit

def isDecDigit (b : UInt8) : Bool := 48 ≤ b && b ≤ 57

def digit1Bytes : Parser UInt8 (List UInt8) := takeWhile1 isDecDigit .digit

def char (c : Char) : Parser Char Char
  | [] => err (.error [] .char)
  | d :: input => if d = c then ok (input, c) else err (.error (d :: input) .char)

def leU8 : Parser UInt8 UInt8
  | [] => err (.error [] .eof)
  | b :: input => ok (input, b)

def alt (f g : Parser τ α) : Parser τ α := fun input ↦
  match f input with
  | err (.error _ _) => g input
  | result => result

/-- Applies `f` until it fails recoverably and folds what it read. The rest that a
parser returns is a suffix of its input, so `rest = input` is `rest` not being shorter. -/
def foldMany0 (f : Parser τ α) (g : ρ → α → ρ) (init : ρ) (input : List τ) :
    IResult (List τ) ρ :=
  match f input with
  | ok (rest, a) =>
    if rest.length < input.length then foldMany0 f g (g init a) rest
    else err (.error input .many0)
  | err (.error _ _) => ok (input, init)
  | err (.failure j k) => err (.failure j k)
  | .panic => .panic
termination_by input.length

def starts (p : τ → Bool) : List τ → Bool
  | [] => false
  | a :: _ => p a

@[simp] theorem starts_nil (p : τ → Bool) : starts p [] = false := rfl
@[simp] theorem starts_cons (p : τ → Bool) (a : τ) (l : List τ) : starts p (a :: l) = p a := rfl

theorem starts_append_left {p : τ → Bool} {l : List τ} (hl : l ≠ []) (r : List τ) :
    starts p (l ++ r) = starts p l := by
  cases l with
  | nil => exact absurd rfl hl
  | cons a l => rfl

/-- `run` is a nonempty run of tokens satisfying `p`, and `rest` does not continue it. -/
structure MaximalRun (p : τ → Bool) (run rest : List τ) : Prop where
  ne_nil : run ≠ []
  all : ∀ a ∈ run, p a = true
  stop : starts p rest = false

theorem takeWhile_append_stop {p : τ → Bool} {run rest : List τ}
    (hrun : ∀ a ∈ run, p a = true) (hstop : starts p rest = false) :
    (run ++ rest).takeWhile p = run ∧ (run ++ rest).dropWhile p = rest := by
  rw [List.takeWhile_append_of_pos hrun, List.dropWhile_append_of_pos hrun]
  cases rest with
  | nil => simp
  | cons a rest =>
    have ha : p a = false := hstop
    simp [ha]

theorem starts_dropWhile (p : τ → Bool) (l : List τ) : starts p (l.dropWhile p) = false := by
  induction l with
  | nil => rfl
  | cons a l ih =>
    by_cases ha : p a = true
    · rwa [List.dropWhile_cons_of_pos ha]
    · rw [List.dropWhile_cons_of_neg ha]
      simpa using ha

theorem MaximalRun.takeWhile1_eq {p : τ → Bool} {run rest : List τ}
    (h : MaximalRun p run rest) (kind : ErrorKind) :
    takeWhile1 p kind (run ++ rest) = ok (rest, run) := by
  obtain ⟨ht, hd⟩ := takeWhile_append_stop h.all h.stop
  rw [takeWhile1, ht, hd]
  cases hr : run with
  | nil => exact absurd hr h.ne_nil
  | cons a run => rfl

theorem takeWhile1_of_not_starts {p : τ → Bool} {input : List τ} (h : starts p input = false)
    (kind : ErrorKind) : takeWhile1 p kind input = err (.error input kind) := by
  cases input with
  | nil => rfl
  | cons a input =>
    have ha : ¬ p a = true := by simpa using h
    simp [takeWhile1, List.takeWhile_cons_of_neg ha]

/-- Every input either does not start with a `p`-token or splits at its maximal run. -/
theorem starts_or_run (p : τ → Bool) (input : List τ) :
    starts p input = false ∨ ∃ run rest, input = run ++ rest ∧ MaximalRun p run rest := by
  cases h : starts p input with
  | false => exact .inl rfl
  | true =>
    refine .inr ⟨input.takeWhile p, input.dropWhile p, by simp, ?_, ?_, starts_dropWhile p input⟩
    · cases input with
      | nil => simp at h
      | cons a input =>
        have ha : p a = true := h
        simp [List.takeWhile_cons_of_pos ha]
    · intro a ha
      exact List.mem_takeWhile_imp ha

/-- An input splits at its maximal run in one way only. -/
theorem MaximalRun.unique {p : τ → Bool} {run rest run' rest' : List τ}
    (h : MaximalRun p run rest) (h' : MaximalRun p run' rest') (he : run ++ rest = run' ++ rest') :
    run = run' ∧ rest = rest' := by
  have hr := h.takeWhile1_eq .eof
  rw [he, h'.takeWhile1_eq] at hr
  cases hr
  exact ⟨rfl, rfl⟩

theorem take_append (d r : List τ) : take d.length (d ++ r) = ok (r, d) := by
  simp [take]

theorem takeWhile1_ne_panic (p : τ → Bool) (kind : ErrorKind) (input : List τ) :
    takeWhile1 p kind input ≠ .panic := by
  simp only [takeWhile1]
  split <;> simp

theorem take_ne_panic (n : ℕ) (input : List τ) : take n input ≠ .panic := by
  rw [take]
  split <;> simp

theorem char_ne_panic (c : Char) (input : List Char) : char c input ≠ .panic := by
  cases input with
  | nil => simp [char]
  | cons d input =>
    rw [char]
    split <;> simp

theorem alt_of_error {f g : Parser τ α} {input j : List τ} {k : ErrorKind}
    (h : f input = err (.error j k)) : alt f g input = g input := by
  simp [alt, h]

/-- `f` reads `a` off the front of the input and leaves `rest`. -/
def Yields (f : Parser τ α) (input : List τ) (a : α) (rest : List τ) : Prop :=
  f input = ok (rest, a)

/-- `Reads R input as rest`: the items `as` come off the front of the input one after
another, each as `R` says, and `rest` is left. -/
inductive Reads (R : List τ → α → List τ → Prop) : List τ → List α → List τ → Prop
  | nil (input : List τ) : Reads R input [] input
  | cons {input mid rest : List τ} {a : α} {as : List α} :
      R input a mid → Reads R mid as rest → Reads R input (a :: as) rest

/-- A parser that never succeeds without reading at least one token. -/
def Consuming (f : Parser τ α) : Prop :=
  ∀ input rest a, f input = ok (rest, a) → rest.length < input.length

/-- What `f` does on every input, said without running it: it reads what `A` accepts,
fails for good on `F`, panics on `P`, and rejects everything else recoverably. -/
structure Spec (f : Parser τ α) (A : List τ → α → List τ → Prop) (F P : List τ → Prop) :
    Prop where
  accepts : ∀ {input a rest}, A input a rest → f input = ok (rest, a)
  fails : ∀ {input}, F input → ∃ j k, f input = err (.failure j k)
  panics : ∀ {input}, P input → f input = .panic
  cases : ∀ input, (∃ a rest, A input a rest) ∨ F input ∨ P input ∨
    ∃ j k, f input = err (.error j k)

namespace Spec

variable {f : Parser τ α} {A : List τ → α → List τ → Prop} {F P : List τ → Prop}
  {input rest : List τ} {a : α}

/-- The four ways in which a call can end. -/
theorem outcome (h : Spec f A F P) (input : List τ) :
    (∃ a rest, A input a rest ∧ f input = ok (rest, a)) ∨
      (F input ∧ ∃ j k, f input = err (.failure j k)) ∨
      (P input ∧ f input = .panic) ∨ ∃ j k, f input = err (.error j k) := by
  rcases h.cases input with ⟨a, rest, ha⟩ | hf | hp | he
  · exact .inl ⟨a, rest, ha, h.accepts ha⟩
  · exact .inr (.inl ⟨hf, h.fails hf⟩)
  · exact .inr (.inr (.inl ⟨hp, h.panics hp⟩))
  · exact .inr (.inr (.inr he))

theorem yields_iff (h : Spec f A F P) : Yields f input a rest ↔ A input a rest := by
  refine ⟨?_, h.accepts⟩
  intro hy
  rw [Yields] at hy
  rcases h.outcome input with ⟨a', rest', ha, he⟩ | ⟨-, j, k, he⟩ | ⟨-, he⟩ | ⟨j, k, he⟩ <;>
    rw [he] at hy <;> cases hy
  exact ha

theorem failure_iff (h : Spec f A F P) : (∃ j k, f input = err (.failure j k)) ↔ F input := by
  refine ⟨?_, h.fails⟩
  intro ⟨j, k, hy⟩
  rcases h.outcome input with ⟨a', rest', -, he⟩ | ⟨hf, -⟩ | ⟨-, he⟩ | ⟨j', k', he⟩
  · rw [he] at hy
    cases hy
  · exact hf
  · rw [he] at hy
    cases hy
  · rw [he] at hy
    cases hy

theorem panic_iff (h : Spec f A F P) : f input = .panic ↔ P input := by
  refine ⟨?_, h.panics⟩
  intro hy
  rcases h.outcome input with ⟨a', rest', -, he⟩ | ⟨-, j, k, he⟩ | ⟨hp, -⟩ | ⟨j, k, he⟩
  · rw [he] at hy
    cases hy
  · rw [he] at hy
    cases hy
  · exact hp
  · rw [he] at hy
    cases hy

theorem yields_eq (h : Spec f A F P) : Yields f = A := by
  funext input a rest
  exact propext h.yields_iff

end Spec

theorem Reads.forall {R : List τ → α → List τ → Prop} {P : α → Prop}
    (hR : ∀ i a j, R i a j → P a) {i j : List τ} {as : List α} (h : Reads R i as j) :
    ∀ a ∈ as, P a := by
  induction h with
  | nil => simp
  | cons ha _ ih =>
    intro a hmem
    rcases List.mem_cons.mp hmem with rfl | hmem
    · exact hR _ _ _ ha
    · exact ih a hmem

/-- Items that each take at least their cost off the input cost no more than the input. -/
theorem Reads.cost_le {R : List τ → α → List τ → Prop} (cost : α → ℕ)
    (hR : ∀ i a j, R i a j → cost a + j.length ≤ i.length) {i j : List τ} {as : List α}
    (h : Reads R i as j) : (as.map cost).sum + j.length ≤ i.length := by
  induction h with
  | nil => simp
  | cons ha _ ih =>
    have hle := hR _ _ _ ha
    rw [List.map_cons, List.sum_cons]
    omega

/-- `Slices ds input`: the lists `ds` are disjoint parts of the input, in its order. -/
inductive Slices : List (List τ) → List τ → Prop
  | nil (input : List τ) : Slices [] input
  | cons (gap d : List τ) {ds : List (List τ)} {rest : List τ} :
      Slices ds rest → Slices (d :: ds) (gap ++ (d ++ rest))

theorem Reads.slices {R : List τ → α → List τ → Prop} (data : α → List τ)
    (hR : ∀ i a j, R i a j → ∃ gap, i = gap ++ (data a ++ j)) {i j : List τ} {as : List α}
    (h : Reads R i as j) : Slices (as.map data) i := by
  induction h with
  | nil input => exact .nil input
  | cons ha _ ih =>
    obtain ⟨gap, rfl⟩ := hR _ _ _ ha
    exact .cons gap _ ih

section Fold

variable {f : Parser τ α} (hf : Consuming f)
include hf

theorem exists_reads (input : List τ) :
    ∃ as rest, Reads (Yields f) input as rest ∧ ∀ x, f rest ≠ ok x := by
  induction hn : input.length using Nat.strong_induction_on generalizing input with
  | _ n ih =>
    subst hn
    cases h : f input with
    | ok x =>
      obtain ⟨as, rest, hr, hstop⟩ := ih _ (hf _ _ _ h) x.1 rfl
      exact ⟨x.2 :: as, rest, .cons h hr, hstop⟩
    | err e => exact ⟨[], input, .nil input, by simp [h]⟩
    | panic => exact ⟨[], input, .nil input, by simp [h]⟩

theorem foldMany0_of_ok {g : ρ → α → ρ} {init : ρ} {input rest : List τ} {a : α}
    (h : f input = ok (rest, a)) :
    foldMany0 f g init input = foldMany0 f g (g init a) rest := by
  rw [foldMany0, h]
  simp [hf _ _ _ h]

theorem foldMany0_of_reads {g : ρ → α → ρ} {init : ρ} {input rest : List τ} {as : List α}
    (h : Reads (Yields f) input as rest) :
    foldMany0 f g init input = foldMany0 f g (as.foldl g init) rest := by
  induction h generalizing init with
  | nil => rfl
  | cons ha _ ih => rw [foldMany0_of_ok hf ha, ih, List.foldl_cons]

/-- The fold ends in one of three ways, according to how `f` rejects the rest. -/
theorem foldMany0_cases (g : ρ → α → ρ) (init : ρ) (input : List τ) :
    ∃ as rest, Reads (Yields f) input as rest ∧
      ((∃ j k, f rest = err (.error j k) ∧ foldMany0 f g init input = ok (rest, as.foldl g init)) ∨
       (∃ j k, f rest = err (.failure j k) ∧ foldMany0 f g init input = err (.failure j k)) ∨
       (f rest = .panic ∧ foldMany0 f g init input = .panic)) := by
  obtain ⟨as, rest, hr, hstop⟩ := exists_reads hf input
  refine ⟨as, rest, hr, ?_⟩
  rw [foldMany0_of_reads hf hr, foldMany0]
  cases h : f rest with
  | ok x => exact absurd h (hstop x)
  | panic => exact .inr (.inr ⟨rfl, rfl⟩)
  | err e =>
    cases e with
    | error j k => exact .inl ⟨j, k, rfl, rfl⟩
    | failure j k => exact .inr (.inl ⟨j, k, rfl, rfl⟩)

end Fold

section Agrees

variable {f f' g g' : Parser τ α} (hf : ∀ input, Outcome.Agrees (f input) (f' input))
include hf

theorem alt_agrees (hg : ∀ input, Outcome.Agrees (g input) (g' input)) (input : List τ) :
    Outcome.Agrees (alt f g input) (alt f' g' input) := by
  simp only [alt]
  rcases hf input with h | h
  · rw [h]
    exact .inl rfl
  · rw [h]
    split
    · exact hg input
    · exact .refl _

theorem foldMany0_agrees (h : ρ → α → ρ) (init : ρ) (input : List τ) :
    Outcome.Agrees (foldMany0 f h init input) (foldMany0 f' h init input) := by
  induction hn : input.length using Nat.strong_induction_on generalizing init input with
  | _ n ih =>
    subst hn
    rw [foldMany0, foldMany0]
    rcases hf input with he | he
    · rw [he]
      exact .inl rfl
    rw [he]
    cases f input with
    | panic => exact .refl _
    | err e => cases e <;> exact .refl _
    | ok x =>
      dsimp only
      split
      · rename_i hlt
        exact ih _ hlt _ _ rfl
      · exact .refl _

end Agrees

theorem foldl_push (as init : List α) :
    as.foldl (fun acc item ↦ acc ++ [item]) init = init ++ as := by
  induction as generalizing init with
  | nil => simp
  | cons a as ih => simp [ih]

/-- Collecting into a list that already holds `init` only puts `init` in front. -/
theorem foldMany0_push {f : Parser τ α} (hf : Consuming f) (init : List α) (input : List τ) :
    foldMany0 f (fun acc item ↦ acc ++ [item]) init input =
      (foldMany0 f (fun acc item ↦ acc ++ [item]) [] input).map (fun x ↦ (x.1, init ++ x.2)) := by
  obtain ⟨as, rest, hr, hstop⟩ := exists_reads hf input
  rw [foldMany0_of_reads hf hr, foldMany0_of_reads hf hr, foldl_push, foldl_push, foldMany0,
    foldMany0]
  cases h : f rest with
  | ok x => exact absurd h (hstop x)
  | panic => rfl
  | err e => cases e <;> simp

end SocketIoRust.Library.Nom
