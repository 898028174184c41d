import Mathlib.Tactic.Common

namespace SocketIoRust.Library.RwLock

/-- The guards of one lock that a thread holds. -/
structure Guards where
  readers : ℕ
  writer : Bool
deriving DecidableEq, Repr

def Guards.free : Guards := ⟨0, false⟩

/-- What a thread does with a value `σ` behind a lock, from the guards that it holds on.
Nothing comes of it if it requests the lock while one of its own guards is in the way. -/
def Task (σ α : Type) : Type := Guards → σ → Option (α × σ)

variable {σ α β : Type}

namespace Task

instance : Monad (Task σ) where
  pure a := fun _ s ↦ some (a, s)
  bind x f := fun g s ↦
    match x g s with
    | some (a, s) => f a g s
    | none => none

def get : Task σ σ := fun _ s ↦ some (s, s)

def modify (f : σ → σ) : Task σ Unit := fun _ s ↦ some ((), f s)

/-- What is done while a read guard lives. -/
def withRead (body : Task σ α) : Task σ α := fun g s ↦
  if g.writer then none else body { g with readers := g.readers + 1 } s

/-- What is done while a write guard lives. -/
def withWrite (body : Task σ α) : Task σ α := fun g s ↦
  if g.writer ∨ 0 < g.readers then none else body { g with writer := true } s

/-- The thread waits for itself. -/
def Deadlocks (x : Task σ α) (s : σ) : Prop := x .free s = none

/-- The thread ends with `a`, and leaves `s'` behind the lock. -/
def Ends (x : Task σ α) (g : Guards) (s : σ) (a : α) (s' : σ) : Prop := x g s = some (a, s')

variable {x : Task σ α} {f : α → Task σ β} {g : Guards} {s s' s'' : σ} {a : α} {b : β}

theorem Ends.pure (a : α) (g : Guards) (s : σ) : Ends (Pure.pure a) g s a s := rfl

theorem Ends.bind_eq (hx : Ends x g s a s') (f : α → Task σ β) : (x >>= f) g s = f a g s' := by
  change (match x g s with | some (a, s) => f a g s | none => none) = f a g s'
  rw [hx]

theorem Ends.bind (hx : Ends x g s a s') (hf : Ends (f a) g s' b s'') :
    Ends (x >>= f) g s b s'' :=
  (hx.bind_eq f).trans hf

theorem Ends.get (g : Guards) (s : σ) : Ends Task.get g s s s := rfl

theorem Ends.modify (h : σ → σ) (g : Guards) (s : σ) : Ends (Task.modify h) g s () (h s) := rfl

theorem Ends.withRead (hg : g.writer = false)
    (h : Ends x { g with readers := g.readers + 1 } s a s') : Ends (Task.withRead x) g s a s' :=
  (if_neg (by simp [hg])).trans h

theorem Ends.withWrite (hx : Ends x ⟨0, true⟩ s a s') : Ends (Task.withWrite x) .free s a s' := hx

theorem bind_none (hx : x g s = none) : (x >>= f) g s = none := by
  change (match x g s with | some (a, s) => f a g s | none => none) = none
  rw [hx]

theorem withWrite_none (h : g.writer = true ∨ 0 < g.readers) (x : Task σ α) (s : σ) :
    withWrite x g s = none := if_pos h

theorem not_deadlocks_of_ends (h : Ends x .free s a s') : ¬ Deadlocks x s := by
  rw [Deadlocks, h]
  simp

end Task

end SocketIoRust.Library.RwLock
