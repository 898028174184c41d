import Mathlib.Algebra.Group.Nat.Defs
import Mathlib.Tactic.Common

namespace SocketIoRust.Library

/-- How a call ends: with a value, with an error value, or by a panic that
unwinds past every caller. -/
inductive Outcome (ε α : Type) where
  | ok : α → Outcome ε α
  | err : ε → Outcome ε α
  | panic : Outcome ε α
deriving DecidableEq, Repr

variable {ε ε' α β : Type}

namespace Outcome

def bind : Outcome ε α → (α → Outcome ε β) → Outcome ε β
  | ok a, f => f a
  | err e, _ => err e
  | panic, _ => panic

def map (f : α → β) : Outcome ε α → Outcome ε β
  | ok a => ok (f a)
  | err e => err e
  | panic => panic

def mapErr (f : ε → ε') : Outcome ε α → Outcome ε' α
  | ok a => ok a
  | err e => err (f e)
  | panic => panic

instance : Monad (Outcome ε) where
  pure := ok
  bind := bind

@[simp] theorem ok_bind (a : α) (f : α → Outcome ε β) : (ok a >>= f) = f a := rfl
@[simp] theorem err_bind (e : ε) (f : α → Outcome ε β) : (err e >>= f) = err e := rfl
@[simp] theorem panic_bind (f : α → Outcome ε β) : (panic >>= f) = panic := rfl
@[simp] theorem map_ok (f : α → β) (a : α) : (ok a : Outcome ε α).map f = ok (f a) := rfl
@[simp] theorem map_err (f : α → β) (e : ε) : (err e : Outcome ε α).map f = err e := rfl
@[simp] theorem map_panic (f : α → β) : (panic : Outcome ε α).map f = panic := rfl

theorem bind_eq_ok {x : Outcome ε α} {f : α → Outcome ε β} {b : β} :
    (x >>= f) = ok b ↔ ∃ a, x = ok a ∧ f a = ok b := by
  cases x <;> simp

theorem bind_ne_panic {x : Outcome ε α} {f : α → Outcome ε β} (hx : x ≠ panic)
    (hf : ∀ a, x = ok a → f a ≠ panic) : (x >>= f) ≠ panic := by
  cases x with
  | ok a => exact hf a rfl
  | err e =>
    intro h
    cases h
  | panic => exact absurd rfl hx

theorem bind_ne_err {x : Outcome ε α} {f : α → Outcome ε β} {e : ε} (hx : x ≠ err e)
    (hf : ∀ a, f a ≠ err e) : (x >>= f) ≠ err e := by
  cases x with
  | ok a => exact hf a
  | err e' =>
    intro h
    cases h
    exact hx rfl
  | panic =>
    intro h
    cases h

theorem map_ne_panic {x : Outcome ε α} (h : x ≠ panic) (f : α → β) : x.map f ≠ panic := by
  cases x with
  | panic => exact absurd rfl h
  | ok a => simp
  | err e => simp

theorem mapErr_ne_panic {x : Outcome ε α} (h : x ≠ panic) (f : ε → ε') : x.mapErr f ≠ panic := by
  cases x with
  | panic => exact absurd rfl h
  | ok a => simp [mapErr]
  | err e => simp [mapErr]

/-- How two builds may answer one call: alike, unless the first one panics. -/
def Agrees (x y : Outcome ε α) : Prop := x = panic ∨ y = x

theorem Agrees.refl (x : Outcome ε α) : Agrees x x := .inr rfl

theorem Agrees.bind {x y : Outcome ε α} {f g : α → Outcome ε β} (h : Agrees x y)
    (hf : ∀ a, Agrees (f a) (g a)) : Agrees (x >>= f) (y >>= g) := by
  rcases h with rfl | rfl
  · exact .inl rfl
  · cases y with
    | ok a => exact hf a
    | err e => exact .refl _
    | panic => exact .refl _

end Outcome

open Outcome (ok err)

/-- What a fixed-width operation does when its result does not fit: a build with
overflow checks panics, one without keeps the low bits. -/
inductive Overflow where
  | checked
  | wrapping
deriving DecidableEq, Repr

/-- `2 ^ 32`. -/
abbrev u32Size : ℕ := 4294967296

/-- `2 ^ 64`. -/
abbrev usizeSize : ℕ := 18446744073709551616

/-- The value `x` of an addition, product or power, stored in `size` values. -/
def fit (o : Overflow) (size x : ℕ) : Outcome ε ℕ :=
  if x < size then ok x else
  match o with
  | .checked => .panic
  | .wrapping => ok (x % size)

def subtract (o : Overflow) (size a b : ℕ) : Outcome ε ℕ :=
  if b ≤ a then ok (a - b) else
  match o with
  | .checked => .panic
  | .wrapping => ok (size + a - b)

theorem fit_of_lt {o : Overflow} {size x : ℕ} (h : x < size) :
    (fit o size x : Outcome ε ℕ) = ok x := by simp [fit, h]

theorem fit_wrapping (size x : ℕ) : (fit .wrapping size x : Outcome ε ℕ) = ok (x % size) := by
  unfold fit
  split
  · rw [Nat.mod_eq_of_lt ‹_›]
  · rfl

theorem fit_checked_of_le {size x : ℕ} (h : size ≤ x) :
    (fit .checked size x : Outcome ε ℕ) = .panic := by simp [fit, Nat.not_lt.mpr h]

theorem fit_cases (o : Overflow) (size x : ℕ) :
    (∃ n, (fit o size x : Outcome ε ℕ) = ok n) ∨
      (o = .checked ∧ (fit o size x : Outcome ε ℕ) = .panic) := by
  cases o with
  | wrapping => exact .inl ⟨_, fit_wrapping size x⟩
  | checked =>
    by_cases hx : x < size
    · exact .inl ⟨x, fit_of_lt hx⟩
    · exact .inr ⟨rfl, fit_checked_of_le (Nat.not_lt.mp hx)⟩

theorem fit_ne_err (o : Overflow) (size x : ℕ) (e : ε) :
    (fit o size x : Outcome ε ℕ) ≠ err e := by
  obtain ⟨n, h⟩ | ⟨-, h⟩ := fit_cases (ε := ε) o size x <;> simp [h]

theorem fit_checked_bind_panic {size x : ℕ} {f : ℕ → Outcome ε α} (hf : ∀ y < size, f y = .panic) :
    (fit .checked size x >>= f) = .panic := by
  by_cases hx : x < size
  · rw [fit_of_lt hx, Outcome.ok_bind, hf x hx]
  · rw [fit_checked_of_le (Nat.not_lt.mp hx), Outcome.panic_bind]

theorem subtract_of_le {o : Overflow} {size a b : ℕ} (h : b ≤ a) :
    (subtract o size a b : Outcome ε ℕ) = ok (a - b) := by simp [subtract, h]

theorem subtract_cases (o : Overflow) (size a b : ℕ) :
    (∃ n, (subtract o size a b : Outcome ε ℕ) = ok n) ∨
      (o = .checked ∧ a < b ∧ (subtract o size a b : Outcome ε ℕ) = .panic) := by
  by_cases h : b ≤ a
  · exact .inl ⟨a - b, subtract_of_le h⟩
  · cases o with
    | wrapping => exact .inl ⟨size + a - b, by simp [subtract, h]⟩
    | checked => exact .inr ⟨rfl, by omega, by simp [subtract, h]⟩

theorem subtract_ne_err (o : Overflow) (size a b : ℕ) (e : ε) :
    (subtract o size a b : Outcome ε ℕ) ≠ err e := by
  obtain ⟨n, h⟩ | ⟨-, -, h⟩ := subtract_cases (ε := ε) o size a b <;> simp [h]

theorem fit_agrees (size x : ℕ) :
    Outcome.Agrees (fit .checked size x : Outcome ε ℕ) (fit .wrapping size x) := by
  by_cases hx : x < size
  · rw [fit_of_lt hx, fit_of_lt hx]
    exact .refl _
  · exact .inl (fit_checked_of_le (Nat.not_lt.mp hx))

theorem subtract_agrees (size a b : ℕ) :
    Outcome.Agrees (subtract .checked size a b : Outcome ε ℕ) (subtract .wrapping size a b) := by
  by_cases h : b ≤ a
  · rw [subtract_of_le h, subtract_of_le h]
    exact .refl _
  · exact .inl (by simp [subtract, h])

theorem subtract_checked_eq_ok {size a b n : ℕ}
    (h : (subtract .checked size a b : Outcome ε ℕ) = ok n) : b ≤ a ∧ n = a - b := by
  unfold subtract at h
  split at h
  · rename_i hb
    cases h
    exact ⟨hb, rfl⟩
  · cases h

end SocketIoRust.Library
