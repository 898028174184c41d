import SocketIoRust.Library.Nom

namespace SocketIoRust.Library.Decimal

open Nom
open Outcome (ok err)

/-- The number that a run of ASCII digits denotes; leading zeros are allowed. -/
def value (ds : List Char) : ℕ := Nat.ofDigitChars 10 ds 0

/-- `to_string` of an unsigned integer. -/
def print (n : ℕ) : List Char := Nat.toDigits 10 n

/-- `str::parse` of a digit run into an unsigned integer type with `size` values. -/
def parseBelow (size : ℕ) (ds : List Char) : Option ℕ :=
  if value ds < size then some (value ds) else none

/-- A digit run as a number of an unsigned integer type; a failure if it does not fit. -/
def number (size : ℕ) (input : List Char) : Outcome (Err (List Char)) (List Char × ℕ) := do
  let (input, num) ← digit1 input
  match parseBelow size num with
  | some num => ok (input, num)
  | none => err (.failure input .digit)

theorem number_of_not_starts {size : ℕ} {input : List Char}
    (h : starts Char.isDigit input = false) : number size input = err (.error input .digit) := by
  rw [number, digit1, takeWhile1_of_not_starts h, Outcome.err_bind]

theorem number_run {size : ℕ} {ds rest : List Char} (hr : MaximalRun Char.isDigit ds rest)
    (hv : value ds < size) : number size (ds ++ rest) = ok (rest, value ds) := by
  rw [number, digit1, hr.takeWhile1_eq, Outcome.ok_bind]
  simp only [parseBelow, hv, if_true]

theorem number_overflow {size : ℕ} {ds rest : List Char} (hr : MaximalRun Char.isDigit ds rest)
    (hv : size ≤ value ds) : number size (ds ++ rest) = err (.failure rest .digit) := by
  rw [number, digit1, hr.takeWhile1_eq, Outcome.ok_bind]
  simp only [parseBelow, Nat.not_lt.mpr hv, if_false]

theorem number_ne_panic (size : ℕ) (input : List Char) : number size input ≠ .panic := by
  rw [number]
  apply Outcome.bind_ne_panic (takeWhile1_ne_panic _ _ _)
  intro x _
  dsimp only
  split <;> simp

@[simp] theorem value_print (n : ℕ) : value (print n) = n := Nat.ofDigitChars_ten_toDigits

theorem print_ne_nil (n : ℕ) : print n ≠ [] := Nat.toDigits_ne_nil

theorem isDigit_of_mem_print {n : ℕ} {c : Char} (h : c ∈ print n) : c.isDigit = true :=
  Nat.isDigit_of_mem_toDigits (by decide) (by decide) h

theorem print_of_lt_ten {n : ℕ} (h : n < 10) : print n = [n.digitChar] :=
  Nat.toDigits_of_lt_base h

theorem print_injective : Function.Injective print := fun n m h ↦ by
  rw [← value_print n, h, value_print]

theorem print_run (n : ℕ) {rest : List Char} (h : starts Char.isDigit rest = false) :
    MaximalRun Char.isDigit (print n) rest :=
  ⟨print_ne_nil n, fun _ hc ↦ isDigit_of_mem_print hc, h⟩

theorem value_append (ds es : List Char) :
    value (ds ++ es) = value ds * 10 ^ es.length + value es := by
  simp only [value]
  rw [Nat.ofDigitChars_append, Nat.ofDigitChars_eq_ofDigitChars_zero, Nat.mul_comm]

theorem value_digitChar {n : ℕ} (h : n < 10) : value [n.digitChar] = n := by
  rw [← print_of_lt_ten h, value_print]

theorem value_digitChar_cons {n : ℕ} (h : n < 10) (ds : List Char) :
    value (n.digitChar :: ds) = n * 10 ^ ds.length + value ds := by
  rw [← List.singleton_append, value_append, value_digitChar h]

theorem value_cons (c : Char) (ds : List Char) :
    value (c :: ds) = (c.toNat - 48) * 10 ^ ds.length + value ds := by
  rw [← List.singleton_append, value_append]
  simp [value, Nat.ofDigitChars]

theorem value_eq_zero_iff {ds : List Char} (hd : ∀ c ∈ ds, c.isDigit = true) :
    value ds = 0 ↔ ∀ c ∈ ds, c = '0' := by
  induction ds with
  | nil => simp [value]
  | cons c ds ih =>
    have hc : c.toNat - 48 = 0 ↔ c = '0' := by
      have hdc := hd c List.mem_cons_self
      simp only [Char.isDigit, Bool.and_eq_true, decide_eq_true_eq] at hdc
      have h48 : 48 ≤ c.toNat := hdc.1
      rw [← Char.toNat_inj]
      change c.toNat - 48 = 0 ↔ c.toNat = 48
      omega
    have hpow : 10 ^ ds.length ≠ 0 := Nat.ne_of_gt (Nat.pow_pos (by decide))
    rw [value_cons, Nat.add_eq_zero_iff, Nat.mul_eq_zero, or_iff_left hpow, hc,
      ih (fun x hx ↦ hd x (List.mem_cons_of_mem _ hx)), List.forall_mem_cons]

theorem isDigit_digitChar {n : ℕ} (h : n < 10) : n.digitChar.isDigit = true :=
  isDigit_of_mem_print (n := n) (by simp [print_of_lt_ten h])

end SocketIoRust.Library.Decimal
