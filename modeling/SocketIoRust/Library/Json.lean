import SocketIoRust.Library.IndexMap
import Mathlib.Algebra.Group.Nat.Defs
import Mathlib.Algebra.Group.Int.Defs
import Mathlib.Data.Int.Notation

namespace SocketIoRust.Library.Json

abbrev Str := List Char

/-- A finite double, by its one decimal notation without trailing zeros in the mantissa. -/
structure Double where
  mantissa : ℤ
  exponent : ℤ
  canonical : 10 ∣ mantissa → mantissa = 0 ∧ exponent = 0
deriving DecidableEq, Repr

/-- The canonical notation of a number given by any decimal notation. -/
def Double.ofDecimal (mantissa exponent : ℤ) : Double :=
  if mantissa = 0 then ⟨0, 0, fun _ ↦ ⟨rfl, rfl⟩⟩
  else if h : 10 ∣ mantissa then ofDecimal (mantissa / 10) (exponent + 1)
  else ⟨mantissa, exponent, fun hdvd ↦ absurd hdvd h⟩
termination_by mantissa.natAbs
decreasing_by omega

theorem Double.ofDecimal_self (x : Double) : ofDecimal x.mantissa x.exponent = x := by
  obtain ⟨mantissa, exponent, canonical⟩ := x
  rw [ofDecimal]
  split
  · rename_i hzero
    subst hzero
    obtain ⟨-, hexponent⟩ := canonical (Int.dvd_zero 10)
    subst hexponent
    rfl
  split
  · rename_i hzero hdvd
    exact absurd (canonical hdvd).1 hzero
  · rfl

/-- A number as JSON libraries tell numbers apart: `negInt n` is `-(n + 1)`. -/
inductive Number where
  | posInt : UInt64 → Number
  | negInt : Fin (2 ^ 63) → Number
  | float : Double → Number
deriving DecidableEq, Repr

def Number.asU64 : Number → Option UInt64
  | posInt n => some n
  | _ => none

inductive Value where
  | null : Value
  | bool : Bool → Value
  | number : Number → Value
  | string : Str → Value
  | array : List Value → Value
  | object : List (Str × Value) → Value

/-- The induction principle with the elements and the entries as members of their list. -/
@[elab_as_elim]
theorem Value.induct {motive : Value → Prop} (null : motive .null)
    (bool : ∀ b, motive (.bool b)) (number : ∀ n, motive (.number n))
    (string : ∀ s, motive (.string s))
    (array : ∀ vs, (∀ v ∈ vs, motive v) → motive (.array vs))
    (object : ∀ es, (∀ e ∈ es, motive e.2) → motive (.object es)) : ∀ v, motive v :=
  @Value.rec motive (fun vs ↦ ∀ v ∈ vs, motive v) (fun es ↦ ∀ e ∈ es, motive e.2)
    (fun e ↦ motive e.2) null bool number string array object
    (fun _ h ↦ nomatch h)
    (fun _ _ hv hvs ↦ List.forall_mem_cons.mpr ⟨hv, hvs⟩)
    (fun _ h ↦ nomatch h)
    (fun _ _ he hes ↦ List.forall_mem_cons.mpr ⟨he, hes⟩)
    (fun _ _ hv ↦ hv)

/-- In every object the keys are distinct. -/
inductive Value.WellFormed : Value → Prop
  | null : WellFormed .null
  | bool (b : Bool) : WellFormed (.bool b)
  | number (n : Number) : WellFormed (.number n)
  | string (s : Str) : WellFormed (.string s)
  | array {vs : List Value} : (∀ v ∈ vs, WellFormed v) → WellFormed (.array vs)
  | object {es : List (Str × Value)} : (es.map Prod.fst).Nodup → (∀ e ∈ es, WellFormed e.2) →
      WellFormed (.object es)

/-- A JSON library, as the two functions its users call. -/
structure Codec where
  toString : Value → Str
  fromStr : Str → Option Value

/-- What users rely on: what is printed parses back, the first character of a text tells
arrays, strings and objects apart, and the empty text is no JSON. -/
structure Codec.Lawful (J : Codec) : Prop where
  fromStr_toString : ∀ v, v.WellFormed → J.fromStr (J.toString v) = some v
  array_text : ∀ vs, ∃ s, J.toString (.array vs) = '[' :: s
  string_text : ∀ t, ∃ s, J.toString (.string t) = '"' :: s
  object_text : ∀ es, ∃ s, J.toString (.object es) = '{' :: s
  fromStr_nil : J.fromStr [] = none

end SocketIoRust.Library.Json
