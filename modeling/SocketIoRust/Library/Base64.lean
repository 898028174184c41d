import SocketIoRust.Library.Outcome
import Mathlib.Data.List.Basic

namespace SocketIoRust.Library.Base64

/-- A base64 codec, as the two functions its users call. -/
structure Codec where
  encode : List UInt8 → List Char
  decode : List Char → Option (List UInt8)

def alphabet : List Char :=
  ['A', 'B', 'C', 'D', 'E', 'F', 'G', 'H', 'I', 'J', 'K', 'L', 'M', 'N', 'O', 'P', 'Q', 'R', 'S',
    'T', 'U', 'V', 'W', 'X', 'Y', 'Z', 'a', 'b', 'c', 'd', 'e', 'f', 'g', 'h', 'i', 'j', 'k', 'l',
    'm', 'n', 'o', 'p', 'q', 'r', 's', 't', 'u', 'v', 'w', 'x', 'y', 'z', '0', '1', '2', '3', '4',
    '5', '6', '7', '8', '9', '+', '/']

/-- What users rely on: decoding undoes encoding, a text is accepted only when it is
the encoding of its bytes up to missing padding, and texts use the base64 alphabet. -/
structure Codec.Lawful (B : Codec) : Prop where
  decode_encode : ∀ d, B.decode (B.encode d) = some d
  canonical : ∀ x d, B.decode x = some d → x <+: B.encode d
  alphabet : ∀ d, ∀ c ∈ B.encode d, c ∈ alphabet ∨ c = '='

/-- Four characters stand for three bytes at most. -/
def Codec.Compact (B : Codec) : Prop :=
  ∀ x d, B.decode x = some d → 4 * d.length ≤ 3 * x.length

theorem Codec.Compact.length_le {B : Codec} (h : B.Compact) {x : List Char} {d : List UInt8}
    (hx : B.decode x = some d) : d.length ≤ x.length := by
  have hle := h x d hx
  omega

/-- No more than the padding is missing from a text that is accepted. -/
structure Codec.Pads (B : Codec) : Prop where
  encode_nil : B.encode [] = []
  length_le : ∀ x d, B.decode x = some d → (B.encode d).length ≤ x.length + 2

theorem Codec.Lawful.encode_injective {B : Codec} (hB : B.Lawful) :
    Function.Injective B.encode := fun d e h ↦ by
  have hd := hB.decode_encode d
  rw [h, hB.decode_encode] at hd
  exact (Option.some.inj hd).symm

def symbol (n : ℕ) : Char := alphabet.getD n '='

def sextet (c : Char) : ℕ := alphabet.idxOf c

theorem sextet_symbol {n : ℕ} (h : n < 64) : sextet (symbol n) = n := by
  revert h; revert n; decide

theorem symbol_mem {n : ℕ} (h : n < 64) : symbol n ∈ alphabet := by
  revert h; revert n; decide

theorem pad_not_mem : '=' ∉ alphabet := by decide

/-- The symbols of some bytes, before padding. -/
def symbols : List UInt8 → List Char
  | [] => []
  | [a] => [symbol (a.toNat / 4), symbol (a.toNat % 4 * 16)]
  | [a, b] => [symbol (a.toNat / 4), symbol (a.toNat % 4 * 16 + b.toNat / 16),
      symbol (b.toNat % 16 * 4)]
  | a :: b :: c :: d => symbol (a.toNat / 4) :: symbol (a.toNat % 4 * 16 + b.toNat / 16) ::
      symbol (b.toNat % 16 * 4 + c.toNat / 64) :: symbol (c.toNat % 64) :: symbols d

def bytes : List Char → List UInt8
  | w :: x :: y :: z :: s =>
    UInt8.ofNat (sextet w * 4 + sextet x / 16) ::
      UInt8.ofNat (sextet x % 16 * 16 + sextet y / 4) ::
      UInt8.ofNat (sextet y % 4 * 64 + sextet z) :: bytes s
  | [w, x, y] =>
    [UInt8.ofNat (sextet w * 4 + sextet x / 16), UInt8.ofNat (sextet x % 16 * 16 + sextet y / 4)]
  | [w, x] => [UInt8.ofNat (sextet w * 4 + sextet x / 16)]
  | _ => []

def padding (n : ℕ) : List Char := List.replicate ((3 - n % 3) % 3) '='

/-- The standard alphabet with padding, which a decoded text may leave out. -/
def standard : Codec where
  encode d := symbols d ++ padding d.length
  decode x :=
    let d := bytes (x.filter (· ≠ '='))
    if symbols d <+: x ∧ x <+: symbols d ++ padding d.length then some d else none

theorem symbols_mem (d : List UInt8) : ∀ c ∈ symbols d, c ∈ alphabet := by
  induction d using symbols.induct with
  | case1 => simp [symbols]
  | case2 a =>
    have ha := a.toNat_lt
    simp only [symbols, List.forall_mem_cons]
    exact ⟨symbol_mem (by omega), symbol_mem (by omega), by simp⟩
  | case3 a b =>
    have ha := a.toNat_lt
    have hb := b.toNat_lt
    simp only [symbols, List.forall_mem_cons]
    exact ⟨symbol_mem (by omega), symbol_mem (by omega), symbol_mem (by omega), by simp⟩
  | case4 a b c d ih =>
    have ha := a.toNat_lt
    have hb := b.toNat_lt
    have hc := c.toNat_lt
    simp only [symbols, List.forall_mem_cons]
    exact ⟨symbol_mem (by omega), symbol_mem (by omega), symbol_mem (by omega),
      symbol_mem (by omega), ih⟩

theorem ofNat_eq {n : ℕ} {a : UInt8} (h : n = a.toNat) : UInt8.ofNat n = a := by
  rw [h, UInt8.ofNat_toNat]

theorem bytes_symbols (d : List UInt8) : bytes (symbols d) = d := by
  induction d using symbols.induct with
  | case1 => rfl
  | case2 a =>
    have ha := a.toNat_lt
    simp only [symbols, bytes]
    rw [sextet_symbol (by omega), sextet_symbol (by omega), ofNat_eq (a := a) (by omega)]
  | case3 a b =>
    have ha := a.toNat_lt
    have hb := b.toNat_lt
    simp only [symbols, bytes]
    rw [sextet_symbol (by omega), sextet_symbol (by omega), sextet_symbol (by omega),
      ofNat_eq (a := a) (by omega), ofNat_eq (a := b) (by omega)]
  | case4 a b c d ih =>
    have ha := a.toNat_lt
    have hb := b.toNat_lt
    have hc := c.toNat_lt
    simp only [symbols, bytes]
    rw [sextet_symbol (by omega), sextet_symbol (by omega), sextet_symbol (by omega),
      sextet_symbol (by omega), ofNat_eq (a := a) (by omega), ofNat_eq (a := b) (by omega),
      ofNat_eq (a := c) (by omega), ih]

theorem filter_encode (d : List UInt8) :
    (symbols d ++ padding d.length).filter (· ≠ '=') = symbols d := by
  have hs : (symbols d).filter (· ≠ '=') = symbols d := by
    rw [List.filter_eq_self]
    intro c hc
    have hne : c ≠ '=' := fun he ↦ pad_not_mem (he ▸ symbols_mem d c hc)
    simpa using hne
  have hp : (padding d.length).filter (· ≠ '=') = [] := by simp [padding]
  rw [List.filter_append, hs, hp, List.append_nil]

theorem standard_lawful : standard.Lawful where
  decode_encode d := by
    simp only [standard, filter_encode, bytes_symbols, List.prefix_append, List.prefix_rfl,
      and_self, if_true]
  canonical x d h := by
    simp only [standard] at h ⊢
    split at h
    · rename_i hx
      cases h
      exact hx.2
    · cases h
  alphabet d c hc := by
    rcases List.mem_append.mp hc with hc | hc
    · exact .inl (symbols_mem d c hc)
    · exact .inr (List.eq_of_mem_replicate hc)

theorem length_le_symbols (d : List UInt8) : 4 * d.length ≤ 3 * (symbols d).length := by
  induction d using symbols.induct with
  | case1 => simp [symbols]
  | case2 a => simp [symbols]
  | case3 a b => simp [symbols]
  | case4 a b c d ih =>
    simp only [symbols, List.length_cons]
    omega

theorem standard_compact : standard.Compact := by
  intro x d h
  simp only [standard] at h
  split at h
  · rename_i hx
    cases h
    have hle := hx.1.length_le
    have hsymbols := length_le_symbols (bytes (x.filter (· ≠ '=')))
    omega
  · cases h

theorem standard_pads : standard.Pads where
  encode_nil := rfl
  length_le x d h := by
    simp only [standard] at h ⊢
    split at h
    · rename_i hx
      cases h
      have hle := hx.1.length_le
      have hpad : (padding (bytes (x.filter (· ≠ '='))).length).length ≤ 2 := by
        rw [padding, List.length_replicate]
        omega
      rw [List.length_append]
      omega
    · cases h

example : standard.encode [1, 2, 3, 4] = ['A', 'Q', 'I', 'D', 'B', 'A', '=', '='] := by decide
example : standard.decode ['A', 'Q', 'I', 'D', 'B', 'A'] = some [1, 2, 3, 4] := by decide

end SocketIoRust.Library.Base64
