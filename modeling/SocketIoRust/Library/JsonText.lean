import SocketIoRust.Library.Decimal
import SocketIoRust.Library.Json

namespace SocketIoRust.Library.Json

open Nom

def hexDigit (n : ℕ) : Char := n.digitChar

def hexValue (c : Char) : Option ℕ :=
  let n := "0123456789abcdef".toList.idxOf c
  if n < 16 then some n else none

/-- The letter that stands for a character behind a backslash. -/
def shortEscape (c : Char) : Option Char :=
  if c = '"' then some '"'
  else if c = '\\' then some '\\'
  else if c = '\n' then some 'n'
  else if c = '\r' then some 'r'
  else if c = '\t' then some 't'
  else none

def shortUnescape (e : Char) : Option Char :=
  if e = '"' then some '"'
  else if e = '\\' then some '\\'
  else if e = 'n' then some '\n'
  else if e = 'r' then some '\r'
  else if e = 't' then some '\t'
  else none

def escapeChar (c : Char) : Str :=
  match shortEscape c with
  | some e => ['\\', e]
  | none =>
    if c.toNat < 32 then ['\\', 'u', '0', '0', hexDigit (c.toNat / 16), hexDigit (c.toNat % 16)]
    else [c]

def printString (s : Str) : Str := '"' :: (s.flatMap escapeChar ++ ['"'])

/-- The characters up to the closing quote, and what follows it. -/
def parseString : Str → Option (Str × Str)
  | [] => none
  | '"' :: rest => some ([], rest)
  | '\\' :: 'u' :: a :: b :: c :: d :: rest => do
    let a ← hexValue a
    let b ← hexValue b
    let c ← hexValue c
    let d ← hexValue d
    let (s, rest) ← parseString rest
    some (Char.ofNat (((a * 16 + b) * 16 + c) * 16 + d) :: s, rest)
  | '\\' :: e :: rest => do
    let c ← shortUnescape e
    let (s, rest) ← parseString rest
    some (c :: s, rest)
  | c :: rest => do
    let (s, rest) ← parseString rest
    some (c :: s, rest)

theorem shortUnescape_shortEscape {c e : Char} (h : shortEscape c = some e) :
    shortUnescape e = some c ∧ e ≠ 'u' := by
  unfold shortEscape at h
  split at h
  · rename_i hc
    cases h
    exact ⟨by rw [hc]; rfl, by decide⟩
  split at h
  · rename_i hc
    cases h
    exact ⟨by rw [hc]; rfl, by decide⟩
  split at h
  · rename_i hc
    cases h
    exact ⟨by rw [hc]; rfl, by decide⟩
  split at h
  · rename_i hc
    cases h
    exact ⟨by rw [hc]; rfl, by decide⟩
  split at h
  · rename_i hc
    cases h
    exact ⟨by rw [hc]; rfl, by decide⟩
  · cases h

theorem parseString_short {c e : Char} (h : shortUnescape e = some c) (he : e ≠ 'u')
    (input : Str) :
    parseString ('\\' :: e :: input) = (parseString input).map (fun x ↦ (c :: x.1, x.2)) := by
  rw [parseString, h]
  · cases parseString input <;> rfl
  · rintro a b c d rest hu -
    exact he hu

theorem parseString_control {n : ℕ} (hn : n < 32) (input : Str) :
    parseString ('\\' :: 'u' :: '0' :: '0' :: hexDigit (n / 16) :: hexDigit (n % 16) :: input) =
      (parseString input).map (fun x ↦ (Char.ofNat n :: x.1, x.2)) := by
  have hhex : ∀ m < 16, hexValue (hexDigit m) = some m := by decide
  have hzero : hexValue '0' = some 0 := by decide
  have hsum : ((0 * 16 + 0) * 16 + n / 16) * 16 + n % 16 = n := by omega
  rw [parseString, hhex (n / 16) (by omega), hhex (n % 16) (by omega), hzero]
  simp only [Option.bind_eq_bind, Option.bind_some, hsum]
  cases parseString input <;> rfl

theorem parseString_plain {c : Char} (hq : c ≠ '"') (hb : c ≠ '\\') (input : Str) :
    parseString (c :: input) = (parseString input).map (fun x ↦ (c :: x.1, x.2)) := by
  rw [parseString]
  · cases parseString input <;> rfl
  · exact hq
  · rintro a b c d rest rfl
    exact absurd rfl hb
  · rintro c rest rfl
    exact absurd rfl hb

theorem parseString_escapeChar (c : Char) (input : Str) :
    parseString (escapeChar c ++ input) = (parseString input).map (fun x ↦ (c :: x.1, x.2)) := by
  unfold escapeChar
  split
  · rename_i e he
    obtain ⟨hc, hu⟩ := shortUnescape_shortEscape he
    exact parseString_short hc hu input
  · rename_i hnone
    split
    · rename_i hlt
      have h := parseString_control hlt input
      rwa [Char.ofNat_toNat] at h
    · refine parseString_plain ?_ ?_ input
      · intro heq
        subst heq
        cases hnone
      · intro heq
        subst heq
        cases hnone

theorem parseString_flatMap (s rest : Str) :
    parseString (s.flatMap escapeChar ++ '"' :: rest) = some (s, rest) := by
  induction s with
  | nil => rfl
  | cons c s ih =>
    rw [List.flatMap_cons, List.append_assoc, parseString_escapeChar, ih, Option.map_some]

def printInt (z : ℤ) : Str :=
  if z < 0 then '-' :: Decimal.print z.natAbs else Decimal.print z.natAbs

def printNumber : Number → Str
  | .posInt n => Decimal.print n.toNat
  | .negInt n => '-' :: Decimal.print (n.val + 1)
  | .float x => printInt x.mantissa ++ 'e' :: printInt x.exponent

/-- A run of digits, with or without a sign. -/
def parseInt (input : Str) : Option ((Bool × ℕ) × Str) :=
  match input with
  | '-' :: input =>
    match digit1 input with
    | .ok (rest, ds) => some ((true, Decimal.value ds), rest)
    | _ => none
  | input =>
    match digit1 input with
    | .ok (rest, ds) => some ((false, Decimal.value ds), rest)
    | _ => none

def toInt (x : Bool × ℕ) : ℤ := if x.1 then -x.2 else x.2

/-- An integer that neither integer type holds becomes a float. -/
def ofInt (x : Bool × ℕ) : Number :=
  if x.1 then
    if h : 0 < x.2 ∧ x.2 ≤ 2 ^ 63 then .negInt ⟨x.2 - 1, by omega⟩
    else .float (.ofDecimal (toInt x) 0)
  else if x.2 < 2 ^ 64 then .posInt (UInt64.ofNat x.2)
  else .float (.ofDecimal (toInt x) 0)

def parseNumber (input : Str) : Option (Number × Str) :=
  match parseInt input with
  | some (m, 'e' :: rest) =>
    (parseInt rest).map (fun x ↦ (.float (.ofDecimal (toInt m) (toInt x.1)), x.2))
  | some (m, rest) => some (ofInt m, rest)
  | none => none

/-- Nothing that would continue a number. -/
def EndsNumber (rest : Str) : Prop := starts (fun c ↦ c.isDigit || c == 'e') rest = false

theorem EndsNumber.not_digit {rest : Str} (h : EndsNumber rest) :
    starts Char.isDigit rest = false := by
  cases rest with
  | nil => rfl
  | cons c rest =>
    rw [EndsNumber, starts_cons, Bool.or_eq_false_iff] at h
    exact h.1

theorem EndsNumber.ne_e {rest r : Str} (h : EndsNumber rest) : rest ≠ 'e' :: r := by
  intro he
  subst he
  cases h

theorem parseInt_print {n : ℕ} {rest : Str} (h : starts Char.isDigit rest = false) :
    parseInt (Decimal.print n ++ rest) = some ((false, n), rest) := by
  have hr := Decimal.print_run n h
  have hdigit : digit1 (Decimal.print n ++ rest) = .ok (rest, Decimal.print n) :=
    hr.takeWhile1_eq .digit
  unfold parseInt
  split
  · rename_i input' he
    obtain ⟨c, ds, hds⟩ := List.exists_cons_of_ne_nil (Decimal.print_ne_nil n)
    rw [hds] at he
    have hc := hr.all c (by simp [hds])
    rw [List.cons_append, List.cons.injEq] at he
    rw [he.1] at hc
    cases hc
  · rw [hdigit]
    simp

theorem parseInt_minus {n : ℕ} {rest : Str} (h : starts Char.isDigit rest = false) :
    parseInt ('-' :: (Decimal.print n ++ rest)) = some ((true, n), rest) := by
  have hdigit : digit1 (Decimal.print n ++ rest) = .ok (rest, Decimal.print n) :=
    (Decimal.print_run n h).takeWhile1_eq .digit
  simp [parseInt, hdigit]

theorem parseInt_printInt (z : ℤ) {rest : Str} (h : starts Char.isDigit rest = false) :
    ∃ x, parseInt (printInt z ++ rest) = some (x, rest) ∧ toInt x = z := by
  unfold printInt
  split
  · refine ⟨(true, z.natAbs), ?_, ?_⟩
    · rw [List.cons_append, parseInt_minus h]
    · simp only [toInt, if_true]
      omega
  · refine ⟨(false, z.natAbs), parseInt_print h, ?_⟩
    simp only [toInt, Bool.false_eq_true, if_false]
    omega

theorem parseNumber_printNumber (n : Number) {rest : Str} (h : EndsNumber rest) :
    parseNumber (printNumber n ++ rest) = some (n, rest) := by
  have hint {input : Str} {m : Bool × ℕ} (hm : parseInt input = some (m, rest)) :
      parseNumber input = some (ofInt m, rest) := by
    rw [parseNumber, hm]
    split
    · rename_i he
      cases he
      exact absurd rfl h.ne_e
    · rename_i he
      cases he
      rfl
    · rename_i he
      cases he
  cases n with
  | posInt n =>
    have hlt : n.toNat < 2 ^ 64 := n.toNat_lt
    rw [printNumber, hint (parseInt_print h.not_digit), ofInt]
    simp only [Bool.false_eq_true, if_false, hlt, if_true, UInt64.ofNat_toNat]
  | negInt n =>
    have hlt := n.isLt
    rw [printNumber, List.cons_append, hint (parseInt_minus h.not_digit), ofInt]
    simp only [if_true, Nat.succ_pos, true_and, Nat.add_sub_cancel, Fin.eta]
    rw [dif_pos (by omega)]
  | float x =>
    have hnot : starts Char.isDigit ('e' :: (printInt x.exponent ++ rest)) = false := rfl
    obtain ⟨m, hm, hmantissa⟩ := parseInt_printInt x.mantissa hnot
    obtain ⟨e, he, hexponent⟩ := parseInt_printInt x.exponent h.not_digit
    rw [printNumber, List.append_assoc, List.cons_append]
    rw [parseNumber, hm]
    simp only [he, Option.map_some, hmantissa, hexponent, Double.ofDecimal_self]

mutual

def print : Value → Str
  | .null => ['n', 'u', 'l', 'l']
  | .bool true => ['t', 'r', 'u', 'e']
  | .bool false => ['f', 'a', 'l', 's', 'e']
  | .number n => printNumber n
  | .string s => printString s
  | .array [] => ['[', ']']
  | .array (v :: vs) => '[' :: (print v ++ printElements vs)
  | .object [] => ['{', '}']
  | .object ((k, v) :: es) => '{' :: (printString k ++ ':' :: (print v ++ printEntries es))

/-- The elements after the first one, with the closing bracket. -/
def printElements : List Value → Str
  | [] => [']']
  | v :: vs => ',' :: (print v ++ printElements vs)

def printEntries : List (Str × Value) → Str
  | [] => ['}']
  | (k, v) :: es => ',' :: (printString k ++ ':' :: (print v ++ printEntries es))

end

mutual

/-- The first argument bounds the number of nested calls. -/
def parseValue : ℕ → Str → Option (Value × Str)
  | 0, _ => none
  | fuel + 1, input =>
    match input with
    | 'n' :: 'u' :: 'l' :: 'l' :: rest => some (.null, rest)
    | 't' :: 'r' :: 'u' :: 'e' :: rest => some (.bool true, rest)
    | 'f' :: 'a' :: 'l' :: 's' :: 'e' :: rest => some (.bool false, rest)
    | '"' :: rest => (parseString rest).map (fun x ↦ (.string x.1, x.2))
    | '[' :: ']' :: rest => some (.array [], rest)
    | '[' :: rest => (parseElements fuel rest).map (fun x ↦ (.array x.1, x.2))
    | '{' :: '}' :: rest => some (.object [], rest)
    | '{' :: rest => (parseEntries fuel rest).map (fun x ↦ (.object (IndexMap.collect x.1), x.2))
    | input => (parseNumber input).map (fun x ↦ (.number x.1, x.2))

def parseElements : ℕ → Str → Option (List Value × Str)
  | 0, _ => none
  | fuel + 1, input =>
    match parseValue fuel input with
    | some (v, ',' :: rest) => (parseElements fuel rest).map (fun x ↦ (v :: x.1, x.2))
    | some (v, ']' :: rest) => some ([v], rest)
    | _ => none

def parseEntries : ℕ → Str → Option (List (Str × Value) × Str)
  | 0, _ => none
  | fuel + 1, input =>
    match input with
    | '"' :: rest =>
      match parseString rest with
      | some (k, ':' :: rest) =>
        match parseValue fuel rest with
        | some (v, ',' :: rest) => (parseEntries fuel rest).map (fun x ↦ ((k, v) :: x.1, x.2))
        | some (v, '}' :: rest) => some ([(k, v)], rest)
        | _ => none
      | _ => none
    | _ => none

end

def parse (input : Str) : Option Value :=
  match parseValue (input.length + 1) input with
  | some (v, []) => some v
  | _ => none

mutual

/-- The fuel with which the text of a value is read back. -/
def need : Value → ℕ
  | .array vs => needElements vs + 1
  | .object es => needEntries es + 1
  | _ => 1

def needElements : List Value → ℕ
  | [] => 0
  | v :: vs => max (need v) (needElements vs) + 1

def needEntries : List (Str × Value) → ℕ
  | [] => 0
  | (_, v) :: es => max (need v) (needEntries es) + 1

end

theorem exists_fuel {m fuel : ℕ} (h : m + 1 ≤ fuel) : ∃ n, fuel = n + 1 ∧ m ≤ n :=
  ⟨fuel - 1, by omega, by omega⟩

theorem printNumber_head (n : Number) :
    ∃ c s, printNumber n = c :: s ∧ (c.isDigit = true ∨ c = '-') := by
  have hdigits (m : ℕ) : ∃ c s, Decimal.print m = c :: s ∧ (c.isDigit = true ∨ c = '-') := by
    obtain ⟨c, s, hs⟩ := List.exists_cons_of_ne_nil (Decimal.print_ne_nil m)
    exact ⟨c, s, hs, .inl (Decimal.isDigit_of_mem_print (n := m) (by simp [hs]))⟩
  cases n with
  | posInt n => exact hdigits n.toNat
  | negInt n => exact ⟨'-', _, rfl, .inr rfl⟩
  | float x =>
    rw [printNumber, printInt]
    split
    · exact ⟨'-', _, rfl, .inr rfl⟩
    · obtain ⟨c, s, hs, hc⟩ := hdigits x.mantissa.natAbs
      exact ⟨c, _, by rw [hs, List.cons_append], hc⟩

theorem parseValue_number {c : Char} (hc : c.isDigit = true ∨ c = '-') (fuel : ℕ) (input : Str) :
    parseValue (fuel + 1) (c :: input) =
      (parseNumber (c :: input)).map (fun x ↦ (.number x.1, x.2)) := by
  have hne (d : Char) (hd : d.isDigit = false) (hm : d ≠ '-') : c ≠ d := by
    intro heq
    subst heq
    rcases hc with hc | hc
    · rw [hd] at hc
      cases hc
    · exact hm hc
  rw [parseValue]
  · exact fun rest he ↦ hne 'n' rfl (by decide) (List.cons.inj he).1
  · exact fun rest he ↦ hne 't' rfl (by decide) (List.cons.inj he).1
  · exact fun rest he ↦ hne 'f' rfl (by decide) (List.cons.inj he).1
  · exact fun rest he ↦ hne '"' rfl (by decide) (List.cons.inj he).1
  · exact fun rest he ↦ hne '[' rfl (by decide) (List.cons.inj he).1
  · exact fun rest he ↦ hne '[' rfl (by decide) (List.cons.inj he).1
  · exact fun rest he ↦ hne '\x7b' rfl (by decide) (List.cons.inj he).1
  · exact fun rest he ↦ hne '\x7b' rfl (by decide) (List.cons.inj he).1

theorem print_head (v : Value) : ∃ c s, print v = c :: s ∧ c ≠ ']' := by
  cases v with
  | null => exact ⟨'n', _, rfl, by decide⟩
  | bool b => cases b <;> exact ⟨_, _, rfl, by decide⟩
  | number n =>
    obtain ⟨c, s, hs, hc⟩ := printNumber_head n
    refine ⟨c, s, hs, ?_⟩
    intro he
    subst he
    rcases hc with hc | hc <;> cases hc
  | string s => exact ⟨'"', _, rfl, by decide⟩
  | array vs => cases vs <;> exact ⟨'[', _, rfl, by decide⟩
  | object es => cases es <;> exact ⟨'\x7b', _, rfl, by decide⟩

theorem parseString_printString (k rest : Str) :
    ∃ input, printString k ++ rest = '"' :: input ∧ parseString input = some (k, rest) := by
  refine ⟨k.flatMap escapeChar ++ '"' :: rest, by simp [printString], parseString_flatMap k rest⟩

/-- A value is read back with enough fuel, whatever follows it. -/
def ReadsBack (v : Value) : Prop :=
  ∀ fuel rest, need v ≤ fuel → EndsNumber rest →
    parseValue fuel (print v ++ rest) = some (v, rest)

theorem parseElements_comma {fuel : ℕ} {input rest : Str} {v : Value}
    (hv : parseValue fuel input = some (v, ',' :: rest)) :
    parseElements (fuel + 1) input =
      (parseElements fuel rest).map (fun x ↦ (v :: x.1, x.2)) := by
  simp only [parseElements, hv]

theorem parseElements_close {fuel : ℕ} {input rest : Str} {v : Value}
    (hv : parseValue fuel input = some (v, ']' :: rest)) :
    parseElements (fuel + 1) input = some ([v], rest) := by
  simp only [parseElements, hv]

theorem parseEntries_comma {fuel : ℕ} {input mid rest k : Str} {v : Value}
    (hk : parseString input = some (k, ':' :: mid))
    (hv : parseValue fuel mid = some (v, ',' :: rest)) :
    parseEntries (fuel + 1) ('"' :: input) =
      (parseEntries fuel rest).map (fun x ↦ ((k, v) :: x.1, x.2)) := by
  simp only [parseEntries, hk, hv]

theorem parseEntries_close {fuel : ℕ} {input mid rest k : Str} {v : Value}
    (hk : parseString input = some (k, ':' :: mid))
    (hv : parseValue fuel mid = some (v, '\x7d' :: rest)) :
    parseEntries (fuel + 1) ('"' :: input) = some ([(k, v)], rest) := by
  simp only [parseEntries, hk, hv]

theorem parseElements_print {v : Value} {vs : List Value} (hv : ReadsBack v)
    (hvs : ∀ w ∈ vs, ReadsBack w) (fuel : ℕ) (rest : Str) (h : needElements (v :: vs) ≤ fuel) :
    parseElements fuel (print v ++ (printElements vs ++ rest)) = some (v :: vs, rest) := by
  induction vs generalizing v fuel with
  | nil =>
    obtain ⟨n, rfl, hn⟩ := exists_fuel h
    exact parseElements_close (hv n (']' :: rest) (le_trans (le_max_left ..) hn) rfl)
  | cons w ws ih =>
    obtain ⟨n, rfl, hn⟩ := exists_fuel h
    have hend : EndsNumber (',' :: (print w ++ (printElements ws ++ rest))) := rfl
    have hvalue := hv n _ (le_trans (le_max_left ..) hn) hend
    rw [printElements, List.cons_append, List.append_assoc, parseElements_comma hvalue,
      ih (hvs w (by simp)) (fun x hx ↦ hvs x (by simp [hx])) n (le_trans (le_max_right ..) hn),
      Option.map_some]

theorem parseEntries_print {e : Str × Value} {es : List (Str × Value)} (he : ReadsBack e.2)
    (hes : ∀ d ∈ es, ReadsBack d.2) (fuel : ℕ) (rest : Str) (h : needEntries (e :: es) ≤ fuel) :
    parseEntries fuel (printString e.1 ++ (':' :: (print e.2 ++ (printEntries es ++ rest)))) =
      some (e :: es, rest) := by
  induction es generalizing e fuel with
  | nil =>
    obtain ⟨n, rfl, hn⟩ := exists_fuel h
    obtain ⟨input, hinput, hkey⟩ := parseString_printString e.1
      (':' :: (print e.2 ++ (printEntries [] ++ rest)))
    rw [hinput]
    exact parseEntries_close hkey (he n ('\x7d' :: rest) (le_trans (le_max_left ..) hn) rfl)
  | cons d ds ih =>
    obtain ⟨n, rfl, hn⟩ := exists_fuel h
    have hend : EndsNumber (',' :: (printString d.1 ++
        ':' :: (print d.2 ++ (printEntries ds ++ rest)))) := rfl
    have hvalue := he n _ (le_trans (le_max_left ..) hn) hend
    have htail : printEntries (d :: ds) ++ rest =
        ',' :: (printString d.1 ++ ':' :: (print d.2 ++ (printEntries ds ++ rest))) := by
      simp [printEntries]
    rw [htail]
    obtain ⟨input, hinput, hkey⟩ := parseString_printString e.1 (':' :: (print e.2 ++
      ',' :: (printString d.1 ++ ':' :: (print d.2 ++ (printEntries ds ++ rest)))))
    rw [hinput, parseEntries_comma hkey hvalue,
      ih (hes d (by simp)) (fun x hx ↦ hes x (by simp [hx])) n (le_trans (le_max_right ..) hn),
      Option.map_some]

theorem readsBack_array {vs : List Value} (hvs : ∀ v ∈ vs, ReadsBack v) :
    ReadsBack (.array vs) := by
  intro fuel rest h _
  obtain ⟨n, rfl, hn⟩ := exists_fuel h
  cases vs with
  | nil => rfl
  | cons w ws =>
    have helements := parseElements_print (hvs w (by simp)) (fun x hx ↦ hvs x (by simp [hx]))
      n rest hn
    obtain ⟨c, s, hs, hc⟩ := print_head w
    rw [hs, List.cons_append] at helements
    rw [print, List.cons_append, List.append_assoc, hs, List.cons_append, parseValue, helements]
    · rfl
    · exact fun r hr ↦ hc (List.cons.inj hr).1

theorem readsBack_object {es : List (Str × Value)} (hkeys : (es.map Prod.fst).Nodup)
    (hes : ∀ e ∈ es, ReadsBack e.2) : ReadsBack (.object es) := by
  intro fuel rest h _
  obtain ⟨n, rfl, hn⟩ := exists_fuel h
  cases es with
  | nil => rfl
  | cons e ds =>
    have hentries := parseEntries_print (hes e (by simp)) (fun x hx ↦ hes x (by simp [hx]))
      n rest hn
    obtain ⟨input, hinput, -⟩ := parseString_printString e.1
      (':' :: (print e.2 ++ (printEntries ds ++ rest)))
    rw [hinput] at hentries
    rw [print, List.cons_append, List.append_assoc, List.cons_append, List.append_assoc, hinput,
      parseValue, hentries, Option.map_some, IndexMap.collect_of_nodup hkeys]
    intro r hr
    cases hr

theorem parseValue_print (v : Value) (hv : v.WellFormed) : ReadsBack v := by
  induction v using Value.induct with
  | null =>
    intro fuel rest h _
    obtain ⟨n, rfl, -⟩ := exists_fuel h
    rfl
  | bool b =>
    intro fuel rest h _
    obtain ⟨n, rfl, -⟩ := exists_fuel h
    cases b <;> rfl
  | number m =>
    intro fuel rest h hrest
    obtain ⟨n, rfl, -⟩ := exists_fuel h
    obtain ⟨c, s, hs, hc⟩ := printNumber_head m
    have hparse := parseNumber_printNumber m hrest
    rw [hs, List.cons_append] at hparse
    rw [print, hs, List.cons_append, parseValue_number hc, hparse, Option.map_some]
  | string s =>
    intro fuel rest h _
    obtain ⟨n, rfl, -⟩ := exists_fuel h
    obtain ⟨input, hinput, hparse⟩ := parseString_printString s rest
    rw [print, hinput, parseValue, hparse, Option.map_some]
  | array vs ih =>
    cases hv with
    | array hvs => exact readsBack_array (fun v hm ↦ ih v hm (hvs v hm))
  | object es ih =>
    cases hv with
    | object hkeys hes => exact readsBack_object hkeys (fun e hm ↦ ih e hm (hes e hm))

theorem print_length_pos (v : Value) : 0 < (print v).length := by
  obtain ⟨c, s, hs, -⟩ := print_head v
  rw [hs]
  exact Nat.succ_pos _

theorem needElements_le {v : Value} {vs : List Value} (hv : need v ≤ (print v).length)
    (hvs : ∀ w ∈ vs, need w ≤ (print w).length) :
    needElements (v :: vs) ≤ (print v).length + (printElements vs).length := by
  have hpos := print_length_pos v
  induction vs generalizing v with
  | nil =>
    simp only [needElements, printElements, List.length_singleton]
    omega
  | cons w ws ih =>
    have hw := ih (hvs w (by simp)) (fun x hx ↦ hvs x (by simp [hx])) (print_length_pos w)
    rw [needElements, printElements, List.length_cons, List.length_append]
    omega

theorem needEntries_le {e : Str × Value} {es : List (Str × Value)}
    (he : need e.2 ≤ (print e.2).length) (hes : ∀ d ∈ es, need d.2 ≤ (print d.2).length) :
    needEntries (e :: es) ≤ (print e.2).length + (printEntries es).length := by
  have hpos := print_length_pos e.2
  induction es generalizing e with
  | nil =>
    simp only [needEntries, printEntries, List.length_singleton]
    omega
  | cons d ds ih =>
    have hd := ih (hes d (by simp)) (fun x hx ↦ hes x (by simp [hx])) (print_length_pos d.2)
    rw [needEntries, printEntries, List.length_cons, List.length_append, List.length_cons,
      List.length_append]
    omega

theorem need_le (v : Value) : need v ≤ (print v).length := by
  induction v using Value.induct with
  | null => exact print_length_pos .null
  | bool b => exact print_length_pos (.bool b)
  | number n => exact print_length_pos (.number n)
  | string s => exact print_length_pos (.string s)
  | array vs ih =>
    cases vs with
    | nil => exact Nat.le_succ 1
    | cons w ws =>
      have h := needElements_le (ih w (by simp)) (fun x (hx : x ∈ ws) ↦ ih x (by simp [hx]))
      rw [need, print, List.length_cons, List.length_append]
      omega
  | object es ih =>
    cases es with
    | nil => exact Nat.le_succ 1
    | cons e ds =>
      have h := needEntries_le (ih e (by simp)) (fun x (hx : x ∈ ds) ↦ ih x (by simp [hx]))
      rw [need, print, List.length_cons, List.length_append, List.length_cons, List.length_append]
      omega

theorem parse_print (v : Value) (hv : v.WellFormed) : parse (print v) = some v := by
  have hfuel : need v ≤ (print v).length + 1 := le_trans (need_le v) (Nat.le_succ _)
  have h := parseValue_print v hv _ [] hfuel rfl
  rw [List.append_nil] at h
  rw [parse, h]

/-- Compact JSON, with a parser for the texts that it writes. -/
def standard : Codec := ⟨print, parse⟩

theorem standard_lawful : standard.Lawful where
  fromStr_toString := parse_print
  array_text vs := by cases vs <;> exact ⟨_, rfl⟩
  string_text _ := ⟨_, rfl⟩
  object_text es := by cases es <;> exact ⟨_, rfl⟩
  fromStr_nil := rfl

end SocketIoRust.Library.Json
