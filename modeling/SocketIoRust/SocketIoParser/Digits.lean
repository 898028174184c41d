import SocketIoRust.SocketIoParser.DecodedPacket
import SocketIoRust.EngineIoParser.LengthOverflow

namespace SocketIoRust.SocketIoParser

open Library Library.Decimal EngineIoParser
open Library.Outcome (ok err bind_ne_err)

variable {o : Overflow}

/-- The number of a digit run, an error if the type has too few values for it. -/
def decimal (size : ℕ) (digits : Str) : Outcome Unit ℕ :=
  match parseBelow size digits with
  | some n => ok n
  | none => err ()

/-- A call answers with the number of its digits, and nothing overflows on the way. -/
def ReadsDecimal (size : ℕ) (read : Overflow → Str → Outcome Unit ℕ) (o : Overflow)
    (digits : Str) : Prop :=
  read o digits = decimal size digits ∧ NoOverflow read digits

abbrev digitsToNat32 (o : Overflow) (digits : Str) : Outcome Unit ℕ :=
  (digitsToU32 o digits).map UInt32.toNat

abbrev digitsToNat64 (o : Overflow) (digits : Str) : Outcome Unit ℕ :=
  (digitsToU64 o digits).map UInt64.toNat

theorem digitsToU32From_cons {n order acc : ℕ} {ch : Char} {ds : Str} (h : ch.isDigit = true) :
    digitsToU32From o n order (ch :: ds) acc = (do
      let exponent ← subtract o u32Size n (order % u32Size)
      let power ← fit o u32Size (10 ^ exponent)
      let term ← fit o u32Size ((ch.toNat - 48) * power)
      let acc ← fit o u32Size (acc + term)
      digitsToU32From o n (order + 1) ds acc) := by
  rw [digitsToU32From, if_pos h, Outcome.ok_bind]

/-- The sum before any reduction: ten times the number, since the last digit is already
multiplied by ten. -/
theorem digitsToU32From_exact {n order acc : ℕ} {ds : Str} (hd : ∀ c ∈ ds, c.isDigit = true)
    (hn : ds.length + order = n) (hlt : n < 10) (hfit : acc + 10 * value ds < u32Size) :
    digitsToU32From o n order ds acc = ok (acc + 10 * value ds) := by
  induction ds generalizing order acc with
  | nil => rfl
  | cons ch ds ih =>
    rw [List.length_cons] at hn
    rw [value_cons] at hfit ⊢
    have hsub : n - order % u32Size = ds.length + 1 := by
      rw [Nat.mod_eq_of_lt (lt_trans (by omega : order < 10) (by decide))]
      omega
    have hpow : 10 ^ (ds.length + 1) < u32Size :=
      lt_of_le_of_lt (Nat.pow_le_pow_right (by decide) (by omega : ds.length + 1 ≤ 9)) (by decide)
    have hterm : (ch.toNat - 48) * 10 ^ (ds.length + 1) =
        10 * ((ch.toNat - 48) * 10 ^ ds.length) := by
      rw [pow_succ]
      ring
    rw [digitsToU32From_cons (hd ch List.mem_cons_self),
      subtract_of_le (le_trans (Nat.mod_le _ _) (by omega)), Outcome.ok_bind, hsub,
      fit_of_lt hpow, Outcome.ok_bind, hterm, fit_of_lt (by omega), Outcome.ok_bind,
      fit_of_lt (by omega), Outcome.ok_bind,
      ih (fun c hc ↦ hd c (List.mem_cons_of_mem _ hc)) (by omega) (by omega)]
    congr 1
    ring

/-- A step that overflow checks let pass, and what is left to do after it. -/
theorem digitsToU32From_checked_cons {n order acc : ℕ} {ch : Char} {ds : Str}
    (hd : ch.isDigit = true) (h : digitsToU32From .checked n order (ch :: ds) acc ≠ .panic) :
    order % u32Size ≤ n ∧ 10 ^ (n - order % u32Size) < u32Size ∧
      acc + (ch.toNat - 48) * 10 ^ (n - order % u32Size) < u32Size ∧
      digitsToU32From .checked n (order + 1) ds
        (acc + (ch.toNat - 48) * 10 ^ (n - order % u32Size)) ≠ .panic := by
  rw [digitsToU32From_cons hd] at h
  by_cases hsub : order % u32Size ≤ n
  swap
  · exact absurd (by simp [subtract, hsub]) h
  rw [subtract_of_le hsub, Outcome.ok_bind] at h
  by_cases hpow : 10 ^ (n - order % u32Size) < u32Size
  swap
  · exact absurd (by rw [fit_checked_of_le (Nat.not_lt.mp hpow), Outcome.panic_bind]) h
  rw [fit_of_lt hpow, Outcome.ok_bind] at h
  by_cases hacc : acc + (ch.toNat - 48) * 10 ^ (n - order % u32Size) < u32Size
  swap
  · refine absurd ?_ h
    by_cases hterm : (ch.toNat - 48) * 10 ^ (n - order % u32Size) < u32Size
    · rw [fit_of_lt hterm, Outcome.ok_bind, fit_checked_of_le (Nat.not_lt.mp hacc),
        Outcome.panic_bind]
    · rw [fit_checked_of_le (Nat.not_lt.mp hterm), Outcome.panic_bind]
  refine ⟨hsub, hpow, hacc, ?_⟩
  rwa [fit_of_lt (lt_of_le_of_lt (Nat.le_add_left _ _) hacc), Outcome.ok_bind, fit_of_lt hacc,
    Outcome.ok_bind] at h

theorem digitsToU32From_exponents {n order acc : ℕ} {ds : Str} (hd : ∀ c ∈ ds, c.isDigit = true)
    (h : digitsToU32From .checked n order ds acc ≠ .panic) :
    ∀ i < ds.length, (order + i) % u32Size ≤ n ∧ 10 ^ (n - (order + i) % u32Size) < u32Size := by
  induction ds generalizing order acc with
  | nil =>
    intro i hi
    cases hi
  | cons ch ds ih =>
    obtain ⟨hsub, hpow, -, h⟩ := digitsToU32From_checked_cons (hd ch List.mem_cons_self) h
    intro i hi
    cases i with
    | zero => exact ⟨hsub, hpow⟩
    | succ i =>
      rw [Nat.add_comm i 1, ← Nat.add_assoc]
      exact ih (fun c hc ↦ hd c (List.mem_cons_of_mem _ hc)) h i (Nat.lt_of_succ_lt_succ hi)

theorem digitsToU32From_fits {n order acc : ℕ} {ds : Str} (hd : ∀ c ∈ ds, c.isDigit = true)
    (hn : ds.length + order = n) (hlt : n < 10) (hacc : acc < u32Size)
    (h : digitsToU32From .checked n order ds acc ≠ .panic) : acc + 10 * value ds < u32Size := by
  induction ds generalizing order acc with
  | nil => simpa [value] using hacc
  | cons ch ds ih =>
    rw [List.length_cons] at hn
    obtain ⟨-, -, hfit, h⟩ := digitsToU32From_checked_cons (hd ch List.mem_cons_self) h
    have hsub : n - order % u32Size = ds.length + 1 := by
      rw [Nat.mod_eq_of_lt (lt_trans (by omega : order < 10) (by decide))]
      omega
    have hterm : (ch.toNat - 48) * 10 ^ (ds.length + 1) =
        10 * ((ch.toNat - 48) * 10 ^ ds.length) := by
      rw [pow_succ]
      ring
    rw [hsub, hterm] at hfit h
    have hle := ih (fun c hc ↦ hd c (List.mem_cons_of_mem _ hc)) (by omega) hfit h
    rw [value_cons]
    omega

theorem length_le_of_not_panic {ds : Str} (hne : ds ≠ []) (hd : ∀ c ∈ ds, c.isDigit = true)
    (h : digitsToU32From .checked (ds.length % u32Size) 0 ds 0 ≠ .panic) : ds.length ≤ 9 := by
  have hexp := digitsToU32From_exponents hd h
  have hlen := List.length_pos_of_ne_nil hne
  by_contra hlong
  have hfirst : ds.length % u32Size ≤ 9 := by
    by_contra hbig
    have hpow : 10 ^ 10 ≤ 10 ^ (ds.length % u32Size) := Nat.pow_le_pow_right (by decide) (by omega)
    have hlt := (hexp 0 hlen).2
    rw [Nat.zero_add, Nat.zero_mod, Nat.sub_zero] at hlt
    exact absurd (lt_of_le_of_lt hpow hlt) (by decide)
  have hwrap : u32Size ≤ ds.length := by
    by_contra hsmall
    rw [Nat.mod_eq_of_lt (Nat.not_le.mp hsmall)] at hfirst
    exact hlong hfirst
  -- the exponent of the digit behind those that the truncated count stands for is negative
  have hnext := (hexp (ds.length % u32Size + 1)
    (lt_of_lt_of_le (lt_of_le_of_lt (by omega : _ ≤ 10) (by decide)) hwrap)).1
  rw [Nat.zero_add, Nat.mod_eq_of_lt (lt_of_le_of_lt (by omega : _ ≤ 10) (by decide))] at hnext
  omega

theorem digitsToU32_exact (o : Overflow) {ds : Str} (hd : ∀ c ∈ ds, c.isDigit = true)
    (hlen : ds.length ≤ 9) (hfit : 10 * value ds < u32Size) :
    digitsToU32 o ds = ok (UInt32.ofNat (10 * value ds)) := by
  have hmod : ds.length % u32Size = ds.length :=
    Nat.mod_eq_of_lt (lt_of_le_of_lt hlen (by decide))
  rw [digitsToU32, hmod, digitsToU32From_exact hd (Nat.add_zero _) (by omega) (by omega),
    Nat.zero_add, Outcome.map_ok]

theorem digitsToU32_checked_ne_panic_iff {ds : Str} (hne : ds ≠ [])
    (hd : ∀ c ∈ ds, c.isDigit = true) :
    digitsToU32 .checked ds ≠ .panic ↔ ds.length ≤ 9 ∧ 10 * value ds < u32Size := by
  constructor
  · intro h
    have hfold : digitsToU32From .checked (ds.length % u32Size) 0 ds 0 ≠ .panic := by
      intro hp
      exact h (by rw [digitsToU32, hp, Outcome.map_panic])
    have hlen := length_le_of_not_panic hne hd hfold
    rw [Nat.mod_eq_of_lt (lt_of_le_of_lt hlen (by decide))] at hfold
    have hfit := digitsToU32From_fits hd (Nat.add_zero _) (by omega) (by decide) hfold
    exact ⟨hlen, by omega⟩
  · rintro ⟨hlen, hfit⟩
    rw [digitsToU32_exact .checked hd hlen hfit]
    simp

theorem digitsToNat32_exact (o : Overflow) {ds : Str} (hd : ∀ c ∈ ds, c.isDigit = true)
    (hlen : ds.length ≤ 9) (hfit : 10 * value ds < u32Size) :
    digitsToNat32 o ds = ok (10 * value ds) := by
  rw [digitsToNat32, digitsToU32_exact o hd hlen hfit, Outcome.map_ok, UInt32.toNat_ofNat',
    Nat.mod_eq_of_lt hfit]

theorem digitsToNat32_noOverflow_iff {ds : Str} (hne : ds ≠ []) (hd : ∀ c ∈ ds, c.isDigit = true) :
    NoOverflow digitsToNat32 ds ↔ ds.length ≤ 9 ∧ 10 * value ds < u32Size := by
  rw [← digitsToU32_checked_ne_panic_iff hne hd]
  constructor
  · rintro ⟨hp, -⟩ h
    exact hp (by rw [digitsToNat32, h, Outcome.map_panic])
  · intro h
    obtain ⟨hlen, hfit⟩ := (digitsToU32_checked_ne_panic_iff hne hd).mp h
    rw [NoOverflow, digitsToNat32_exact .checked hd hlen hfit,
      digitsToNat32_exact .wrapping hd hlen hfit]
    simp

theorem digitsToNat64_eq : digitsToNat64 = digitsToNat32 := by
  funext o ds
  rw [digitsToNat64, digitsToNat32, digitsToU64]
  cases digitsToU32 o ds with
  | ok n => rfl
  | err e => rfl
  | panic => rfl

/-- Two positions of a string, the later one `n` digits on, both counted modulo `2 ^ 32`. -/
theorem subtract_wrapping_mod {order n : ℕ} (hn : n < u32Size) :
    (subtract .wrapping u32Size ((order + n) % u32Size) (order % u32Size) : Outcome Unit ℕ) =
      ok n := by
  unfold u32Size at *
  rw [subtract]
  split
  · congr 1
    omega
  · congr 1
    omega

theorem digitsToU32From_wrapping {order acc : ℕ} {ds : Str} (hd : ∀ c ∈ ds, c.isDigit = true)
    (hacc : acc < u32Size) (hfit : value ds < u32Size) :
    digitsToU32From .wrapping ((order + ds.length) % u32Size) order ds acc =
      ok ((acc + 10 * value ds) % u32Size) := by
  induction ds generalizing order acc with
  | nil =>
    rw [digitsToU32From, value, Nat.ofDigitChars_nil, Nat.mul_zero, Nat.add_zero,
      Nat.mod_eq_of_lt hacc]
  | cons ch ds ih =>
    have hds : ∀ c ∈ ds, c.isDigit = true := fun c hc ↦ hd c (List.mem_cons_of_mem _ hc)
    rw [value_cons] at hfit ⊢
    have hrest : value ds < u32Size := lt_of_le_of_lt (Nat.le_add_left _ _) hfit
    rw [digitsToU32From_cons (hd ch List.mem_cons_self), List.length_cons]
    by_cases hzero : ch.toNat - 48 = 0
    · -- a zero adds nothing, whatever its power of ten has become
      obtain ⟨e, he⟩ | ⟨ho, -⟩ := subtract_cases (ε := Unit) .wrapping u32Size
        ((order + (ds.length + 1)) % u32Size) (order % u32Size)
      swap
      · cases ho
      rw [he, Outcome.ok_bind, fit_wrapping, Outcome.ok_bind, hzero, Nat.zero_mul,
        fit_wrapping, Outcome.ok_bind, Nat.zero_mod, Nat.add_zero, fit_of_lt hacc,
        Outcome.ok_bind, ← Nat.add_assoc, Nat.add_right_comm, ih hds hacc hrest, Nat.zero_mul,
        Nat.zero_add]
    · have hpow : 10 ^ ds.length < 10 ^ 10 :=
        calc 10 ^ ds.length ≤ (ch.toNat - 48) * 10 ^ ds.length :=
              Nat.le_mul_of_pos_left _ (Nat.pos_of_ne_zero hzero)
          _ < 10 ^ 10 := lt_trans (lt_of_le_of_lt (Nat.le_add_right _ _) hfit) (by decide)
      have hlen : ds.length < 10 := (Nat.pow_lt_pow_iff_right (by decide)).mp hpow
      rw [subtract_wrapping_mod (lt_trans (Nat.succ_lt_succ hlen) (by decide)), Outcome.ok_bind,
        fit_wrapping, Outcome.ok_bind, fit_wrapping, Outcome.ok_bind, fit_wrapping,
        Outcome.ok_bind, ← Nat.add_assoc, Nat.add_right_comm,
        ih hds (Nat.mod_lt _ (by decide)) hrest]
      have hterm : 10 * ((ch.toNat - 48) * 10 ^ ds.length) =
          (ch.toNat - 48) * 10 ^ (ds.length + 1) := by
        rw [pow_succ]
        ring
      congr 1
      rw [Nat.mul_mod_mod, Nat.add_mod_mod, Nat.mod_add_mod, Nat.mul_add, hterm, Nat.add_assoc]

theorem digitsToNat32_wrapping {ds : Str} (hd : ∀ c ∈ ds, c.isDigit = true)
    (hfit : value ds < u32Size) :
    digitsToNat32 .wrapping ds = ok (10 * value ds % u32Size) := by
  have h : digitsToU32From .wrapping ((0 + ds.length) % u32Size) 0 ds 0 = _ :=
    digitsToU32From_wrapping hd (by decide) hfit
  rw [Nat.zero_add, Nat.zero_add] at h
  rw [digitsToNat32, digitsToU32, h, Outcome.map_ok, Outcome.map_ok, UInt32.toNat_ofNat',
    Nat.mod_mod]

theorem eq_zero_of_ten_mul_mod {v : ℕ} (hv : v < u32Size) (h : 10 * v % u32Size = v) : v = 0 := by
  have hdvd : u32Size ∣ 10 * v - 10 * v % u32Size := Nat.dvd_sub_mod _
  have hnine : 10 * v - v = 9 * v := by omega
  rw [h, hnine] at hdvd
  exact Nat.eq_zero_of_dvd_of_lt (Nat.Coprime.dvd_of_dvd_mul_left (by decide) hdvd) hv

theorem digitsToU32From_ne_err {n order acc : ℕ} {ds : Str} (hd : ∀ c ∈ ds, c.isDigit = true) :
    digitsToU32From o n order ds acc ≠ err () := by
  induction ds generalizing order acc with
  | nil =>
    intro h
    cases h
  | cons ch ds ih =>
    rw [digitsToU32From_cons (hd ch List.mem_cons_self)]
    apply bind_ne_err (subtract_ne_err _ _ _ _ _)
    intro exponent
    apply bind_ne_err (fit_ne_err _ _ _ _)
    intro power
    apply bind_ne_err (fit_ne_err _ _ _ _)
    intro term
    apply bind_ne_err (fit_ne_err _ _ _ _)
    intro acc
    exact ih fun c hc ↦ hd c (List.mem_cons_of_mem _ hc)

theorem digitsToNat32_cases (o : Overflow) {ds : Str} (hd : ∀ c ∈ ds, c.isDigit = true) :
    (∃ n < u32Size, digitsToNat32 o ds = ok n) ∨ digitsToU32 o ds = .panic := by
  rw [digitsToNat32, digitsToU32]
  cases h : digitsToU32From o (ds.length % u32Size) 0 ds 0 with
  | ok n => exact .inl ⟨_, (UInt32.ofNat n).toNat_lt, rfl⟩
  | err e => exact absurd h (digitsToU32From_ne_err hd)
  | panic => exact .inr rfl

/-- What a call answers, whatever overflows on the way. -/
theorem digitsToNat32_eq_decimal_iff {size : ℕ} (hsize : 0 < size) {ds : Str} (hne : ds ≠ [])
    (hd : ∀ c ∈ ds, c.isDigit = true) :
    digitsToNat32 o ds = decimal size ds ↔
      (∀ c ∈ ds, c = '0') ∧ (o = .checked → ds.length ≤ 9) := by
  rw [← value_eq_zero_iff hd]
  constructor
  · intro h
    have hdecimal : decimal size ds = ok (value ds) ∨ decimal size ds = err () := by
      rw [decimal, parseBelow]
      split_ifs <;> simp
    obtain ⟨n, hn, hok⟩ | hpanic := digitsToNat32_cases o hd
    swap
    · rw [digitsToNat32, hpanic, Outcome.map_panic] at h
      rw [← h] at hdecimal
      simp at hdecimal
    rw [← h, hok] at hdecimal
    obtain hdecimal | hdecimal := hdecimal
    swap
    · cases hdecimal
    cases hdecimal
    cases o with
    | checked =>
      have hp : digitsToU32 .checked ds ≠ .panic := by
        intro hp
        rw [digitsToNat32, hp] at hok
        cases hok
      obtain ⟨hlen, hfit⟩ := (digitsToU32_checked_ne_panic_iff hne hd).mp hp
      rw [digitsToNat32_exact _ hd hlen hfit] at hok
      have hten : 10 * value ds = value ds := Outcome.ok.inj hok
      exact ⟨by omega, fun _ ↦ hlen⟩
    | wrapping =>
      rw [digitsToNat32_wrapping hd hn] at hok
      have hten : 10 * value ds % u32Size = value ds := Outcome.ok.inj hok
      refine ⟨eq_zero_of_ten_mul_mod hn hten, ?_⟩
      intro ho
      cases ho
  · rintro ⟨hzero, hlen⟩
    rw [decimal, parseBelow, hzero, if_pos hsize]
    cases o with
    | checked => rw [digitsToNat32_exact _ hd (hlen rfl) (by rw [hzero]; decide), hzero]
    | wrapping =>
      rw [digitsToNat32_wrapping hd (by rw [hzero]; decide), hzero]
      rfl

theorem readsDecimal_digitsToNat32_iff {size : ℕ} (hsize : 0 < size) {ds : Str} (hne : ds ≠ [])
    (hd : ∀ c ∈ ds, c.isDigit = true) :
    ReadsDecimal size digitsToNat32 o ds ↔ (∀ c ∈ ds, c = '0') ∧ ds.length ≤ 9 := by
  rw [ReadsDecimal, digitsToNat32_eq_decimal_iff hsize hne hd, digitsToNat32_noOverflow_iff hne hd]
  constructor
  · rintro ⟨⟨hzero, -⟩, hlen, -⟩
    exact ⟨hzero, hlen⟩
  · rintro ⟨hzero, hlen⟩
    refine ⟨⟨hzero, fun _ ↦ hlen⟩, hlen, ?_⟩
    rw [(value_eq_zero_iff hd).mpr hzero]
    decide

/-- The digits are multiplied by one power of ten too many. -/
theorem readsDecimal_iff (o : Overflow) {ds : Str} (hne : ds ≠ [])
    (hd : ∀ c ∈ ds, c.isDigit = true) :
    (ReadsDecimal u32Size digitsToNat32 o ds ↔ (∀ c ∈ ds, c = '0') ∧ ds.length ≤ 9) ∧
      (ReadsDecimal usizeSize digitsToNat64 o ds ↔ (∀ c ∈ ds, c = '0') ∧ ds.length ≤ 9) := by
  rw [digitsToNat64_eq]
  exact ⟨readsDecimal_digitsToNat32_iff (by decide) hne hd,
    readsDecimal_digitsToNat32_iff (by decide) hne hd⟩

theorem readsDecimal_iff_zeros :
    ReadsDecimal u32Size digitsToNat32 .checked ['0', '0'] ∧
      ReadsDecimal usizeSize digitsToNat64 .wrapping ['0', '0'] :=
  ⟨(readsDecimal_iff .checked (by decide) (by simp)).1.mpr (by simp),
    (readsDecimal_iff .wrapping (by decide) (by simp)).2.mpr (by simp)⟩

theorem not_readsDecimal_one :
    digitsToU32 .checked ['1'] = ok 10 ∧ digitsToU64 .wrapping ['1'] = ok 10 ∧
      ¬ ReadsDecimal u32Size digitsToNat32 .checked ['1'] ∧
      ¬ ReadsDecimal usizeSize digitsToNat64 .wrapping ['1'] := by
  refine ⟨by decide, by decide, ?_, ?_⟩
  · rintro ⟨h, -⟩
    exact absurd h (by decide)
  · rintro ⟨h, -⟩
    exact absurd h (by decide)

end SocketIoRust.SocketIoParser
