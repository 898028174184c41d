import SocketIoRust.EngineIoParser.BinaryFormat
import Mathlib.Data.Nat.Digits.Lemmas
import Mathlib.Tactic.Ring

namespace SocketIoRust.EngineIoParser.BinaryFormat

open Library Library.Nom
open Library.Outcome (ok err)

/-- The number that the bytes of a length stand for: decimal digits, the lowest first. -/
def lengthValue (ds : Bytes) : ℕ := Nat.ofDigits 10 (ds.map UInt8.toNat)

theorem lengthValue_nil : lengthValue [] = 0 := rfl

theorem lengthValue_cons (d : UInt8) (ds : Bytes) :
    lengthValue (d :: ds) = d.toNat + 10 * lengthValue ds := by
  simp only [lengthValue]
  rw [List.map_cons, Nat.ofDigits_cons]

theorem lengthValue_take_succ (ds : Bytes) (i : ℕ) :
    lengthValue (ds.take (i + 1)) = lengthValue (ds.take i) + 10 ^ i * (ds.getD i 0).toNat := by
  induction ds generalizing i with
  | nil => simp
  | cons d ds ih =>
    cases i with
    | zero =>
      rw [List.take_succ_cons, lengthValue_cons]
      simp [lengthValue_nil]
    | succ i =>
      rw [List.take_succ_cons, List.take_succ_cons, lengthValue_cons, lengthValue_cons, ih,
        List.getD_cons_succ]
      ring

theorem packetLengthLoop_wrapping (ds : Bytes) (i acc : ℕ) (hacc : acc < u32Size)
    (hi : lengthValue (ds.take i) < usizeSize) :
    packetLengthLoop .wrapping ds i acc = ok ((acc + lengthValue (ds.take i)) % u32Size) := by
  induction i generalizing acc with
  | zero =>
    rw [List.take_zero, lengthValue_nil, Nat.add_zero, Nat.mod_eq_of_lt hacc]
    rfl
  | succ i ih =>
    rw [lengthValue_take_succ] at hi
    have hpow : 10 ^ (i % u32Size) * (ds.getD i 0).toNat = 10 ^ i * (ds.getD i 0).toNat := by
      by_cases hlt : i < u32Size
      · rw [Nat.mod_eq_of_lt hlt]
      · -- so high a digit can only be a zero
        have hbig : usizeSize ≤ 10 ^ i :=
          le_trans (by norm_num : usizeSize ≤ 10 ^ 20) (Nat.pow_le_pow_right (by norm_num)
            (le_trans (by norm_num) (Nat.not_lt.mp hlt)))
        have hz : (ds.getD i 0).toNat = 0 := by
          by_contra hne
          have hle := Nat.le_mul_of_pos_right (10 ^ i) (Nat.pos_of_ne_zero hne)
          omega
        rw [hz, Nat.mul_zero, Nat.mul_zero]
    simp only [packetLengthLoop, fit_wrapping, Outcome.ok_bind]
    rw [ih _ (Nat.mod_lt _ (by norm_num)) (by omega), lengthValue_take_succ, Nat.mod_mul_mod, hpow,
      Nat.add_mod_mod, Nat.mod_add_mod]
    congr 2
    ring

theorem packetLengthLoop_checked (ds : Bytes) (i acc : ℕ) (hacc : acc < u32Size) :
    packetLengthLoop .checked ds i acc =
      if i ≤ 10 ∧ acc + lengthValue (ds.take i) < u32Size then
        ok (acc + lengthValue (ds.take i))
      else .panic := by
  induction i generalizing acc with
  | zero => simp [packetLengthLoop, lengthValue_nil, hacc]
  | succ i ih =>
    rw [lengthValue_take_succ]
    unfold packetLengthLoop
    by_cases hi : i < 10
    · have hmod : i % u32Size = i := Nat.mod_eq_of_lt (lt_trans hi (by norm_num))
      have hpow : 10 ^ i < u32Size :=
        lt_of_le_of_lt (Nat.pow_le_pow_right (by norm_num) (by omega : i ≤ 9)) (by norm_num)
      rw [hmod, fit_of_lt hpow, Outcome.ok_bind]
      by_cases hterm : 10 ^ i * (ds.getD i 0).toNat < u32Size
      · rw [fit_of_lt hterm, Outcome.ok_bind]
        by_cases hsum : acc + 10 ^ i * (ds.getD i 0).toNat < u32Size
        · rw [fit_of_lt hsum, Outcome.ok_bind, ih _ hsum]
          have hadd : acc + 10 ^ i * (ds.getD i 0).toNat + lengthValue (ds.take i) =
              acc + (lengthValue (ds.take i) + 10 ^ i * (ds.getD i 0).toNat) := by omega
          rw [hadd]
          exact if_congr (by omega) rfl rfl
        · rw [fit_checked_of_le (by omega), Outcome.panic_bind, if_neg (by omega)]
      · rw [fit_checked_of_le (by omega), Outcome.panic_bind, if_neg (by omega)]
    · -- the power itself overflows, here or at the digits still to come
      rw [if_neg (by omega)]
      by_cases hten : i = 10
      · subst hten
        rfl
      · apply fit_checked_bind_panic
        intro power _
        apply fit_checked_bind_panic
        intro term _
        apply fit_checked_bind_panic
        intro sum hsum
        rw [ih sum hsum, if_neg (by omega)]

/-- A length that the loop computes without overflow, in either kind of build. -/
def LengthFits (o : Overflow) (ds : Bytes) : Prop :=
  lengthValue ds < u32Size ∧ (o = .checked → ds.length ≤ 10)

theorem packetLengthLoop_of_fits {o : Overflow} {ds : Bytes} (h : LengthFits o ds) :
    packetLengthLoop o ds ds.length 0 = ok (lengthValue ds) := by
  obtain ⟨hv, hlen⟩ := h
  have hv' : lengthValue ds < usizeSize := lt_trans hv (by norm_num)
  cases o with
  | checked =>
    rw [packetLengthLoop_checked ds _ _ (by norm_num), List.take_length, Nat.zero_add,
      if_pos ⟨hlen rfl, hv⟩]
  | wrapping =>
    rw [packetLengthLoop_wrapping ds _ _ (by norm_num) (by rwa [List.take_length]),
      List.take_length, Nat.zero_add, Nat.mod_eq_of_lt hv]

theorem packetLengthLoop_panics {ds : Bytes} :
    packetLengthLoop .checked ds ds.length 0 = .panic ↔ ¬ LengthFits .checked ds := by
  rw [packetLengthLoop_checked ds _ _ (by norm_num), List.take_length, Nat.zero_add]
  unfold LengthFits
  split <;> rename_i h <;> simp at h ⊢ <;> omega

theorem packetLengthLoop_cases (o : Overflow) (ds : Bytes) (i acc : ℕ) :
    (∃ n, packetLengthLoop o ds i acc = ok n) ∨
      (o = .checked ∧ packetLengthLoop o ds i acc = .panic) := by
  induction i generalizing acc with
  | zero => exact .inl ⟨acc, rfl⟩
  | succ i ih =>
    unfold packetLengthLoop
    rcases fit_cases o u32Size (10 ^ (i % u32Size)) with ⟨power, h⟩ | ⟨ho, h⟩
    swap
    · exact .inr ⟨ho, by rw [h, Outcome.panic_bind]⟩
    rw [h, Outcome.ok_bind]
    rcases fit_cases o u32Size (power * (ds.getD i 0).toNat) with ⟨term, h⟩ | ⟨ho, h⟩
    swap
    · exact .inr ⟨ho, by rw [h, Outcome.panic_bind]⟩
    rw [h, Outcome.ok_bind]
    rcases fit_cases o u32Size (acc + term) with ⟨acc', h⟩ | ⟨ho, h⟩
    swap
    · exact .inr ⟨ho, by rw [h, Outcome.panic_bind]⟩
    rw [h, Outcome.ok_bind]
    exact ih acc'

theorem encodePacketLengthLoop_eq (val : ℕ) (digits : Bytes) :
    encodePacketLengthLoop val digits = digits ++ (Nat.digits 10 val).map UInt8.ofNat := by
  induction val using Nat.strong_induction_on generalizing digits with
  | _ val ih =>
    unfold encodePacketLengthLoop
    split
    · rename_i hz
      simp [hz]
    · rename_i hz
      rw [ih (val / 10) (by omega), Nat.digits_eq_cons_digits_div (by norm_num) hz, List.map_cons,
        List.append_assoc, List.singleton_append]

theorem encodePacketLength_eq {n : ℕ} (hn : n ≠ 0) :
    encodePacketLength n = (Nat.digits 10 n).map UInt8.ofNat := by
  rw [encodePacketLength, if_neg hn, encodePacketLengthLoop_eq, List.nil_append]

theorem mem_encodePacketLength {n : ℕ} {b : UInt8} (hb : b ∈ encodePacketLength n) :
    b.toNat < 10 := by
  by_cases hn : n = 0
  · rw [hn] at hb
    simp [encodePacketLength] at hb
    simp [hb]
  · rw [encodePacketLength_eq hn, List.mem_map] at hb
    obtain ⟨d, hd, rfl⟩ := hb
    have hlt := Nat.digits_lt_base (by norm_num) hd
    rw [UInt8.toNat_ofNat']
    omega

theorem lengthValue_encodePacketLength (n : ℕ) : lengthValue (encodePacketLength n) = n := by
  by_cases hn : n = 0
  · subst hn
    rfl
  · have hmap : (Nat.digits 10 n).map (fun d ↦ (UInt8.ofNat d).toNat) = Nat.digits 10 n := by
      rw [List.map_congr_left (g := id) fun d hd ↦ ?_, List.map_id]
      have hlt := Nat.digits_lt_base (by norm_num) hd
      rw [UInt8.toNat_ofNat', id]
      omega
    rw [encodePacketLength_eq hn, lengthValue, List.map_map]
    exact (congrArg (Nat.ofDigits 10) hmap).trans (Nat.ofDigits_digits 10 n)

theorem encodePacketLength_ne_nil (n : ℕ) : encodePacketLength n ≠ [] := by
  by_cases hn : n = 0
  · subst hn
    simp [encodePacketLength]
  · rw [encodePacketLength_eq hn, Nat.digits_eq_cons_digits_div (by norm_num) hn]
    simp

theorem encodePacketLength_fits {n : ℕ} (hn : n < u32Size) (o : Overflow) :
    LengthFits o (encodePacketLength n) := by
  refine ⟨by rwa [lengthValue_encodePacketLength], ?_⟩
  intro _
  by_cases hz : n = 0
  · subst hz
    simp [encodePacketLength]
  · rw [encodePacketLength_eq hz, List.length_map, Nat.digits_length_le_iff (by norm_num)]
    exact lt_trans hn (by norm_num)

end SocketIoRust.EngineIoParser.BinaryFormat
