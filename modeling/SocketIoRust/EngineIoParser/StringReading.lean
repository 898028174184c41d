import SocketIoRust.EngineIoParser.StringFormat
import SocketIoRust.Library.Framing

namespace SocketIoRust.EngineIoParser.StringFormat

open Library Library.Nom Library.Decimal
open Library.Outcome (ok err)

theorem takeU8_of_not_starts {input : Str} (h : starts Char.isDigit input = false) :
    takeU8 input = err (.error input .digit) := by
  rw [takeU8, number_of_not_starts h, Outcome.map_err]

section Runs

variable {es rest : Str} (hr : MaximalRun Char.isDigit es rest)
include hr

theorem takeU8_run (hv : value es < 256) :
    takeU8 (es ++ rest) = ok (rest, UInt8.ofNat (value es)) := by
  rw [takeU8, number_run hr hv, Outcome.map_ok]

theorem takeU8_overflow (hv : 256 ≤ value es) :
    takeU8 (es ++ rest) = err (.failure rest .digit) := by
  rw [takeU8, number_overflow hr hv, Outcome.map_err]

theorem takeU8_packetType {t : PacketType} (hv : value es = t.toU8.toNat) :
    takeU8 (es ++ rest) = ok (rest, t.toU8) := by
  have ht := t.toU8_lt
  rw [takeU8_run hr (by omega), hv, UInt8.ofNat_toNat]

end Runs

variable (B : Base64.Codec) (o : Overflow)

/-- The inputs of which `parseStringPacketInPayload` reads a packet, with what it leaves:
all the digits after the colon, not only the first, make up the packet type. -/
inductive Accepts : Str → Packet → Str → Prop
  | text {ds es s rest : Str} {t : PacketType} :
      MaximalRun Char.isDigit ds (':' :: (es ++ (s ++ rest))) → value ds < usizeSize →
      (subtract o usizeSize (value ds) 1 : Outcome (Err Str) ℕ) = ok s.length →
      MaximalRun Char.isDigit es (s ++ rest) → value es = t.toU8.toNat →
      Accepts (ds ++ ':' :: (es ++ (s ++ rest))) ⟨t, .text s⟩ rest
  | base64 {ds es x rest : Str} {t : PacketType} {n : ℕ} {d : Bytes} :
      MaximalRun Char.isDigit ds (':' :: 'b' :: (es ++ (x ++ rest))) → value ds < usizeSize →
      (subtract o usizeSize (value ds) 1 : Outcome (Err Str) ℕ) = ok n →
      (subtract o usizeSize n 1 : Outcome (Err Str) ℕ) = ok x.length →
      MaximalRun Char.isDigit es (x ++ rest) → value es = t.toU8.toNat → B.decode x = some d →
      Accepts (ds ++ ':' :: 'b' :: (es ++ (x ++ rest))) ⟨t, .binary d⟩ rest

/-- The inputs on which `parseStringPacketInPayload` fails for good: a length or a type
that does not fit its integer type, or a text that base64 rejects. -/
inductive Malformed : Str → Prop
  | length {ds rest : Str} : MaximalRun Char.isDigit ds rest → usizeSize ≤ value ds →
      Malformed (ds ++ rest)
  | textType {ds es rest : Str} {n : ℕ} :
      MaximalRun Char.isDigit ds (':' :: (es ++ rest)) → value ds < usizeSize →
      (subtract o usizeSize (value ds) 1 : Outcome (Err Str) ℕ) = ok n →
      MaximalRun Char.isDigit es rest → 256 ≤ value es →
      Malformed (ds ++ ':' :: (es ++ rest))
  | base64Type {ds es rest : Str} {n k : ℕ} :
      MaximalRun Char.isDigit ds (':' :: 'b' :: (es ++ rest)) → value ds < usizeSize →
      (subtract o usizeSize (value ds) 1 : Outcome (Err Str) ℕ) = ok n →
      (subtract o usizeSize n 1 : Outcome (Err Str) ℕ) = ok k →
      MaximalRun Char.isDigit es rest → 256 ≤ value es →
      Malformed (ds ++ ':' :: 'b' :: (es ++ rest))
  | base64 {ds es x rest : Str} {t : PacketType} {n : ℕ} :
      MaximalRun Char.isDigit ds (':' :: 'b' :: (es ++ (x ++ rest))) → value ds < usizeSize →
      (subtract o usizeSize (value ds) 1 : Outcome (Err Str) ℕ) = ok n →
      (subtract o usizeSize n 1 : Outcome (Err Str) ℕ) = ok x.length →
      MaximalRun Char.isDigit es (x ++ rest) → value es = t.toU8.toNat → B.decode x = none →
      Malformed (ds ++ ':' :: 'b' :: (es ++ (x ++ rest)))

/-- The inputs on which the length is too small for what has to be subtracted from it. -/
inductive Underflows : Str → Prop
  | zero {ds rest : Str} : MaximalRun Char.isDigit ds (':' :: rest) → value ds = 0 →
      Underflows (ds ++ ':' :: rest)
  | one {ds rest : Str} : MaximalRun Char.isDigit ds (':' :: 'b' :: rest) → value ds = 1 →
      Underflows (ds ++ ':' :: 'b' :: rest)

variable {B o}

theorem parse_of_length {ds rest : Str} {n : ℕ} (hd : MaximalRun Char.isDigit ds (':' :: rest))
    (hv : value ds < usizeSize)
    (hn : (subtract o usizeSize (value ds) 1 : Outcome (Err Str) ℕ) = ok n) :
    parseStringPacketInPayload B o (ds ++ ':' :: rest) =
      alt (parsePlaintextStringPacket n) (parseBase64StringPacket B o n) rest := by
  rw [parseStringPacketInPayload, takeUsize, number_run hd hv, Outcome.ok_bind]
  simp only [char, if_true, Outcome.ok_bind, hn]

theorem plaintext_run {es rest : Str} {n : ℕ} {t : PacketType} (hr : MaximalRun Char.isDigit es rest)
    (ht : value es = t.toU8.toNat) :
    parsePlaintextStringPacket n (es ++ rest) =
      (take n rest).bind (fun x ↦ ok (x.1, ⟨t, .text x.2⟩)) := by
  rw [parsePlaintextStringPacket, parseStringPacket, takeU8_packetType hr ht, Outcome.ok_bind]
  dsimp only
  cases take n rest with
  | ok x => simp only [Outcome.ok_bind, PacketType.parseFromU8_toU8, Outcome.bind]
  | err e => rfl
  | panic => rfl

theorem base64_run {es rest : Str} {n k : ℕ} {t : PacketType}
    (hk : (subtract o usizeSize n 1 : Outcome (Err Str) ℕ) = ok k)
    (hr : MaximalRun Char.isDigit es rest) (ht : value es = t.toU8.toNat) :
    parseBase64StringPacket B o n ('b' :: (es ++ rest)) =
      (take k rest).bind (fun x ↦ match B.decode x.2 with
        | some d => ok (x.1, ⟨t, .binary d⟩)
        | none => err (.failure x.1 .takeWhile1)) := by
  simp only [parseBase64StringPacket, char, if_true, Outcome.ok_bind, hk, takeU8_packetType hr ht]
  cases take k rest with
  | ok x => simp only [Outcome.ok_bind, PacketType.parseFromU8_toU8, Outcome.bind]; rfl
  | err e => rfl
  | panic => rfl

/-- After a digit the base64 alternative is out of the question. -/
theorem base64_of_run {es rest : Str} {n : ℕ} (hr : MaximalRun Char.isDigit es rest) :
    parseBase64StringPacket B o n (es ++ rest) = err (.error (es ++ rest) .char) := by
  cases es with
  | nil => exact absurd rfl hr.ne_nil
  | cons c es =>
    have hc : c ≠ 'b' := by
      intro he
      subst he
      exact absurd (hr.all 'b' (by simp)) (by decide)
    simp [parseBase64StringPacket, char, hc]

theorem plaintext_of_not_starts {input : Str} {n : ℕ} (h : starts Char.isDigit input = false) :
    parsePlaintextStringPacket n input = err (.error input .digit) := by
  rw [parsePlaintextStringPacket, parseStringPacket, takeU8_of_not_starts h, Outcome.err_bind]

theorem alt_marker {rest : Str} {n : ℕ} :
    alt (parsePlaintextStringPacket n) (parseBase64StringPacket B o n) ('b' :: rest) =
      parseBase64StringPacket B o n ('b' :: rest) :=
  alt_of_error (plaintext_of_not_starts (by rfl))

theorem parse_of_accepts {input rest : Str} {p : Packet} (h : Accepts B o input p rest) :
    parseStringPacketInPayload B o input = ok (rest, p) := by
  cases h with
  | text hd hv hn hr ht =>
    rw [parse_of_length hd hv hn, alt, plaintext_run hr ht, take_append]
    rfl
  | @base64 ds es x rest t n d hd hv hn hk hr ht hx =>
    rw [parse_of_length hd hv hn, alt_marker, base64_run hk hr ht, take_append]
    simp only [Outcome.bind, hx]

theorem parse_of_malformed {input : Str} (h : Malformed B o input) :
    ∃ j k, parseStringPacketInPayload B o input = err (.failure j k) := by
  cases h with
  | @length ds rest hd hv =>
    refine ⟨rest, .digit, ?_⟩
    rw [parseStringPacketInPayload, takeUsize, number_overflow hd hv, Outcome.err_bind]
  | @textType ds es rest n hd hv hn hr ht =>
    refine ⟨rest, .digit, ?_⟩
    rw [parse_of_length hd hv hn, alt, parsePlaintextStringPacket, parseStringPacket,
      takeU8_overflow hr ht, Outcome.err_bind]
  | @base64Type ds es rest n k hd hv hn hk hr ht =>
    refine ⟨rest, .digit, ?_⟩
    rw [parse_of_length hd hv hn, alt_marker, parseBase64StringPacket]
    simp only [char, if_true, Outcome.ok_bind, hk, takeU8_overflow hr ht, Outcome.err_bind]
  | @base64 ds es x rest t n hd hv hn hk hr ht hx =>
    refine ⟨rest, .takeWhile1, ?_⟩
    rw [parse_of_length hd hv hn, alt_marker, base64_run hk hr ht, take_append]
    simp only [Outcome.bind, hx]

theorem parse_of_underflows {input : Str} (h : Underflows input) :
    parseStringPacketInPayload B .checked input = .panic := by
  cases h with
  | zero hd hv =>
    rw [parseStringPacketInPayload, takeUsize, number_run hd (by rw [hv]; decide), Outcome.ok_bind]
    simp [char, subtract, hv]
  | @one ds rest hd hv =>
    have hn : (subtract .checked usizeSize (value ds) 1 : Outcome (Err Str) ℕ) = ok 0 := by
      rw [hv]; rfl
    rw [parse_of_length hd (by rw [hv]; decide) hn, alt_marker, parseBase64StringPacket]
    simp [char, subtract]

theorem plaintext_cases {es rest : Str} (n : ℕ) (hr : MaximalRun Char.isDigit es rest)
    (hv : value es < 256) :
    (∃ s r t, rest = s ++ r ∧ s.length = n ∧ value es = (PacketType.toU8 t).toNat) ∨
      ∃ j k, parsePlaintextStringPacket n (es ++ rest) = err (.error j k) := by
  by_cases hn : n ≤ rest.length
  · rcases PacketType.exists_of_toNat_lt hv (rest.drop n) with ⟨t, ht⟩ | ht
    · exact .inl ⟨rest.take n, rest.drop n, t, (List.take_append_drop n rest).symm,
        List.length_take_of_le hn, ht⟩
    · refine .inr ⟨rest.drop n, .digit, ?_⟩
      rw [parsePlaintextStringPacket, parseStringPacket, takeU8_run hr hv, Outcome.ok_bind]
      simp only [take, hn, if_true, Outcome.ok_bind, ht, Outcome.err_bind]
  · refine .inr ⟨rest, .eof, ?_⟩
    rw [parsePlaintextStringPacket, parseStringPacket, takeU8_run hr hv, Outcome.ok_bind]
    simp only [take, hn, if_false, Outcome.err_bind]

theorem base64_cases {es rest : Str} {n k : ℕ}
    (hk : (subtract o usizeSize n 1 : Outcome (Err Str) ℕ) = ok k)
    (hr : MaximalRun Char.isDigit es rest) (hv : value es < 256) :
    (∃ x r t, rest = x ++ r ∧ x.length = k ∧ value es = (PacketType.toU8 t).toNat) ∨
      ∃ j e, parseBase64StringPacket B o n ('b' :: (es ++ rest)) = err (.error j e) := by
  by_cases hn : k ≤ rest.length
  · rcases PacketType.exists_of_toNat_lt hv (rest.drop k) with ⟨t, ht⟩ | ht
    · exact .inl ⟨rest.take k, rest.drop k, t, (List.take_append_drop k rest).symm,
        List.length_take_of_le hn, ht⟩
    · refine .inr ⟨rest.drop k, .digit, ?_⟩
      simp only [parseBase64StringPacket, char, if_true, Outcome.ok_bind, hk, takeU8_run hr hv,
        take, hn, ht, Outcome.err_bind]
  · refine .inr ⟨rest, .eof, ?_⟩
    simp only [parseBase64StringPacket, char, if_true, Outcome.ok_bind, hk, takeU8_run hr hv, take,
      hn, if_false, Outcome.err_bind]

variable (B o) in
/-- One of the four things that can become of an input. -/
def Classified (input : Str) : Prop :=
  (∃ p rest, Accepts B o input p rest) ∨ Malformed B o input ∨ (o = .checked ∧ Underflows input) ∨
    ∃ j k, parseStringPacketInPayload B o input = err (.error j k)

theorem classified_of_not_colon {ds rest : Str} (hd : MaximalRun Char.isDigit ds rest)
    (hv : value ds < usizeSize) (hcolon : ∀ r, rest ≠ ':' :: r) : Classified B o (ds ++ rest) := by
  refine .inr (.inr (.inr ⟨rest, .char, ?_⟩))
  rw [parseStringPacketInPayload, takeUsize, number_run hd hv, Outcome.ok_bind]
  cases rest with
  | nil => rfl
  | cons c r =>
    have hc : c ≠ ':' := fun hc ↦ hcolon r (by rw [hc])
    simp [char, hc]

section AfterLength

variable {ds rest : Str} {n : ℕ} (hv : value ds < usizeSize)
  (hn : (subtract o usizeSize (value ds) 1 : Outcome (Err Str) ℕ) = ok n)
include hv hn

theorem classified_text {es : Str} (hd : MaximalRun Char.isDigit ds (':' :: (es ++ rest)))
    (hr : MaximalRun Char.isDigit es rest) : Classified B o (ds ++ ':' :: (es ++ rest)) := by
  by_cases he : value es < 256
  · rcases plaintext_cases n hr he with ⟨s, r, t, rfl, rfl, ht⟩ | ⟨j, e, hj⟩
    · exact .inl ⟨_, _, .text hd hv hn hr ht⟩
    · refine .inr (.inr (.inr ⟨es ++ rest, .char, ?_⟩))
      rw [parse_of_length hd hv hn, alt_of_error hj, base64_of_run hr]
  · exact .inr (.inl (.textType hd hv hn hr (Nat.not_lt.mp he)))

theorem classified_marker (hd : MaximalRun Char.isDigit ds (':' :: 'b' :: rest)) :
    Classified B o (ds ++ ':' :: 'b' :: rest) := by
  rcases subtract_cases (ε := Err Str) o usizeSize n 1 with ⟨k, hk⟩ | ⟨ho, hlt, -⟩
  swap
  · subst ho
    obtain ⟨hle, rfl⟩ := subtract_checked_eq_ok hn
    exact .inr (.inr (.inl ⟨rfl, .one hd (by omega)⟩))
  rcases starts_or_run Char.isDigit rest with hs | ⟨es, rest, rfl, hr⟩
  · refine .inr (.inr (.inr ⟨rest, .digit, ?_⟩))
    rw [parse_of_length hd hv hn, alt_marker, parseBase64StringPacket]
    simp only [char, if_true, Outcome.ok_bind, hk, takeU8_of_not_starts hs, Outcome.err_bind]
  by_cases he : value es < 256
  swap
  · exact .inr (.inl (.base64Type hd hv hn hk hr (Nat.not_lt.mp he)))
  rcases base64_cases (B := B) hk hr he with ⟨x, r, t, rfl, hx, ht⟩ | ⟨j, e, hj⟩
  · cases hdec : B.decode x with
    | some d => exact .inl ⟨_, _, .base64 hd hv hn (by rw [hk, hx]) hr ht hdec⟩
    | none => exact .inr (.inl (.base64 hd hv hn (by rw [hk, hx]) hr ht hdec))
  · exact .inr (.inr (.inr ⟨j, e, by rw [parse_of_length hd hv hn, alt_marker, hj]⟩))

theorem classified_of_not_marker (hd : MaximalRun Char.isDigit ds (':' :: rest))
    (hs : starts Char.isDigit rest = false) (hb : ∀ r, rest ≠ 'b' :: r) :
    Classified B o (ds ++ ':' :: rest) := by
  refine .inr (.inr (.inr ⟨rest, .char, ?_⟩))
  rw [parse_of_length hd hv hn, alt_of_error (plaintext_of_not_starts hs), parseBase64StringPacket]
  cases rest with
  | nil => rfl
  | cons c r =>
    have hc : c ≠ 'b' := fun hc ↦ hb r (by rw [hc])
    simp [char, hc]

end AfterLength

/-- Every input is read as a packet, fails, underflows, or is rejected recoverably. -/
theorem parse_cases (B : Base64.Codec) (o : Overflow) (input : Str) : Classified B o input := by
  rcases starts_or_run Char.isDigit input with hs | ⟨ds, r, rfl, hd⟩
  · refine .inr (.inr (.inr ⟨input, .digit, ?_⟩))
    rw [parseStringPacketInPayload, takeUsize, number_of_not_starts hs, Outcome.err_bind]
  by_cases hv : value ds < usizeSize
  swap
  · exact .inr (.inl (.length hd (Nat.not_lt.mp hv)))
  by_cases hcolon : ∃ r', r = ':' :: r'
  swap
  · exact classified_of_not_colon hd hv (fun r' hr ↦ hcolon ⟨r', hr⟩)
  obtain ⟨r, rfl⟩ := hcolon
  rcases subtract_cases (ε := Err Str) o usizeSize (value ds) 1 with ⟨n, hn⟩ | ⟨ho, hlt, -⟩
  swap
  · exact .inr (.inr (.inl ⟨ho, .zero hd (by omega)⟩))
  rcases starts_or_run Char.isDigit r with hs | ⟨es, r, rfl, hr⟩
  · -- not a digit: only a `b` can follow
    by_cases hb : ∃ r', r = 'b' :: r'
    · obtain ⟨r, rfl⟩ := hb
      exact classified_marker hv hn hd
    · exact classified_of_not_marker hv hn hd hs (fun r' hr ↦ hb ⟨r', hr⟩)
  · exact classified_text hv hn hd hr

theorem parse_spec (B : Base64.Codec) (o : Overflow) :
    Spec (parseStringPacketInPayload B o) (Accepts B o) (Malformed B o)
      (fun input ↦ o = .checked ∧ Underflows input) where
  accepts := parse_of_accepts
  fails := parse_of_malformed
  panics h := by
    obtain ⟨rfl, h⟩ := h
    exact parse_of_underflows h
  cases := parse_cases B o

theorem parse_consuming (B : Base64.Codec) (o : Overflow) :
    Consuming (parseStringPacketInPayload B o) := by
  intro input rest p h
  cases (parse_spec B o).yields_iff.mp h with
  | text => simp only [List.length_append, List.length_cons]; omega
  | base64 => simp only [List.length_append, List.length_cons]; omega

end SocketIoRust.EngineIoParser.StringFormat
