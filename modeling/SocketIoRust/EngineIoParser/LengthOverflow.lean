import SocketIoRust.EngineIoParser.StringFrames
import SocketIoRust.EngineIoParser.BinaryFrames

namespace SocketIoRust.EngineIoParser

open Library Library.Nom Library.Decimal Library.Framing
open Library.Outcome (ok err Agrees)

variable {τ ε α : Type}

/-- Every operation of the call has a result that fits: overflow checks do not make it
panic, and leaving them out does not change its answer. -/
def NoOverflow (decode : Overflow → List τ → Outcome ε α) (input : List τ) : Prop :=
  decode .checked input ≠ .panic ∧ decode .wrapping input = decode .checked input

theorem noOverflow_iff {decode : Overflow → List τ → Outcome ε α} {input : List τ}
    (h : Agrees (decode .checked input) (decode .wrapping input)) :
    NoOverflow decode input ↔ decode .checked input ≠ .panic := by
  constructor
  · intro hx
    exact hx.1
  · intro hx
    exact ⟨hx, h.resolve_left hx⟩

namespace StringFormat

variable {B : Base64.Codec}

variable (B) in
/-- A packet at the front whose announced length is that of its text, with its type and
its `b` counted, and what follows the packet. -/
inductive Whole : Str → Packet → Str → Prop
  | text {ds es s rest : Str} {t : PacketType} :
      MaximalRun Char.isDigit ds (':' :: (es ++ (s ++ rest))) → value ds < usizeSize →
      value ds = s.length + 1 → MaximalRun Char.isDigit es (s ++ rest) →
      value es = t.toU8.toNat → Whole (ds ++ ':' :: (es ++ (s ++ rest))) ⟨t, .text s⟩ rest
  | base64 {ds es x rest : Str} {t : PacketType} {d : Bytes} :
      MaximalRun Char.isDigit ds (':' :: 'b' :: (es ++ (x ++ rest))) → value ds < usizeSize →
      value ds = x.length + 2 → MaximalRun Char.isDigit es (x ++ rest) →
      value es = t.toU8.toNat → B.decode x = some d →
      Whole (ds ++ ':' :: 'b' :: (es ++ (x ++ rest))) ⟨t, .binary d⟩ rest

theorem accepts_iff_whole {input rest : Str} {p : Packet} :
    Accepts B .checked input p rest ↔ Whole B input p rest := by
  constructor
  · intro h
    cases h with
    | text hd hv hn hr ht =>
      obtain ⟨hle, hs⟩ := subtract_checked_eq_ok hn
      exact .text hd hv (by omega) hr ht
    | base64 hd hv hn hk hr ht hx =>
      obtain ⟨hle, rfl⟩ := subtract_checked_eq_ok hn
      obtain ⟨hle', hs⟩ := subtract_checked_eq_ok hk
      exact .base64 hd hv (by omega) hr ht hx
  · intro h
    cases h with
    | text hd hv hlen hr ht =>
      refine .text hd hv ?_ hr ht
      rw [subtract_of_le (by omega), hlen, Nat.add_sub_cancel]
    | @base64 ds es x rest t d hd hv hlen hr ht hx =>
      refine .base64 (n := x.length + 1) hd hv ?_ ?_ hr ht hx
      · rw [subtract_of_le (by omega), hlen]
        rfl
      · rw [subtract_of_le (by omega), Nat.add_sub_cancel]

theorem parseBase64StringPacket_agrees (n : ℕ) (input : Str) :
    Agrees (parseBase64StringPacket B .checked n input)
      (parseBase64StringPacket B .wrapping n input) := by
  rw [parseBase64StringPacket, parseBase64StringPacket]
  apply Agrees.bind (.refl _)
  intro x
  apply Agrees.bind (subtract_agrees usizeSize n 1)
  intro n
  exact .refl _

theorem parseStringPacketInPayload_agrees (input : Str) :
    Agrees (parseStringPacketInPayload B .checked input)
      (parseStringPacketInPayload B .wrapping input) := by
  rw [parseStringPacketInPayload, parseStringPacketInPayload]
  apply Agrees.bind (.refl _)
  intro x
  apply Agrees.bind (.refl _)
  intro y
  apply Agrees.bind (subtract_agrees usizeSize x.2 1)
  intro n
  exact alt_agrees (fun _ ↦ .refl _) (parseBase64StringPacket_agrees n) y.1

theorem decodePayload_noOverflow_iff (B : Base64.Codec) (input : Str) :
    NoOverflow (decodePayload B) input ↔
      ¬ ∃ ps rest, Reads (Whole B) input ps rest ∧ Underflows rest := by
  have hwhole : Accepts B .checked = Whole B := by
    funext i p r
    exact propext accepts_iff_whole
  have hagrees := decodeAll_agrees (e := unableToDecodePayload)
    (parseStringPacketInPayload_agrees (B := B)) input
  rw [← decodePayload_eq, ← decodePayload_eq] at hagrees
  rw [noOverflow_iff hagrees, ← hwhole, decodePayload_eq, Ne,
    decodeAll_panic_iff (parse_consuming B .checked) (parse_spec B .checked)]
  simp only [true_and]

end StringFormat

namespace BinaryFormat

/-- A packet at the front whose length bytes are at most ten, stand for a number below
`2 ^ 32` and announce its data with the byte of its type. -/
inductive Whole : Bytes → Packet → Bytes → Prop
  | string {ds es data rest : Bytes} {t : PacketType} :
      MaximalRun isLengthByte ds (255 :: (t.toU8 + 48) :: (es ++ (data ++ rest))) →
      LengthFits .checked ds → lengthValue ds = data.length + 1 →
      MaximalRun isDecDigit ((t.toU8 + 48) :: es) (data ++ rest) → Utf8.IsUtf8 data →
      Whole (0 :: (ds ++ 255 :: (t.toU8 + 48) :: (es ++ (data ++ rest)))) ⟨t, .binary data⟩ rest
  | binary {ds data rest : Bytes} {t : PacketType} :
      MaximalRun isLengthByte ds (255 :: t.toU8 :: (data ++ rest)) →
      LengthFits .checked ds → lengthValue ds = data.length + 1 →
      Whole (1 :: (ds ++ 255 :: t.toU8 :: (data ++ rest))) ⟨t, .binary data⟩ rest

theorem announces_checked {ds : Bytes} {n : ℕ} :
    Announces .checked ds n ↔ LengthFits .checked ds ∧ lengthValue ds = n + 1 := by
  constructor
  · intro h
    obtain ⟨l, hl, hn⟩ := h
    have hfit : LengthFits .checked ds := by
      by_contra hfit
      rw [packetLengthLoop_panics.mpr hfit] at hl
      cases hl
    rw [packetLengthLoop_of_fits hfit] at hl
    cases hl
    obtain ⟨hle, rfl⟩ := subtract_checked_eq_ok hn
    exact ⟨hfit, by omega⟩
  · intro h
    obtain ⟨hfit, hlen⟩ := h
    have hlt : lengthValue ds < u32Size := hfit.1
    apply (announces_iff hlen ?_).mpr hfit
    exact lt_trans (by omega : n + 1 < u32Size) (by norm_num)

theorem accepts_iff_whole {input rest : Bytes} {p : Packet} :
    Accepts .checked input p rest ↔ Whole input p rest := by
  constructor
  · intro h
    cases h with
    | string hd hn hr hu =>
      obtain ⟨hfit, hlen⟩ := announces_checked.mp hn
      exact .string hd hfit hlen hr hu
    | binary hd hn =>
      obtain ⟨hfit, hlen⟩ := announces_checked.mp hn
      exact .binary hd hfit hlen
  · intro h
    cases h with
    | string hd hfit hlen hr hu => exact .string hd (announces_checked.mpr ⟨hfit, hlen⟩) hr hu
    | binary hd hfit hlen => exact .binary hd (announces_checked.mpr ⟨hfit, hlen⟩)

theorem packetLengthLoop_agrees (ds : Bytes) (i acc : ℕ) :
    Agrees (packetLengthLoop .checked ds i acc) (packetLengthLoop .wrapping ds i acc) := by
  induction i generalizing acc with
  | zero => exact .refl _
  | succ i ih =>
    rw [packetLengthLoop, packetLengthLoop]
    apply Agrees.bind (fit_agrees u32Size _)
    intro power
    apply Agrees.bind (fit_agrees u32Size _)
    intro term
    apply Agrees.bind (fit_agrees u32Size _)
    exact ih

theorem parsePacketLength_agrees (input : Bytes) :
    Agrees (parsePacketLength .checked input) (parsePacketLength .wrapping input) := by
  rw [parsePacketLength, parsePacketLength]
  apply Agrees.bind (.refl _)
  intro x
  dsimp only
  split
  · exact .refl _
  · exact Agrees.bind (packetLengthLoop_agrees _ _ _) (fun _ ↦ .refl _)

theorem parseStringDataPacket_agrees (input : Bytes) (n : ℕ) :
    Agrees (parseStringDataPacket .checked input n) (parseStringDataPacket .wrapping input n) := by
  rw [parseStringDataPacket, parseStringDataPacket]
  apply Agrees.bind (.refl _)
  intro x
  apply Agrees.bind (.refl _)
  intro y
  dsimp only
  split
  · exact .refl _
  · exact Agrees.bind (subtract_agrees 256 _ 48) (fun _ ↦ .refl _)

theorem parseBinaryPacketInPayload_agrees (input : Bytes) :
    Agrees (parseBinaryPacketInPayload .checked input)
      (parseBinaryPacketInPayload .wrapping input) := by
  rw [parseBinaryPacketInPayload, parseBinaryPacketInPayload]
  apply Agrees.bind (.refl _)
  intro x
  apply Agrees.bind (parsePacketLength_agrees x.1)
  intro y
  apply Agrees.bind (.refl _)
  intro z
  apply Agrees.bind (subtract_agrees usizeSize y.2 1)
  intro n
  split
  · exact parseStringDataPacket_agrees z.1 n
  · exact .refl _

theorem decodePayload_noOverflow_iff (input : Bytes) :
    NoOverflow decodePayload input ↔
      ¬ ∃ ps rest, Reads Whole input ps rest ∧ Overflows rest := by
  have hwhole : Accepts .checked = Whole := by
    funext i p r
    exact propext accepts_iff_whole
  have hagrees := decodeAll_agrees (e := unableToDecodePayload)
    parseBinaryPacketInPayload_agrees input
  rw [← decodePayload_eq, ← decodePayload_eq] at hagrees
  rw [noOverflow_iff hagrees, ← hwhole, decodePayload_eq, Ne,
    decodeAll_panic_iff (parse_consuming .checked) (parse_spec .checked)]
  simp only [true_and]

end BinaryFormat

namespace LengthOverflow

/-- The arithmetic of the decoders fits exactly on the inputs in which no packet that is
reached has a length too small for what is subtracted from it, or too large for a `u32`. -/
theorem decodePayload_fits_iff (B : Base64.Codec) (str : Str) (bytes : Bytes) :
    (NoOverflow (StringFormat.decodePayload B) str ↔
      ¬ ∃ ps rest, Reads (StringFormat.Whole B) str ps rest ∧ StringFormat.Underflows rest) ∧
    (NoOverflow BinaryFormat.decodePayload bytes ↔
      ¬ ∃ ps rest, Reads BinaryFormat.Whole bytes ps rest ∧ BinaryFormat.Overflows rest) :=
  ⟨StringFormat.decodePayload_noOverflow_iff B str, BinaryFormat.decodePayload_noOverflow_iff bytes⟩

theorem decodePayload_zeroLength :
    ¬ (∀ str, NoOverflow (StringFormat.decodePayload Base64.standard) str) ∧
      ¬ ∀ bytes, NoOverflow BinaryFormat.decodePayload bytes := by
  constructor
  · intro h
    have hpanic : StringFormat.decodePayload Base64.standard .checked ['0', ':'] = .panic := by
      decide +kernel
    exact (h ['0', ':']).1 hpanic
  · intro h
    have hpanic : BinaryFormat.decodePayload .checked [1, 0, 255] = .panic := by decide +kernel
    exact (h [1, 0, 255]).1 hpanic

end LengthOverflow

end SocketIoRust.EngineIoParser
