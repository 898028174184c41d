import SocketIoRust.EngineIoParser.BinaryLength

namespace SocketIoRust.EngineIoParser.BinaryFormat

open Library Library.Nom
open Library.Outcome (ok err)

def isLengthByte (b : UInt8) : Bool := !(b == 255)

theorem packetDataType_cases (input : Bytes) :
    (input = [] ∧ parsePacketDataTypeInBinaryPayload input = err (.error [] .eof)) ∨
      ∃ k r, input = k :: r ∧
        ((k ≠ 0 ∧ k ≠ 1 ∧ parsePacketDataTypeInBinaryPayload input = err (.failure r .digit)) ∨
          ((k = 0 ∨ k = 1) ∧ parsePacketDataTypeInBinaryPayload input = ok (r, k))) := by
  cases input with
  | nil => exact .inl ⟨rfl, rfl⟩
  | cons k r =>
    refine .inr ⟨k, r, rfl, ?_⟩
    have hparse : parsePacketDataTypeInBinaryPayload (k :: r) =
        if k = 0 ∨ k = 1 then ok (r, k) else err (.failure r .digit) := by
      simp [parsePacketDataTypeInBinaryPayload, take]
    rw [hparse]
    by_cases hk : k = 0 ∨ k = 1
    · exact .inr ⟨hk, by rw [if_pos hk]⟩
    · rw [not_or] at hk
      exact .inl ⟨hk.1, hk.2, by rw [if_neg (by simp [hk])]⟩

theorem packetDataType_marker {k : UInt8} (hk : k = 0 ∨ k = 1) (r : Bytes) :
    parsePacketDataTypeInBinaryPayload (k :: r) = ok (r, k) := by
  simp [parsePacketDataTypeInBinaryPayload, take, hk]

theorem parsePacketLength_run {o : Overflow} {ds rest : Bytes}
    (h : MaximalRun isLengthByte ds rest) :
    parsePacketLength o (ds ++ rest) =
      (packetLengthLoop o ds ds.length 0).map (fun n ↦ (rest, n)) := by
  have htake : takeTill1 (fun b ↦ b == 255) (ds ++ rest) = ok (rest, ds) :=
    h.takeWhile1_eq .takeTill1
  have hlen : ds.length ≠ 0 := fun hz ↦ h.ne_nil (List.length_eq_zero_iff.mp hz)
  rw [parsePacketLength, htake, Outcome.ok_bind]
  dsimp only
  rw [if_neg hlen]
  cases packetLengthLoop o ds ds.length 0 <;> rfl

theorem parsePacketLength_of_not_starts {o : Overflow} {input : Bytes}
    (h : starts isLengthByte input = false) :
    parsePacketLength o input = err (.error input .takeTill1) := by
  have htake : takeTill1 (fun b ↦ b == 255) input = err (.error input .takeTill1) :=
    takeWhile1_of_not_starts h .takeTill1
  rw [parsePacketLength, htake, Outcome.err_bind]

/-- The length bytes make the parser take `n` bytes of data. -/
def Announces (o : Overflow) (ds : Bytes) (n : ℕ) : Prop :=
  ∃ l, packetLengthLoop o ds ds.length 0 = ok l ∧
    (subtract o usizeSize l 1 : Outcome (Err Bytes) ℕ) = ok n

theorem announces_iff {o : Overflow} {ds : Bytes} {n : ℕ} (h : lengthValue ds = n + 1)
    (hn : n + 1 < usizeSize) : Announces o ds n ↔ LengthFits o ds := by
  constructor
  · intro hx
    obtain ⟨l, hl, hs⟩ := hx
    cases o with
    | checked =>
      by_contra hfit
      rw [packetLengthLoop_panics.mpr hfit] at hl
      cases hl
    | wrapping =>
      rw [packetLengthLoop_wrapping ds _ _ (by norm_num) (by rw [List.take_length]; omega),
        List.take_length, Nat.zero_add] at hl
      cases hl
      refine ⟨?_, fun ho ↦ nomatch ho⟩
      have hmod : lengthValue ds % u32Size < u32Size := Nat.mod_lt _ (by norm_num)
      have hle := Nat.mod_le (lengthValue ds) u32Size
      unfold subtract at hs
      split at hs
      · have hs := Outcome.ok.inj hs
        omega
      · have hs := Outcome.ok.inj hs
        omega
  · intro hfit
    refine ⟨_, packetLengthLoop_of_fits hfit, ?_⟩
    rw [subtract_of_le (by omega), h, Nat.add_sub_cancel]

variable (o : Overflow)

/-- The inputs of which `parseBinaryPacketInPayload` reads a packet, with what it leaves:
string data are returned as bytes, and all the ASCII digits before them are taken for
the packet type, which is the first of them. -/
inductive Accepts : Bytes → Packet → Bytes → Prop
  | string {ds es data rest : Bytes} {t : PacketType} :
      MaximalRun isLengthByte ds (255 :: (t.toU8 + 48) :: (es ++ (data ++ rest))) →
      Announces o ds data.length →
      MaximalRun isDecDigit ((t.toU8 + 48) :: es) (data ++ rest) → Utf8.IsUtf8 data →
      Accepts (0 :: (ds ++ 255 :: (t.toU8 + 48) :: (es ++ (data ++ rest)))) ⟨t, .binary data⟩ rest
  | binary {ds data rest : Bytes} {t : PacketType} :
      MaximalRun isLengthByte ds (255 :: t.toU8 :: (data ++ rest)) →
      Announces o ds data.length →
      Accepts (1 :: (ds ++ 255 :: t.toU8 :: (data ++ rest))) ⟨t, .binary data⟩ rest

/-- The inputs on which `parseBinaryPacketInPayload` fails for good: neither a string nor
a binary packet, or string data that are not UTF-8. -/
inductive Malformed : Bytes → Prop
  | dataType {k : UInt8} {rest : Bytes} : k ≠ 0 → k ≠ 1 → Malformed (k :: rest)
  | utf8 {ds es data rest : Bytes} {t : PacketType} :
      MaximalRun isLengthByte ds (255 :: (t.toU8 + 48) :: (es ++ (data ++ rest))) →
      Announces o ds data.length →
      MaximalRun isDecDigit ((t.toU8 + 48) :: es) (data ++ rest) → ¬ Utf8.IsUtf8 data →
      Malformed (0 :: (ds ++ 255 :: (t.toU8 + 48) :: (es ++ (data ++ rest))))

/-- The inputs whose length does not fit a `u32`, or is zero. -/
inductive Overflows : Bytes → Prop
  | length {k : UInt8} {ds rest : Bytes} : k = 0 ∨ k = 1 → MaximalRun isLengthByte ds rest →
      ¬ LengthFits .checked ds → Overflows (k :: (ds ++ rest))
  | zero {k : UInt8} {ds rest : Bytes} : k = 0 ∨ k = 1 →
      MaximalRun isLengthByte ds (255 :: rest) → lengthValue ds = 0 →
      Overflows (k :: (ds ++ 255 :: rest))

variable {o}

theorem parse_of_announces {k : UInt8} {ds rest : Bytes} {n : ℕ} (hk : k = 0 ∨ k = 1)
    (hd : MaximalRun isLengthByte ds (255 :: rest)) (hn : Announces o ds n) :
    parseBinaryPacketInPayload o (k :: (ds ++ 255 :: rest)) =
      if k = 0 then parseStringDataPacket o rest n else parseBinaryDataPacket rest (some n) := by
  obtain ⟨l, hl, hs⟩ := hn
  have htake : take 1 ((255 : UInt8) :: rest) = ok (rest, [255]) := take_append [255] rest
  rw [parseBinaryPacketInPayload, packetDataType_marker hk, Outcome.ok_bind]
  dsimp only
  rw [parsePacketLength_run hd, hl, Outcome.map_ok, Outcome.ok_bind]
  dsimp only
  rw [htake, Outcome.ok_bind]
  dsimp only
  rw [hs, Outcome.ok_bind]

theorem binaryData_cases (input : Bytes) (n : ℕ) :
    (∃ t data rest, input = PacketType.toU8 t :: (data ++ rest) ∧ data.length = n) ∨
      ∃ j k, parseBinaryDataPacket input (some n) = err (.error j k) := by
  cases input with
  | nil => exact .inr ⟨[], .eof, rfl⟩
  | cons b r =>
    by_cases hn : n ≤ r.length
    · rcases PacketType.parseFromU8_cases b (r.drop n) with ⟨t, rfl, -⟩ | he
      · exact .inl ⟨t, r.take n, r.drop n, by rw [List.take_append_drop],
          List.length_take_of_le hn⟩
      · refine .inr ⟨r.drop n, .digit, ?_⟩
        simp [parseBinaryDataPacket, leU8, take, hn, he]
    · refine .inr ⟨r, .eof, ?_⟩
      simp [parseBinaryDataPacket, leU8, take, hn]

theorem binaryData_append (t : PacketType) (data rest : Bytes) :
    parseBinaryDataPacket (t.toU8 :: (data ++ rest)) (some data.length) =
      ok (rest, ⟨t, .binary data⟩) := by
  simp only [parseBinaryDataPacket, leU8, Outcome.ok_bind, Option.getD_some, take_append,
    PacketType.parseFromU8_toU8]
  rfl

theorem subtract_ascii {b : UInt8} (hb : isDecDigit b = true) :
    (subtract o 256 b.toNat 48 : Outcome (Err Bytes) ℕ) = ok (b.toNat - 48) := by
  unfold isDecDigit at hb
  simp only [Bool.and_eq_true, decide_eq_true_eq, UInt8.le_iff_toNat_le] at hb
  exact subtract_of_le hb.1

theorem ofNat_ascii {b : UInt8} (hb : isDecDigit b = true) :
    UInt8.ofNat (b.toNat - 48) + 48 = b := by
  unfold isDecDigit at hb
  simp only [Bool.and_eq_true, decide_eq_true_eq, UInt8.le_iff_toNat_le] at hb
  have h48 : (48 : UInt8).toNat = 48 := rfl
  have h57 : (57 : UInt8).toNat = 57 := rfl
  rw [h48, h57] at hb
  apply UInt8.toNat.inj
  rw [UInt8.toNat_add, UInt8.toNat_ofNat', h48]
  omega

theorem ascii_toU8 (t : PacketType) : UInt8.ofNat ((t.toU8 + 48).toNat - 48) = t.toU8 := by
  cases t <;> rfl

theorem stringData_run {t : PacketType} {es data rest : Bytes}
    (hr : MaximalRun isDecDigit ((t.toU8 + 48) :: es) (data ++ rest)) :
    parseStringDataPacket o ((t.toU8 + 48) :: (es ++ (data ++ rest))) data.length =
      if Utf8.IsUtf8 data then ok (rest, ⟨t, .binary data⟩)
      else err (.failure rest .alphaNumeric) := by
  have hdigit : digit1Bytes ((t.toU8 + 48) :: (es ++ (data ++ rest))) =
      ok (data ++ rest, (t.toU8 + 48) :: es) := hr.takeWhile1_eq .digit
  have hsub := subtract_ascii (o := o) (hr.all _ (List.mem_cons_self ..))
  simp only [parseStringDataPacket, hdigit, Outcome.ok_bind, take_append, hsub, ascii_toU8,
    PacketType.parseFromU8_toU8]
  rfl

theorem stringData_cases (o : Overflow) (input : Bytes) (n : ℕ) :
    (∃ t es data rest, input = (PacketType.toU8 t + 48) :: (es ++ (data ++ rest)) ∧
      MaximalRun isDecDigit ((PacketType.toU8 t + 48) :: es) (data ++ rest) ∧ data.length = n) ∨
      ∃ j k, parseStringDataPacket o input n = err (.error j k) := by
  rcases starts_or_run isDecDigit input with hs | ⟨run, r, rfl, hr⟩
  · refine .inr ⟨input, .digit, ?_⟩
    rw [parseStringDataPacket, digit1Bytes, takeWhile1_of_not_starts hs, Outcome.err_bind]
  have hdigit : digit1Bytes (run ++ r) = ok (r, run) := hr.takeWhile1_eq .digit
  cases run with
  | nil => exact absurd rfl hr.ne_nil
  | cons b es =>
    have hb := hr.all b (List.mem_cons_self ..)
    by_cases hn : n ≤ r.length
    · rcases PacketType.parseFromU8_cases (UInt8.ofNat (b.toNat - 48)) (r.drop n) with
        ⟨t, ht, -⟩ | he
      · have hbt : b = t.toU8 + 48 := by rw [← ht, ofNat_ascii hb]
        subst hbt
        refine .inl ⟨t, es, r.take n, r.drop n, ?_, ?_, List.length_take_of_le hn⟩
        · rw [List.take_append_drop, List.cons_append]
        · rwa [List.take_append_drop]
      · refine .inr ⟨r.drop n, .digit, ?_⟩
        simp only [parseStringDataPacket, hdigit, Outcome.ok_bind, take, hn, if_true,
          subtract_ascii hb, he, Outcome.err_bind]
    · refine .inr ⟨r, .eof, ?_⟩
      simp only [parseStringDataPacket, hdigit, Outcome.ok_bind, take, hn, if_false,
        Outcome.err_bind]

theorem parse_of_accepts {input rest : Bytes} {p : Packet} (h : Accepts o input p rest) :
    parseBinaryPacketInPayload o input = ok (rest, p) := by
  cases h with
  | string hd hn hr hu => rw [parse_of_announces (.inl rfl) hd hn, if_pos rfl, stringData_run hr,
      if_pos hu]
  | binary hd hn => rw [parse_of_announces (.inr rfl) hd hn, if_neg (by decide), binaryData_append]

theorem parse_of_malformed {input : Bytes} (h : Malformed o input) :
    ∃ j k, parseBinaryPacketInPayload o input = err (.failure j k) := by
  cases h with
  | @dataType k rest h0 h1 =>
    refine ⟨rest, .digit, ?_⟩
    unfold parseBinaryPacketInPayload
    rcases packetDataType_cases (k :: rest) with ⟨hnil, -⟩ | ⟨k', r, he, h | ⟨hk, -⟩⟩
    · cases hnil
    · cases he
      rw [h.2.2, Outcome.err_bind]
    · cases he
      exact absurd hk (by simp [h0, h1])
  | @utf8 ds es data rest t hd hn hr hu =>
    exact ⟨rest, .alphaNumeric, by
      rw [parse_of_announces (.inl rfl) hd hn, if_pos rfl, stringData_run hr, if_neg hu]⟩

theorem parse_of_overflows {input : Bytes} (h : Overflows input) :
    parseBinaryPacketInPayload .checked input = .panic := by
  have hlength {k : UInt8} {ds rest : Bytes} (hk : k = 0 ∨ k = 1)
      (hd : MaximalRun isLengthByte ds rest) (hfit : ¬ LengthFits .checked ds) :
      parseBinaryPacketInPayload .checked (k :: (ds ++ rest)) = .panic := by
    rw [parseBinaryPacketInPayload, packetDataType_marker hk, Outcome.ok_bind]
    dsimp only
    rw [parsePacketLength_run hd, packetLengthLoop_panics.mpr hfit, Outcome.map_panic,
      Outcome.panic_bind]
  cases h with
  | length hk hd hfit => exact hlength hk hd hfit
  | @zero k ds rest hk hd hz =>
    by_cases hfit : LengthFits .checked ds
    swap
    · exact hlength hk hd hfit
    have htake : take 1 ((255 : UInt8) :: rest) = ok (rest, [255]) := take_append [255] rest
    rw [parseBinaryPacketInPayload, packetDataType_marker hk, Outcome.ok_bind]
    dsimp only
    rw [parsePacketLength_run hd, packetLengthLoop_of_fits hfit, hz, Outcome.map_ok,
      Outcome.ok_bind]
    dsimp only
    rw [htake, Outcome.ok_bind]
    rfl

theorem announces_cases (o : Overflow) {k : UInt8} {ds rest : Bytes} (hk : k = 0 ∨ k = 1)
    (hd : MaximalRun isLengthByte ds (255 :: rest)) :
    (∃ n, Announces o ds n) ∨ (o = .checked ∧ Overflows (k :: (ds ++ 255 :: rest))) := by
  rcases packetLengthLoop_cases o ds ds.length 0 with ⟨l, hl⟩ | ⟨rfl, hl⟩
  swap
  · exact .inr ⟨rfl, .length hk hd (packetLengthLoop_panics.mp hl)⟩
  rcases subtract_cases (ε := Err Bytes) o usizeSize l 1 with ⟨n, hn⟩ | ⟨rfl, hlt, -⟩
  · exact .inl ⟨n, l, hl, hn⟩
  · refine .inr ⟨rfl, ?_⟩
    by_cases hfit : LengthFits .checked ds
    · rw [packetLengthLoop_of_fits hfit] at hl
      have hl := Outcome.ok.inj hl
      exact .zero hk hd (by omega)
    · exact .length hk hd hfit

/-- Every input is read as a packet, fails, overflows, or is rejected recoverably. -/
theorem parse_cases (o : Overflow) (input : Bytes) :
    (∃ p rest, Accepts o input p rest) ∨ Malformed o input ∨
      (o = .checked ∧ Overflows input) ∨
      ∃ j k, parseBinaryPacketInPayload o input = err (.error j k) := by
  rcases packetDataType_cases input with ⟨rfl, -⟩ | ⟨k, r, rfl, ⟨h0, h1, -⟩ | ⟨hk, hr⟩⟩
  · exact .inr (.inr (.inr ⟨[], .eof, rfl⟩))
  · exact .inr (.inl (.dataType h0 h1))
  rcases starts_or_run isLengthByte r with hs | ⟨ds, r, rfl, hd⟩
  · refine .inr (.inr (.inr ⟨r, .takeTill1, ?_⟩))
    rw [parseBinaryPacketInPayload, hr, Outcome.ok_bind]
    dsimp only
    rw [parsePacketLength_of_not_starts hs, Outcome.err_bind]
  cases r with
  | nil =>
    -- the separator is missing
    rcases packetLengthLoop_cases o ds ds.length 0 with ⟨l, hl⟩ | ⟨rfl, hl⟩
    · refine .inr (.inr (.inr ⟨[], .eof, ?_⟩))
      rw [parseBinaryPacketInPayload, hr, Outcome.ok_bind]
      dsimp only
      rw [parsePacketLength_run hd, hl, Outcome.map_ok, Outcome.ok_bind]
      rfl
    · exact .inr (.inr (.inl ⟨rfl, .length hk hd (packetLengthLoop_panics.mp hl)⟩))
  | cons b r =>
    have hb : b = 255 := by
      have hstop := hd.stop
      simpa [isLengthByte] using hstop
    subst hb
    rcases announces_cases o hk hd with ⟨n, hn⟩ | ho
    swap
    · exact .inr (.inr (.inl ho))
    rw [parse_of_announces hk hd hn]
    rcases hk with rfl | rfl
    · rw [if_pos rfl]
      rcases stringData_cases o r n with ⟨t, es, data, rest, rfl, hes, rfl⟩ | he
      · by_cases hu : Utf8.IsUtf8 data
        · exact .inl ⟨_, _, .string hd hn hes hu⟩
        · exact .inr (.inl (.utf8 hd hn hes hu))
      · exact .inr (.inr (.inr he))
    · rw [if_neg (by decide)]
      rcases binaryData_cases r n with ⟨t, data, rest, rfl, rfl⟩ | he
      · exact .inl ⟨_, _, .binary hd hn⟩
      · exact .inr (.inr (.inr he))

theorem parse_spec (o : Overflow) :
    Spec (parseBinaryPacketInPayload o) (Accepts o) (Malformed o)
      (fun input ↦ o = .checked ∧ Overflows input) where
  accepts := parse_of_accepts
  fails := parse_of_malformed
  panics h := by
    obtain ⟨rfl, h⟩ := h
    exact parse_of_overflows h
  cases := parse_cases o

theorem parse_consuming (o : Overflow) : Consuming (parseBinaryPacketInPayload o) := by
  intro input rest p h
  cases (parse_spec o).yields_iff.mp h <;> simp <;> omega

end SocketIoRust.EngineIoParser.BinaryFormat
