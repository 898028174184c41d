import SocketIoRust.SocketIoParser.PacketData
import SocketIoRust.Library.JsonText

namespace SocketIoRust.SocketIoParser

open Library Library.Nom PacketDataValue DefaultEncoder DefaultDecoder
open Library.Outcome (ok err)

variable {J : Json.Codec} {o : Overflow}

/-- What the encoder writes for a namespace, an id and the JSON. -/
def nspText (nsp : Str) : Str := if nsp ≠ ['/'] then nsp ++ [','] else []

def idText : Option UInt64 → Str
  | some id => Decimal.print id.toNat
  | none => []

variable (J) in
def jsonText : JsonValue → Str
  | .null => []
  | header => J.toString header

theorem encodePacket_plain {p : Packet} (h : BinaryPacketType.tryFrom p.packetType = none) :
    (encodePacket J p).packet = p.packetType.toChar :: (nspText p.nsp ++
      (idText p.id ++ jsonText J (deconstructPacketData p.data []).1)) := by
  obtain ⟨t, id, nsp, data⟩ := p
  have ht : ¬ (t = .binaryEvent ∨ t = .binaryAck) := by
    rintro (rfl | rfl) <;> cases h
  simp only [encodePacket, t.print_toU8, ht, if_false, List.append_assoc, List.nil_append,
    List.cons_append]
  rfl

/-- No digit, no slash and no minus comes first. -/
def PlainStart (s : Str) : Prop := starts (fun c ↦ c.isDigit || c == '/' || c == '-') s = false

theorem PlainStart.not_digit {s : Str} (h : PlainStart s) : starts Char.isDigit s = false := by
  cases s with
  | nil => rfl
  | cons c s =>
    rw [PlainStart, starts_cons, Bool.or_eq_false_iff, Bool.or_eq_false_iff] at h
    exact h.1.1

theorem PlainStart.ne_cons {s r : Str} {c : Char} (h : PlainStart s) (hc : c = '/' ∨ c = '-') :
    s ≠ c :: r := by
  intro he
  subst he
  rcases hc with rfl | rfl <;> cases h

theorem jsonText_plainStart (hJ : J.Lawful) {t : PacketType} {v : PacketDataValue}
    (hv : validShape t v = true) (a : List Bytes) :
    PlainStart (jsonText J (deconstructPacketData v a).1) := by
  have harray (values : List JsonValue) : PlainStart (jsonText J (.array values)) := by
    obtain ⟨s, hs⟩ := hJ.array_text values
    rw [jsonText, hs]
    · rfl
    · simp
  cases v with
  | null => rfl
  | string s =>
    obtain ⟨r, hr⟩ := hJ.string_text s
    rw [deconstructPacketData, jsonText, hr]
    · rfl
    · simp
  | array values => exact harray _
  | object entries => exact harray _
  | _ => cases t <;> cases hv

theorem takeU8_of_run {ds rest : Str} (hr : MaximalRun Char.isDigit ds rest) :
    (∃ n, Decimal.value ds = n ∧ takeU8 (ds ++ rest) = ok (rest, UInt8.ofNat n)) ∨
      takeU8 (ds ++ rest) = err (.failure rest .digit) := by
  unfold takeU8
  by_cases hv : Decimal.value ds < 256
  · rw [Decimal.number_run hr hv]
    exact .inl ⟨_, rfl, rfl⟩
  · rw [Decimal.number_overflow hr (Nat.not_lt.mp hv)]
    exact .inr rfl

theorem takeU8_toChar {t : PacketType} {rest : Str} (h : starts Char.isDigit rest = false) :
    takeU8 (t.toChar :: rest) = ok (rest, t.toU8) := by
  have hrun : MaximalRun Char.isDigit [t.toChar] rest :=
    ⟨by simp, by simpa using t.isDigit_toChar, h⟩
  have hvalue : Decimal.value [t.toChar] = t.toU8.toNat := by
    rw [t.value_toChar_cons]
    simp [Decimal.value]
  have ht := t.toU8_lt
  have hnumber := Decimal.number_run hrun (by omega : Decimal.value [t.toChar] < 256)
  rw [List.singleton_append] at hnumber
  rw [takeU8, hnumber, Outcome.map_ok, hvalue, UInt8.ofNat_toNat]

theorem parseNamespace_plainStart {s : Str} (h : PlainStart s) :
    parseNamespace s = ok (s, ['/']) := by
  unfold parseNamespace
  cases s with
  | nil => rfl
  | cons c s =>
    have hc : c ≠ '/' := fun hc ↦ h.ne_cons (.inl rfl) (by rw [hc])
    simp [char, hc]

theorem parseNamespace_nspText {nsp rest : Str} (hslash : ∃ n, nsp = '/' :: n)
    (hcomma : ',' ∉ nsp) (hne : nsp ≠ ['/']) :
    parseNamespace (nspText nsp ++ rest) = ok (rest, nsp) := by
  have hrun : MaximalRun (fun c ↦ !(c == ',')) nsp (',' :: rest) := by
    refine ⟨?_, fun c hc ↦ ?_, rfl⟩
    · obtain ⟨n, rfl⟩ := hslash
      simp
    · have hc : c ≠ ',' := fun h ↦ hcomma (h ▸ hc)
      simpa using hc
  have htill : takeTill1 (fun c ↦ c == ',') (nsp ++ ',' :: rest) = ok (',' :: rest, nsp) :=
    hrun.takeWhile1_eq .takeTill1
  have htake : take 1 (',' :: rest) = ok (rest, [',']) := take_append [','] rest
  have htext : nspText nsp ++ rest = nsp ++ ',' :: rest := by simp [nspText, hne]
  obtain ⟨n, rfl⟩ := hslash
  rw [htext]
  rw [parseNamespace, htill]
  simp only [List.cons_append, char, if_true, Outcome.ok_bind, htake]

theorem parseId_of_not_digit {s : Str} (h : starts Char.isDigit s = false) :
    parseId o s = ok (s, none) := by
  rw [parseId, digit1, takeWhile1_of_not_starts h]

/-- An id as the encoder writes it lacks the `-` that the decoder asks for. -/
theorem parseId_idText (id : UInt64) {s : Str} (h : PlainStart s) :
    ∃ e, parseId o (idText (some id) ++ s) = err e := by
  have hdigit : digit1 (Decimal.print id.toNat ++ s) = ok (s, Decimal.print id.toNat) :=
    (Decimal.print_run _ h.not_digit).takeWhile1_eq .digit
  rw [parseId, idText, hdigit]
  cases s with
  | nil => exact ⟨_, rfl⟩
  | cons c s =>
    have hc : c ≠ '-' := fun hc ↦ h.ne_cons (.inr rfl) (by rw [hc])
    exact ⟨.error (c :: s) .char, by simp [char, hc]⟩

theorem fromStr_jsonText (hJ : J.Lawful) {j : JsonValue} (hj : j.WellFormed) :
    (J.fromStr (jsonText J j)).getD .null = j := by
  cases j with
  | null => rw [jsonText, hJ.fromStr_nil, Option.getD_none]
  | _ => simp only [jsonText, hJ.fromStr_toString _ hj, Option.getD_some]

/-- What the decoder makes of the rest of a plain packet, after its type. -/
theorem parseProtoPacket_of_type {t : PacketType} (ht : BinaryPacketType.tryFrom t = none)
    {input rest : Str} (h : takeU8 input = ok (rest, t.toU8)) :
    parseProtoPacket J o input = (do
      let (input, nsp) ← parseNamespace rest
      let (input, id) ← parseId o input
      let (input, payload) ← parseJsonData J input t
      ok (input, .plain ⟨t, id, nsp, .ofJson payload⟩)) := by
  have hzero : ¬ (0 : UInt32) < 0 := by decide
  simp only [parseProtoPacket, h, Outcome.ok_bind, PacketType.parseFromU8_toU8, ht, hzero, if_false]

/-- Digits between the type and the JSON belong to the type, so that no id is read. -/
theorem id_eq_none_of_run {ds s rest : Str} (hr : MaximalRun Char.isDigit ds s)
    (hs : PlainStart s) {q : Packet} (h : parseProtoPacket J o (ds ++ s) = ok (rest, .plain q)) :
    q.id = none := by
  rcases takeU8_of_run hr with ⟨n, -, hn⟩ | hn
  swap
  · rw [parseProtoPacket, hn, Outcome.err_bind] at h
    cases h
  rcases PacketType.parseFromU8_cases (UInt8.ofNat n) s with ⟨t, hv, -⟩ | ht
  swap
  · rw [parseProtoPacket, hn, Outcome.ok_bind] at h
    dsimp only at h
    rw [ht, Outcome.err_bind] at h
    cases h
  rw [hv] at hn
  cases hb : BinaryPacketType.tryFrom t with
  | some b =>
    have hcount : parseAttachmentsCount o s = err (.error s .digit) := by
      rw [parseAttachmentsCount, digit1, takeWhile1_of_not_starts hs.not_digit, Outcome.err_bind]
    rw [parseProtoPacket, hn, Outcome.ok_bind] at h
    dsimp only at h
    rw [PacketType.parseFromU8_toU8, Outcome.ok_bind, hb] at h
    dsimp only at h
    rw [hcount, Outcome.err_bind] at h
    cases h
  | none =>
    rw [parseProtoPacket_of_type hb hn, parseNamespace_plainStart hs, Outcome.ok_bind] at h
    dsimp only at h
    rw [parseId_of_not_digit hs.not_digit, Outcome.ok_bind] at h
    obtain ⟨x, -, hx⟩ := Outcome.bind_eq_ok.mp h
    cases hx
    rfl

theorem parseNamespace_text {nsp s : Str} (hslash : ∃ n, nsp = '/' :: n) (hcomma : ',' ∉ nsp)
    (hs : PlainStart s) : parseNamespace (nspText nsp ++ s) = ok (s, nsp) := by
  by_cases hne : nsp = ['/']
  · subst hne
    exact parseNamespace_plainStart hs
  · exact parseNamespace_nspText hslash hcomma hne

theorem starts_nspText {nsp s : Str} (hslash : ∃ n, nsp = '/' :: n)
    (hs : starts Char.isDigit s = false) : starts Char.isDigit (nspText nsp ++ s) = false := by
  obtain ⟨n, rfl⟩ := hslash
  unfold nspText
  split
  · rfl
  · exact hs

theorem decodeProtoPacket_eq_ok {text : Str} {packet : ProtoPacket} :
    decodeProtoPacket J o text = ok packet ↔ ∃ rest, parseProtoPacket J o text = ok (rest, packet) := by
  unfold decodeProtoPacket
  cases parseProtoPacket J o text with
  | ok x => exact ⟨fun h ↦ ⟨x.1, by rw [← Outcome.ok.inj h]⟩, fun ⟨rest, h⟩ ↦ by cases h; rfl⟩
  | err e => simp
  | panic => simp

/-- Without an id, what follows the namespace is the payload. -/
theorem parseProtoPacket_of_no_id {t : PacketType} (ht : BinaryPacketType.tryFrom t = none)
    {nsp : Str} (hslash : ∃ n, nsp = '/' :: n) (hcomma : ',' ∉ nsp) {s : Str} (hs : PlainStart s)
    {j : JsonValue} (hj : (J.fromStr s).getD .null = j) :
    parseProtoPacket J o (t.toChar :: (nspText nsp ++ s)) =
      if isPayloadValid t j then ok (s, .plain ⟨t, none, nsp, ofJson j⟩)
      else err (.failure s .satisfy) := by
  have htype := takeU8_toChar (t := t) (starts_nspText hslash hs.not_digit)
  rw [parseProtoPacket_of_type ht htype, parseNamespace_text hslash hcomma hs, Outcome.ok_bind]
  dsimp only
  rw [parseId_of_not_digit hs.not_digit, Outcome.ok_bind]
  simp only [parseJsonData, hj]
  split <;> rfl

/-- Of a packet without an id, the data come back as they are unless they hold an object. -/
theorem parseProtoPacket_of_no_id_iff (hJ : J.Lawful) {t : PacketType}
    (ht : BinaryPacketType.tryFrom t = none) {nsp : Str} (hslash : ∃ n, nsp = '/' :: n)
    (hcomma : ',' ∉ nsp) {data : PacketDataValue} (hleaves : binaryLeaves data = [])
    (hshape : validShape t data = true) :
    (∃ rest, parseProtoPacket J o (t.toChar :: (nspText nsp ++
        jsonText J (deconstructPacketData data []).1)) =
      ok (rest, .plain ⟨t, none, nsp, data⟩)) ↔ ObjectFree data := by
  have hdecode := parseProtoPacket_of_no_id (o := o) ht hslash hcomma
    (jsonText_plainStart hJ hshape []) (fromStr_jsonText hJ (deconstruct_wellFormed data []))
  rw [isPayloadValid_eq] at hdecode
  rw [hdecode]
  constructor
  · intro h
    obtain ⟨rest, h⟩ := h
    split at h
    · simp only [Outcome.ok.injEq, Prod.mk.injEq, ProtoPacket.plain.injEq, Packet.mk.injEq] at h
      rw [← h.2.2.2.2]
      exact deconstruct_objectFree hleaves []
    · cases h
  · intro ho
    rw [ofJson_deconstruct hleaves ho [], if_pos hshape]
    exact ⟨_, rfl⟩

/-- A packet with an id is never given back. -/
theorem not_ok_of_id (id : UInt64) {t : PacketType} (ht : BinaryPacketType.tryFrom t = none)
    {nsp : Str} (hslash : ∃ n, nsp = '/' :: n) (hcomma : ',' ∉ nsp) {s : Str} (hs : PlainStart s)
    {q : Packet} (hq : q.id = some id) (rest : Str) :
    parseProtoPacket J o (t.toChar :: (nspText nsp ++ (idText (some id) ++ s))) ≠
      ok (rest, .plain q) := by
  intro h
  by_cases hne : nsp = ['/']
  · subst hne
    have hr : MaximalRun Char.isDigit (t.toChar :: idText (some id)) s := by
      refine ⟨by simp, ?_, hs.not_digit⟩
      rw [List.forall_mem_cons]
      exact ⟨t.isDigit_toChar, fun c hc ↦ Decimal.isDigit_of_mem_print hc⟩
    have hnone := id_eq_none_of_run hr hs h
    rw [hq] at hnone
    cases hnone
  · have hstart : starts Char.isDigit (nspText nsp ++ (idText (some id) ++ s)) = false := by
      obtain ⟨n, rfl⟩ := hslash
      simp [nspText, hne]
    obtain ⟨e, he⟩ := parseId_idText (o := o) id hs
    rw [parseProtoPacket_of_type ht (takeU8_toChar hstart),
      parseNamespace_nspText hslash hcomma hne, Outcome.ok_bind] at h
    dsimp only at h
    rw [he, Outcome.err_bind] at h
    cases h

/-- A plain packet is given back only if it has no id and holds no object. -/
theorem decodeProtoPacket_encodePacket_iff (hJ : J.Lawful) (o : Overflow) (p : Packet)
    (hplain : p.packetType ≠ .binaryEvent ∧ p.packetType ≠ .binaryAck)
    (hslash : ∃ n, p.nsp = '/' :: n) (hcomma : ',' ∉ p.nsp) (hleaves : binaryLeaves p.data = [])
    (hshape : validShape p.packetType p.data = true) :
    decodeProtoPacket J o (encodePacket J p).packet = ok (.plain p) ↔
      p.id = none ∧ ObjectFree p.data := by
  have ht : BinaryPacketType.tryFrom p.packetType = none := by
    cases hp : p.packetType with
    | binaryEvent => exact absurd hp hplain.1
    | binaryAck => exact absurd hp hplain.2
    | _ => rfl
  rw [decodeProtoPacket_eq_ok, encodePacket_plain ht]
  obtain ⟨t, id, nsp, data⟩ := p
  cases id with
  | some id =>
    have hs := jsonText_plainStart hJ hshape []
    constructor
    · intro hx
      obtain ⟨rest, h⟩ := hx
      exact absurd h (not_ok_of_id id ht hslash hcomma hs rfl rest)
    · intro hx
      cases hx.1
  | none =>
    simp only [idText, List.nil_append, true_and]
    exact parseProtoPacket_of_no_id_iff hJ ht hslash hcomma hleaves hshape

theorem decodeProtoPacket_encodePacket_event :
    decodeProtoPacket Json.standard .checked
        (encodePacket Json.standard ⟨.event, none, ['/'], .array [.string ['h', 'i']]⟩).packet =
      ok (.plain ⟨.event, none, ['/'], .array [.string ['h', 'i']]⟩) :=
  (decodeProtoPacket_encodePacket_iff Json.standard_lawful .checked
    ⟨.event, none, ['/'], .array [.string ['h', 'i']]⟩ (by decide) ⟨[], rfl⟩ (by decide) rfl
    rfl).mpr ⟨rfl, .array fun v hv ↦ by
      rw [List.mem_singleton.mp hv]
      exact .string _⟩

theorem decodeProtoPacket_withId :
    ¬ ∀ p : Packet, p.packetType ≠ .binaryEvent ∧ p.packetType ≠ .binaryAck →
      (∃ n, p.nsp = '/' :: n) → ',' ∉ p.nsp → binaryLeaves p.data = [] →
      validShape p.packetType p.data = true →
      decodeProtoPacket Json.standard .checked (encodePacket Json.standard p).packet =
        ok (.plain p) := by
  intro h
  have h := h ⟨.event, some 7, ['/'], .array [.string ['h', 'i']]⟩ (by decide) ⟨[], rfl⟩
    (by decide) rfl rfl
  have herr : decodeProtoPacket Json.standard .checked (encodePacket Json.standard
      ⟨.event, some 7, ['/'], .array [.string ['h', 'i']]⟩).packet = err .packetParseError := rfl
  rw [herr] at h
  cases h

end SocketIoRust.SocketIoParser
