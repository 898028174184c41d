import SocketIoRust.SocketIoParser.PlainPacket

namespace SocketIoRust.SocketIoParser

open Library Library.Nom PacketDataValue DefaultEncoder DefaultDecoder
open Library.Outcome (ok err)

namespace PacketDataValue

/-- The shape of an attachment placeholder, in data. -/
def isPlaceholder (entries : List (Str × PacketDataValue)) : Bool :=
  match IndexMap.get attachmentMarkerKey entries, IndexMap.get attachmentIndexKey entries with
  | some (.bool marker), some (.number index) => marker && index.asU64.isSome
  | _, _ => false

inductive PlaceholderFree : PacketDataValue → Prop
  | null : PlaceholderFree .null
  | bool (b : Bool) : PlaceholderFree (.bool b)
  | number (n : Json.Number) : PlaceholderFree (.number n)
  | string (s : Str) : PlaceholderFree (.string s)
  | array {values : List PacketDataValue} : (∀ v ∈ values, PlaceholderFree v) →
      PlaceholderFree (.array values)
  | object {entries : List (Str × PacketDataValue)} : isPlaceholder entries = false →
      (∀ e ∈ entries, PlaceholderFree e.2) → PlaceholderFree (.object entries)
  | binary (data : Bytes) : PlaceholderFree (.binary data)

end PacketDataValue

/-- The answers of a decoder that is given the buffers one after another. -/
def feed (decoder : DefaultDecoder) : List Bytes →
    List (Except HandleEngineMessageError Bool) × DefaultDecoder
  | [] => ([], decoder)
  | data :: buffers =>
    let (answer, decoder) := decoder.decodeBinaryData data
    let (answers, decoder) := feed decoder buffers
    (answer :: answers, decoder)

/-- The encoded packet is announced with its `k` attachments, and these complete it at
the `k`-th one. -/
def MultipartRoundTrip (J : Json.Codec) (o : Overflow) (p : Packet) (k : ℕ) : Prop :=
  ∃ header, decodeProtoPacket J o (encodePacket J p).packet = ok (.multipart header) ∧
    header.attachmentsCount.toNat = k ∧
    (feed (new header) (encodePacket J p).attachments).1 =
      List.replicate (k - 1) (.ok false) ++ [.ok true] ∧
    (feed (new header) (encodePacket J p).attachments).2.collectPacket = some p

structure IsMultipart (p : Packet) (k : ℕ) : Prop where
  packetType : p.packetType = .binaryEvent ∨ p.packetType = .binaryAck
  shape : validShape p.packetType p.data = true
  leaves : (binaryLeaves p.data).length = k
  positive : 1 ≤ k
  slash : ∃ n, p.nsp = '/' :: n
  comma : ',' ∉ p.nsp
  placeholders : PlaceholderFree p.data

theorem encodePacket_binary (J : Json.Codec) {p : Packet}
    (h : p.packetType = .binaryEvent ∨ p.packetType = .binaryAck) :
    ∃ rest, (encodePacket J p).packet =
      (p.packetType.toChar :: Decimal.print (encodePacket J p).attachments.length) ++
        '-' :: rest := by
  obtain ⟨t, id, nsp, data⟩ := p
  have ht : t = .binaryEvent ∨ t = .binaryAck := h
  simp only [encodePacket, t.print_toU8, ht, if_true, List.append_assoc, List.cons_append,
    List.nil_append]
  exact ⟨_, rfl⟩

/-- A count of at least two digits, the first being a type, is no packet type. -/
theorem tryFrom_of_count {t : PacketType} (ht : t = .binaryEvent ∨ t = .binaryAck) {ds : Str}
    (hds : ds ≠ []) {n : ℕ} (hn : Decimal.value (t.toChar :: ds) = n) (hlt : n < 256) :
    PacketType.tryFrom (UInt8.ofNat n) = none := by
  have hten : 10 ≤ 10 ^ ds.length :=
    Nat.le_self_pow (fun h ↦ hds (List.length_eq_zero_iff.mp h)) 10
  have hfive : 5 ≤ t.toU8.toNat := by rcases ht with rfl | rfl <;> decide
  have hvalue := t.value_toChar_cons ds
  have hmul := Nat.mul_le_mul hfive hten
  have hnat : (UInt8.ofNat n).toNat = n := by rw [UInt8.toNat_ofNat', Nat.mod_eq_of_lt hlt]
  cases h : PacketType.tryFrom (UInt8.ofNat n) with
  | none => rfl
  | some u =>
    have hu := u.toU8_lt
    rw [PacketType.tryFrom_eq_some h] at hnat
    omega

theorem decodeProtoPacket_binary (J : Json.Codec) (o : Overflow) {p : Packet}
    (h : p.packetType = .binaryEvent ∨ p.packetType = .binaryAck) :
    decodeProtoPacket J o (encodePacket J p).packet = err .packetParseError := by
  obtain ⟨rest, htext⟩ := encodePacket_binary J h
  have hne := Decimal.print_ne_nil (encodePacket J p).attachments.length
  have hrun : MaximalRun Char.isDigit
      (p.packetType.toChar :: Decimal.print (encodePacket J p).attachments.length)
      ('-' :: rest) := by
    refine ⟨by simp, ?_, rfl⟩
    rw [List.forall_mem_cons]
    exact ⟨p.packetType.isDigit_toChar, fun c hc ↦ Decimal.isDigit_of_mem_print hc⟩
  have hfail : ∃ j k, parseProtoPacket J o (encodePacket J p).packet = err (.failure j k) := by
    rw [htext, parseProtoPacket]
    by_cases hv : Decimal.value
        (p.packetType.toChar :: Decimal.print (encodePacket J p).attachments.length) < 256
    · refine ⟨'-' :: rest, .digit, ?_⟩
      rw [takeU8, Decimal.number_run hrun hv, Outcome.map_ok, Outcome.ok_bind]
      dsimp only
      rw [PacketType.parseFromU8, tryFrom_of_count h hne rfl hv]
      rfl
    · refine ⟨'-' :: rest, .digit, ?_⟩
      rw [takeU8, Decimal.number_overflow hrun (Nat.not_lt.mp hv), Outcome.map_err,
        Outcome.err_bind]
  obtain ⟨j, k, hfail⟩ := hfail
  rw [decodeProtoPacket, hfail]

/-- No binary packet comes back: its attachments count is read as part of its type. -/
theorem not_multipartRoundTrip (J : Json.Codec) (o : Overflow) (p : Packet) (k : ℕ)
    (h : IsMultipart p k) :
    ¬ MultipartRoundTrip J o p k ∧
      decodeProtoPacket J o (encodePacket J p).packet = err .packetParseError := by
  have herr := decodeProtoPacket_binary J o h.packetType
  refine ⟨?_, herr⟩
  intro hx
  obtain ⟨header, hok, -⟩ := hx
  rw [herr] at hok
  cases hok

theorem isMultipart_hi :
    IsMultipart ⟨.binaryEvent, none, ['/'], .array [.string ['h', 'i'], .binary [1]]⟩ 1 where
  packetType := .inl rfl
  shape := rfl
  leaves := rfl
  positive := le_rfl
  slash := ⟨[], rfl⟩
  comma := by decide
  placeholders := by
    apply PlaceholderFree.array
    intro v hv
    rcases List.mem_cons.mp hv with rfl | hv
    · exact .string _
    · rw [List.mem_singleton.mp hv]
      exact .binary _

theorem not_multipartRoundTrip_hi :
    ¬ MultipartRoundTrip Json.standard .checked
        ⟨.binaryEvent, none, ['/'], .array [.string ['h', 'i'], .binary [1]]⟩ 1 ∧
      decodeProtoPacket Json.standard .checked (encodePacket Json.standard
        ⟨.binaryEvent, none, ['/'], .array [.string ['h', 'i'], .binary [1]]⟩).packet =
          err .packetParseError :=
  not_multipartRoundTrip Json.standard .checked _ 1 isMultipart_hi

theorem multipartRoundTrip_hi :
    ¬ ∀ p k, IsMultipart p k → MultipartRoundTrip Json.standard .checked p k := by
  intro h
  obtain ⟨header, hok, -⟩ := h _ 1 isMultipart_hi
  have herr : decodeProtoPacket Json.standard .checked (encodePacket Json.standard
      ⟨.binaryEvent, none, ['/'], .array [.string ['h', 'i'], .binary [1]]⟩).packet =
        err .packetParseError := rfl
  rw [herr] at hok
  cases hok

end SocketIoRust.SocketIoParser
