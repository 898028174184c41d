import SocketIoRust.SocketIoParser.DecodedPacket
import SocketIoRust.SocketIoParser.PlainPacket

namespace SocketIoRust.SocketIoParser

open Library Library.Nom PacketDataValue DefaultDecoder
open Library.Outcome (ok err)

/-- What stands between the type of a packet and its payload. -/
inductive Address where
  | omitted
  | named (nsp : Str)
  | identified (nsp digits : Str)

namespace Address

def text : Address → Str
  | omitted => []
  | named nsp => nsp ++ [',']
  | identified nsp digits => nsp ++ ',' :: (digits ++ ['-'])

def nsp : Address → Str
  | omitted => ['/']
  | named nsp => nsp
  | identified nsp _ => nsp

def id (o : Overflow) : Address → Outcome Unit (Option UInt64)
  | identified _ digits => (digitsToU64 o digits).map some
  | _ => ok none

/-- The payload does not read as a part of the address. -/
def Ends (json : Str) : Address → Prop
  | omitted => starts Char.isDigit json = false ∧ starts (· == '/') json = false
  | named nsp => IsNamespace nsp ∧ starts Char.isDigit json = false
  | identified nsp digits => IsNamespace nsp ∧ digits ≠ [] ∧ ∀ c ∈ digits, c.isDigit = true

end Address

def payloadOf (J : Json.Codec) (json : Str) : JsonValue := (J.fromStr json).getD .null

/-- A text that the decoder accepts, in its parts. -/
structure Sentence (J : Json.Codec) (o : Overflow) where
  digits : Str
  packetType : PacketType
  address : Address
  id : Option UInt64
  json : Str
  digits_ne_nil : digits ≠ []
  digits_all : ∀ c ∈ digits, c.isDigit = true
  digits_value : Decimal.value digits = packetType.toU8.toNat
  not_binary : BinaryPacketType.tryFrom packetType = none
  address_ends : address.Ends json
  address_id : address.id o = ok id
  payload_valid : isPayloadValid packetType (payloadOf J json) = true

variable {J : Json.Codec} {o : Overflow}

def Sentence.text (s : Sentence J o) : Str := s.digits ++ (s.address.text ++ s.json)

def Sentence.packet (s : Sentence J o) : Packet :=
  ⟨s.packetType, s.id, s.address.nsp, ofJson (payloadOf J s.json)⟩

theorem takeU8_eq_ok {input rest : Str} {v : UInt8} (h : takeU8 input = ok (rest, v)) :
    ∃ ds, input = ds ++ rest ∧ MaximalRun Char.isDigit ds rest ∧ Decimal.value ds = v.toNat := by
  rcases starts_or_run Char.isDigit input with hs | ⟨ds, rest', rfl, hr⟩
  · rw [takeU8, Decimal.number_of_not_starts hs] at h
    cases h
  by_cases hv : Decimal.value ds < 256
  · rw [takeU8, Decimal.number_run hr hv] at h
    cases h
    exact ⟨ds, rfl, hr, (UInt8.toNat_ofNat_of_lt' hv).symm⟩
  · rw [takeU8, Decimal.number_overflow hr (Nat.not_lt.mp hv)] at h
    cases h

theorem takeU8_of_value {ds rest : Str} {v : UInt8} (hr : MaximalRun Char.isDigit ds rest)
    (hv : Decimal.value ds = v.toNat) : takeU8 (ds ++ rest) = ok (rest, v) := by
  have hlt : Decimal.value ds < 256 := by
    rw [hv]
    exact v.toNat_lt
  rw [takeU8, Decimal.number_run hr hlt, Outcome.map_ok, hv, UInt8.ofNat_toNat]

/-- The type takes all the digits there are, and leaves none for a number of attachments. -/
theorem parseAttachmentsCount_of_run {ds rest : Str} (hr : MaximalRun Char.isDigit ds rest) :
    parseAttachmentsCount o rest = err (.error rest .digit) := by
  rw [parseAttachmentsCount, digit1, takeWhile1_of_not_starts hr.stop, Outcome.err_bind]

theorem parseNamespace_of_not_slash {input : Str} (h : starts (· == '/') input = false) :
    parseNamespace input = ok (input, ['/']) := by
  cases input with
  | nil => rfl
  | cons c input =>
    have hc : c ≠ '/' := by simpa using h
    rw [parseNamespace, char, if_neg hc]

theorem parseNamespace_of_isNamespace {nsp : Str} (h : IsNamespace nsp) (rest : Str) :
    parseNamespace (nsp ++ ',' :: rest) = ok (rest, nsp) := by
  obtain ⟨⟨n, rfl⟩, hcomma⟩ := h
  have hrun : MaximalRun (fun c ↦ !(c == ',')) ('/' :: n) (',' :: rest) := by
    refine ⟨List.cons_ne_nil _ _, ?_, rfl⟩
    intro c hc
    have hne : c ≠ ',' := fun he ↦ hcomma (he ▸ hc)
    simpa using hne
  have htill : takeTill1 (· == ',') ('/' :: n ++ ',' :: rest) = ok (',' :: rest, '/' :: n) :=
    hrun.takeWhile1_eq .takeTill1
  rw [parseNamespace, htill]
  rfl

theorem parseNamespace_eq_ok {input rest nsp : Str} (h : parseNamespace input = ok (rest, nsp)) :
    (starts (· == '/') input = false ∧ rest = input ∧ nsp = ['/']) ∨
      (IsNamespace nsp ∧ input = nsp ++ ',' :: rest) := by
  have hname := parseNamespace_isNamespace h
  cases hs : starts (· == '/') input with
  | false =>
    rw [parseNamespace_of_not_slash hs] at h
    cases h
    exact .inl ⟨rfl, rfl, rfl⟩
  | true =>
    refine .inr ⟨hname, ?_⟩
    cases input with
    | nil => cases hs
    | cons c input =>
      have hc : c = '/' := by simpa using hs
      subst hc
      rw [parseNamespace, char, if_pos rfl] at h
      obtain ⟨⟨r, n⟩, htill, htake⟩ := Outcome.bind_eq_ok.mp h
      obtain ⟨⟨r', x⟩, htake, hok⟩ := Outcome.bind_eq_ok.mp htake
      cases hok
      have hfirst : starts (fun a ↦ !(a == ',')) ('/' :: input) = true := by rfl
      rcases starts_or_run (fun a ↦ !(a == ',')) ('/' :: input) with hnot | ⟨run, tail, he, hr⟩
      · rw [hfirst] at hnot
        cases hnot
      rw [he, takeTill1, hr.takeWhile1_eq] at htill
      cases htill
      -- what stopped the namespace is the comma that is taken
      cases r with
      | nil => cases htake
      | cons d r =>
        have hd : d = ',' := by simpa using hr.stop
        cases htake
        rw [he, hd]
        rfl

theorem parseId_of_digits {ds : Str} (hne : ds ≠ []) (hd : ∀ c ∈ ds, c.isDigit = true)
    {id : UInt64} (hid : digitsToU64 o ds = ok id) (rest : Str) :
    parseId o (ds ++ '-' :: rest) = ok (rest, some id) := by
  have hr : MaximalRun Char.isDigit ds ('-' :: rest) := ⟨hne, hd, rfl⟩
  rw [parseId, digit1, hr.takeWhile1_eq]
  simp only [char, if_true, Outcome.ok_bind, hid]
  rfl

theorem parseId_eq_ok {input rest : Str} {id : Option UInt64} (h : parseId o input = ok (rest, id)) :
    (starts Char.isDigit input = false ∧ rest = input ∧ id = none) ∨
      ∃ ds, ds ≠ [] ∧ (∀ c ∈ ds, c.isDigit = true) ∧ input = ds ++ '-' :: rest ∧
        (digitsToU64 o ds).map some = ok id := by
  rcases starts_or_run Char.isDigit input with hs | ⟨ds, rest', rfl, hr⟩
  · rw [parseId_of_not_digit hs] at h
    cases h
    exact .inl ⟨hs, rfl, rfl⟩
  · rw [parseId, digit1, hr.takeWhile1_eq] at h
    obtain ⟨⟨r, c⟩, hchar, h⟩ := Outcome.bind_eq_ok.mp h
    obtain ⟨n, hn, hok⟩ := Outcome.bind_eq_ok.mp h
    cases hok
    refine .inr ⟨ds, hr.ne_nil, hr.all, ?_, ?_⟩
    · cases rest' with
      | nil => cases hchar
      | cons d rest' =>
        rw [char] at hchar
        split at hchar
        · rename_i hd
          cases hchar
          rw [hd]
        · cases hchar
    · cases hdigits : digitsToU64 o ds with
      | ok m =>
        rw [hdigits] at hn
        cases hn
        rfl
      | err e =>
        rw [hdigits] at hn
        cases hn
      | panic =>
        rw [hdigits] at hn
        cases hn

/-- After the type, what is read is an address and its end. -/
theorem exists_address {ds input mid rest nsp : Str} {id : Option UInt64}
    (hr : MaximalRun Char.isDigit ds input) (hnsp : parseNamespace input = ok (mid, nsp))
    (hid : parseId o mid = ok (rest, id)) :
    ∃ address : Address, input = address.text ++ rest ∧ address.nsp = nsp ∧ address.Ends rest ∧
      address.id o = ok id := by
  rcases parseNamespace_eq_ok hnsp with ⟨hslash, rfl, rfl⟩ | ⟨hname, rfl⟩
  · rw [parseId_of_not_digit hr.stop] at hid
    cases hid
    exact ⟨.omitted, rfl, rfl, ⟨hr.stop, hslash⟩, rfl⟩
  · rcases parseId_eq_ok hid with ⟨hdigit, rfl, rfl⟩ | ⟨ids, hne, hall, rfl, hn⟩
    · refine ⟨.named nsp, ?_, rfl, ⟨hname, hdigit⟩, rfl⟩
      rw [Address.text, List.append_assoc, List.singleton_append]
    · refine ⟨.identified nsp ids, ?_, rfl, ⟨hname, hne, hall⟩, hn⟩
      rw [Address.text, List.append_assoc, List.cons_append, List.append_assoc,
        List.singleton_append]

theorem exists_sentence {text : Str} {packet : ProtoPacket}
    (h : decodeProtoPacket J o text = ok packet) :
    ∃ s : Sentence J o, s.text = text ∧ packet = .plain s.packet := by
  obtain ⟨rest, h⟩ := decodeProtoPacket_eq_ok.mp h
  rw [parseProtoPacket] at h
  obtain ⟨⟨input, v⟩, htype, h⟩ := Outcome.bind_eq_ok.mp h
  obtain ⟨t, ht, h⟩ := Outcome.bind_eq_ok.mp h
  obtain ⟨⟨input', count⟩, hcount, h⟩ := Outcome.bind_eq_ok.mp h
  obtain ⟨⟨mid, nsp⟩, hnsp, h⟩ := Outcome.bind_eq_ok.mp h
  obtain ⟨⟨json, id⟩, hid, h⟩ := Outcome.bind_eq_ok.mp h
  obtain ⟨⟨json', payload⟩, hpayload, h⟩ := Outcome.bind_eq_ok.mp h
  dsimp only at ht hcount hnsp hid hpayload h
  obtain ⟨ds, htext, hr, hvalue⟩ := takeU8_eq_ok htype
  have hv : v = t.toU8 := by
    rcases PacketType.parseFromU8_cases v input with ⟨t', hv, hok⟩ | herr
    · rw [hok] at ht
      cases ht
      exact hv
    · rw [herr] at ht
      cases ht
  cases hb : BinaryPacketType.tryFrom t with
  | some b =>
    rw [hb] at hcount
    dsimp only at hcount
    rw [parseAttachmentsCount_of_run hr] at hcount
    cases hcount
  | none =>
    rw [hb] at hcount
    cases hcount
    obtain ⟨address, rfl, rfl, hends, hread⟩ := exists_address hr hnsp hid
    have hvalid := parseJsonData_valid hpayload
    have hdecoded : payload = payloadOf J json := by
      simp only [parseJsonData] at hpayload
      split at hpayload <;> cases hpayload
      rfl
    subst hdecoded
    have hzero : ¬ (0 : UInt32) < 0 := by decide
    rw [if_neg hzero] at h
    cases h
    exact ⟨⟨ds, t, address, id, json, hr.ne_nil, hr.all, hvalue.trans (by rw [hv]), hb, hends,
      hread, hvalid⟩, htext.symm, rfl⟩

theorem Address.Ends.not_digit {address : Address} {json : Str} (h : address.Ends json) :
    starts Char.isDigit (address.text ++ json) = false := by
  cases address with
  | omitted => exact h.1
  | named nsp =>
    obtain ⟨⟨⟨n, rfl⟩, -⟩, -⟩ := h
    rfl
  | identified nsp digits =>
    obtain ⟨⟨⟨n, rfl⟩, -⟩, -⟩ := h
    rfl

/-- An address that ends before the payload is read as what it says. -/
theorem Address.Ends.parse {address : Address} {json : Str} (h : address.Ends json)
    {id : Option UInt64} (hid : address.id o = ok id) :
    ∃ mid, parseNamespace (address.text ++ json) = ok (mid, address.nsp) ∧
      parseId o mid = ok (json, id) := by
  cases address with
  | omitted =>
    cases hid
    exact ⟨json, parseNamespace_of_not_slash h.2, parseId_of_not_digit h.1⟩
  | named nsp =>
    cases hid
    rw [Address.text, List.append_assoc, List.singleton_append]
    exact ⟨json, parseNamespace_of_isNamespace h.1 json, parseId_of_not_digit h.2⟩
  | identified nsp digits =>
    obtain ⟨hname, hne, hall⟩ := h
    rw [Address.id] at hid
    cases hn : digitsToU64 o digits with
    | ok n =>
      rw [hn] at hid
      cases hid
      rw [Address.text, List.append_assoc, List.cons_append, List.append_assoc,
        List.singleton_append]
      exact ⟨_, parseNamespace_of_isNamespace hname _, parseId_of_digits hne hall hn json⟩
    | err e =>
      rw [hn] at hid
      cases hid
    | panic =>
      rw [hn] at hid
      cases hid

theorem decodeProtoPacket_sentence (s : Sentence J o) :
    decodeProtoPacket J o s.text = ok (.plain s.packet) := by
  have hr : MaximalRun Char.isDigit s.digits (s.address.text ++ s.json) :=
    ⟨s.digits_ne_nil, s.digits_all, s.address_ends.not_digit⟩
  obtain ⟨mid, hnsp, hid⟩ := s.address_ends.parse s.address_id
  have hpayload : parseJsonData J s.json s.packetType = ok (s.json, payloadOf J s.json) := by
    have hvalid := s.payload_valid
    rw [payloadOf] at hvalid
    rw [parseJsonData, payloadOf]
    exact if_pos hvalid
  rw [decodeProtoPacket_eq_ok, Sentence.text,
    parseProtoPacket_of_type s.not_binary (takeU8_of_value hr s.digits_value), hnsp,
    Outcome.ok_bind]
  dsimp only
  rw [hid, Outcome.ok_bind]
  dsimp only
  rw [hpayload]
  exact ⟨_, rfl⟩

/-- The grammar of the protocol as it is decoded. As the type takes all the digits at the
front, there is none with a number of attachments, and an id follows a written namespace. -/
theorem decodeProtoPacket_eq_ok_iff (J : Json.Codec) (o : Overflow) (text : Str)
    (packet : ProtoPacket) :
    decodeProtoPacket J o text = ok packet ↔
      ∃ s : Sentence J o, s.text = text ∧ packet = .plain s.packet := by
  constructor
  · exact exists_sentence
  · rintro ⟨s, rfl, rfl⟩
    exact decodeProtoPacket_sentence s

end SocketIoRust.SocketIoParser
