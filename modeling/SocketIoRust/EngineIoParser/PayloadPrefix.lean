import SocketIoRust.EngineIoParser.StringFormat
import SocketIoRust.EngineIoParser.BinaryReading
import SocketIoRust.Library.PrefixCode

namespace SocketIoRust.EngineIoParser.PayloadPrefix

open Library Library.Nom Library.PrefixCode

variable {B : Base64.Codec}

theorem length_run (n : ℕ) (rest : Str) :
    MaximalRun Char.isDigit (Decimal.print n) (':' :: rest) := Decimal.print_run n rfl

theorem string_length_unique {n m : ℕ} {r s : Str}
    (h : Decimal.print n ++ ':' :: r = Decimal.print m ++ ':' :: s) : n = m ∧ r = s := by
  obtain ⟨hd, htail⟩ := (length_run n r).unique (length_run m s) h
  exact ⟨Decimal.print_injective hd, (List.cons.inj htail).2⟩

theorem toChar_injective : Function.Injective PacketType.toChar := by
  intro t t' h
  cases t <;> cases t' <;> first | rfl | exact absurd h (by decide)

theorem string_prefixCode (hB : Function.Injective B.encode) :
    IsPrefixCode (fun p : Packet ↦ p.data ≠ .empty) (StringFormat.inPayload B) where
  ne_nil p hp := by
    obtain ⟨t, data⟩ := p
    cases data with
    | text s => simp [StringFormat.inPayload_text]
    | binary d => simp [StringFormat.inPayload_binary]
    | empty => exact absurd rfl hp
  eq_of_append p q hp hq r s h := by
    obtain ⟨t, data⟩ := p
    obtain ⟨t', data'⟩ := q
    have hb (u : PacketType) : u.toChar ≠ 'b' := by cases u <;> decide
    cases data with
    | empty => exact absurd rfl hp
    | text x =>
      cases data' with
      | empty => exact absurd rfl hq
      | text y =>
        simp only [StringFormat.inPayload_text, List.append_assoc, List.cons_append] at h
        obtain ⟨hn, htail⟩ := string_length_unique h
        obtain ⟨ht, htail⟩ := List.cons.inj htail
        obtain ⟨rfl, -⟩ := List.append_inj htail (by omega)
        rw [toChar_injective ht]
      | binary e =>
        simp only [StringFormat.inPayload_text, StringFormat.inPayload_binary, List.append_assoc,
          List.cons_append] at h
        exact absurd (List.cons.inj (string_length_unique h).2).1 (hb t)
    | binary d =>
      cases data' with
      | empty => exact absurd rfl hq
      | text y =>
        simp only [StringFormat.inPayload_text, StringFormat.inPayload_binary, List.append_assoc,
          List.cons_append] at h
        exact absurd (List.cons.inj (string_length_unique h).2).1.symm (hb t')
      | binary e =>
        simp only [StringFormat.inPayload_binary, List.append_assoc, List.cons_append] at h
        obtain ⟨hn, htail⟩ := string_length_unique h
        obtain ⟨ht, htail⟩ := List.cons.inj (List.cons.inj htail).2
        obtain ⟨he, -⟩ := List.append_inj htail (by omega)
        rw [toChar_injective ht, hB he]

theorem binary_length_run (n : ℕ) (rest : Bytes) :
    MaximalRun BinaryFormat.isLengthByte (BinaryFormat.encodePacketLength n) (255 :: rest) := by
  refine ⟨BinaryFormat.encodePacketLength_ne_nil n, fun b hb ↦ ?_, rfl⟩
  have hlt := BinaryFormat.mem_encodePacketLength hb
  have hne : b ≠ 255 := by
    intro he
    subst he
    exact absurd hlt (by decide)
  simpa [BinaryFormat.isLengthByte] using hne

theorem binary_length_unique {n m : ℕ} {r s : Bytes}
    (h : BinaryFormat.encodePacketLength n ++ 255 :: r =
      BinaryFormat.encodePacketLength m ++ 255 :: s) : n = m ∧ r = s := by
  obtain ⟨hd, htail⟩ := (binary_length_run n r).unique (binary_length_run m s) h
  refine ⟨?_, (List.cons.inj htail).2⟩
  rw [← BinaryFormat.lengthValue_encodePacketLength n, hd,
    BinaryFormat.lengthValue_encodePacketLength]

theorem binary_prefixCode :
    IsPrefixCode (fun p : Packet ↦ p.data ≠ .empty) BinaryFormat.inPayload where
  ne_nil p hp := by
    obtain ⟨t, data⟩ := p
    cases data with
    | text s => exact List.cons_ne_nil _ _
    | binary d => exact List.cons_ne_nil _ _
    | empty => exact absurd rfl hp
  eq_of_append p q hp hq r s h := by
    obtain ⟨t, data⟩ := p
    obtain ⟨t', data'⟩ := q
    cases data with
    | empty => exact absurd rfl hp
    | text x =>
      cases data' with
      | empty => exact absurd rfl hq
      | text y =>
        simp only [BinaryFormat.inPayload, BinaryFormat.serializePacketInPayload,
          List.append_assoc, List.cons_append] at h
        obtain ⟨hn, htail⟩ := binary_length_unique (List.cons.inj h).2
        obtain ⟨ht, htail⟩ := List.cons.inj htail
        obtain ⟨he, -⟩ := List.append_inj htail (by omega)
        have htype : t.toU8 = t'.toU8 := by simpa using ht
        rw [PacketType.toU8_injective htype, Utf8.asBytes_injective he]
      | binary e => exact absurd (List.cons.inj h).1 (by decide)
    | binary d =>
      cases data' with
      | empty => exact absurd rfl hq
      | text y => exact absurd (List.cons.inj h).1 (by decide)
      | binary e =>
        simp only [BinaryFormat.inPayload, BinaryFormat.serializePacketInPayload,
          List.append_assoc, List.cons_append] at h
        obtain ⟨hn, htail⟩ := binary_length_unique (List.cons.inj h).2
        obtain ⟨ht, htail⟩ := List.cons.inj htail
        obtain ⟨rfl, -⟩ := List.append_inj htail (by omega)
        rw [PacketType.toU8_injective ht]

/-- Both payload formats are uniquely decodable from the left. -/
theorem encodePayload_prefix (hB : Function.Injective B.encode) (xs ys : List Packet)
    (hxs : ∀ p ∈ xs, p.data ≠ .empty) (hys : ∀ p ∈ ys, p.data ≠ .empty) :
    (StringFormat.encodePayload B xs <+: StringFormat.encodePayload B ys → xs <+: ys) ∧
      (BinaryFormat.encodePayload xs <+: BinaryFormat.encodePayload ys → xs <+: ys) ∧
      (xs ≠ ys → StringFormat.encodePayload B xs ≠ StringFormat.encodePayload B ys ∧
        BinaryFormat.encodePayload xs ≠ BinaryFormat.encodePayload ys) := by
  have hstring := string_prefixCode hB
  simp only [StringFormat.encodePayload_eq, BinaryFormat.encodePayload_eq]
  refine ⟨hstring.prefix_of_flatMap hxs hys, binary_prefixCode.prefix_of_flatMap hxs hys,
    fun hne ↦ ⟨?_, ?_⟩⟩
  · exact fun he ↦ hne (hstring.eq_of_flatMap hxs hys he)
  · exact fun he ↦ hne (binary_prefixCode.eq_of_flatMap hxs hys he)

theorem encodePayload_prefix_pings :
    let xs : List Packet := [⟨.ping, .text ['a']⟩, ⟨.message, .binary [1]⟩]
    let ys : List Packet := xs ++ [⟨.ping, .text []⟩]
    (StringFormat.encodePayload Base64.standard xs <+:
        StringFormat.encodePayload Base64.standard ys ∧
      BinaryFormat.encodePayload xs <+: BinaryFormat.encodePayload ys ∧ xs ≠ ys) ∧
    (StringFormat.encodePayload Base64.standard xs <+:
        StringFormat.encodePayload Base64.standard ys → xs <+: ys) ∧
    (BinaryFormat.encodePayload xs <+: BinaryFormat.encodePayload ys → xs <+: ys) ∧
    (xs ≠ ys →
      StringFormat.encodePayload Base64.standard xs ≠
          StringFormat.encodePayload Base64.standard ys ∧
        BinaryFormat.encodePayload xs ≠ BinaryFormat.encodePayload ys) := by
  intro xs ys
  refine ⟨⟨?_, ?_, by decide⟩, encodePayload_prefix Base64.standard_lawful.encode_injective xs ys
    (by decide) (by decide)⟩
  · decide
  · rw [BinaryFormat.encodePayload_eq, BinaryFormat.encodePayload_eq, List.flatMap_append]
    exact List.prefix_append _ _

end SocketIoRust.EngineIoParser.PayloadPrefix
