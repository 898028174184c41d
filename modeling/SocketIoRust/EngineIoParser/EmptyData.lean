import SocketIoRust.EngineIoParser.StringFrames
import SocketIoRust.EngineIoParser.BinaryRoundTrip

namespace SocketIoRust.EngineIoParser.EmptyData

open Library Library.Nom Library.Framing
open Library.Outcome (ok err)

/-- As many packets come back as went in, and of the same types. -/
def KeepsTypes {τ : Type} (decode : List τ → Outcome ParsePacketError (List Packet))
    (encode : List Packet → List τ) (ps : List Packet) : Prop :=
  ∃ qs, decode (encode ps) = ok qs ∧ qs.map Packet.packetType = ps.map Packet.packetType

theorem KeepsTypes.length_eq {τ : Type} {decode : List τ → Outcome ParsePacketError (List Packet)}
    {encode : List Packet → List τ} {ps : List Packet} (h : KeepsTypes decode encode ps) :
    ∃ qs, decode (encode ps) = ok qs ∧ qs.length = ps.length := by
  obtain ⟨qs, hok, htypes⟩ := h
  have hlen := congrArg List.length htypes
  rw [List.length_map, List.length_map] at hlen
  exact ⟨qs, hok, hlen⟩

section StringFormat

open StringFormat

variable {B : Base64.Codec} {o : Overflow}

theorem count_colon_of_reads {input rest : Str} {ps : List Packet}
    (h : Reads (Accepts B o) input ps rest) : ps.length + rest.count ':' ≤ input.count ':' := by
  induction h with
  | nil => simp
  | @cons input mid rest p ps ha _ ih =>
    have hstep : mid.count ':' + 1 ≤ input.count ':' := by
      cases ha <;> simp <;> omega
    rw [List.length_cons]
    omega

theorem length_le_count_colon {input : Str} {ps : List Packet}
    (h : decodePayload B o input = ok ps) : ps.length ≤ input.count ':' := by
  rw [decodePayload_eq] at h
  obtain ⟨rest, hr, -⟩ := reads_of_decodeAll (parse_consuming B o) h
  rw [(parse_spec B o).yields_eq] at hr
  have hcount := count_colon_of_reads hr
  omega

theorem count_colon_print (n : ℕ) : (Decimal.print n).count ':' = 0 := by
  rw [List.count_eq_zero]
  intro hmem
  exact absurd (Decimal.isDigit_of_mem_print hmem) (by decide)

theorem count_colon_inPayload (hB : B.Lawful) {p : Packet} (hp : ∃ d, p.data = .binary d) :
    (inPayload B p).count ':' = 1 := by
  obtain ⟨t, data⟩ := p
  obtain ⟨d, rfl⟩ := hp
  have hbase : (B.encode d).count ':' = 0 := by
    rw [List.count_eq_zero]
    intro hmem
    rcases hB.alphabet d ':' hmem with h | h
    · exact absurd h (by decide)
    · exact absurd h (by decide)
  have htype : t.toChar ≠ ':' := by cases t <;> decide
  rw [inPayload_binary, List.count_append, count_colon_print, List.count_cons_self,
    List.count_cons_of_ne (by decide), List.count_cons_of_ne htype, hbase]

theorem count_colon_encodePayload (hB : B.Lawful) {xs : List Packet}
    (hxs : ∀ x ∈ xs, ∃ d, x.data = .binary d) : (encodePayload B xs).count ':' = xs.length := by
  induction xs with
  | nil => rfl
  | cons x xs ih =>
    rw [encodePayload_cons, List.count_append, count_colon_inPayload hB (hxs x (by simp)),
      ih (fun y hy ↦ hxs y (by simp [hy])), List.length_cons, Nat.add_comm]

theorem string_not_keepsTypes (hB : B.Lawful) (o : Overflow) (xs ys : List Packet)
    (t : PacketType) (hxs : ∀ x ∈ xs, ∃ d, x.data = .binary d)
    (hys : ∀ y ∈ ys, ∃ d, y.data = .binary d) :
    ¬ KeepsTypes (decodePayload B o) (encodePayload B) (xs ++ ⟨t, .empty⟩ :: ys) := by
  intro h
  obtain ⟨qs, hok, hlen⟩ := h.length_eq
  have hle := length_le_count_colon hok
  rw [encodePayload_eq, List.flatMap_append, ← encodePayload_eq, ← encodePayload_eq,
    encodePayload_cons, inPayload_empty, List.nil_append, List.count_append,
    count_colon_encodePayload hB hxs, count_colon_encodePayload hB hys] at hle
  rw [List.length_append, List.length_cons] at hlen
  omega

end StringFormat

section BinaryFormat

open BinaryFormat

/-- The frame written for empty data announces 47 bytes after a type that does not exist. -/
theorem decodePayload_emptyFrame (o : Overflow) (t : PacketType) (rest : Bytes) :
    decodePayload o (inPayload ⟨t, .empty⟩ ++ rest) = ok [] := by
  have hrun : MaximalRun isLengthByte [48] (255 :: (t.toU8 + 48) :: rest) :=
    ⟨by simp, by simp [isLengthByte], rfl⟩
  have hfit : LengthFits o [48] := ⟨by decide, fun _ ↦ by decide⟩
  have hn : Announces o [48] 47 := (announces_iff (by decide) (by decide)).mpr hfit
  have hparse := parse_of_announces (.inr rfl) hrun hn
  rw [if_neg (by decide)] at hparse
  rw [decodePayload_eq]
  rcases binaryData_cases ((t.toU8 + 48) :: rest) 47 with ⟨u, _, _, he, -⟩ | ⟨j, k, he⟩
  · have htype : t.toU8 + 48 ≠ u.toU8 := by cases t <;> cases u <;> decide
    exact absurd (List.cons.inj he).1 htype
  · exact decodeAll_of_error _ (hparse.trans he)

theorem binary_of_empty (o : Overflow) (xs ys : List Packet) (t : PacketType)
    (hxs : ∀ x ∈ xs, ∃ d, x.data = .binary d ∧ d.length + 1 < u32Size) :
    decodePayload o (encodePayload (xs ++ ⟨t, .empty⟩ :: ys)) = ok xs := by
  rw [encodePayload_eq, List.flatMap_append, ← encodePayload_eq, ← encodePayload_eq,
    encodePayload_cons, decodePayload_of_reads o (reads_binaryPackets o hxs _),
    decodePayload_emptyFrame, Outcome.map_ok, List.append_nil]

end BinaryFormat

/-- A packet with empty data is always lost: the string format leaves it out, and the
binary format writes a frame at which decoding stops. -/
theorem empty_is_lost {B : Base64.Codec} (hB : B.Lawful) (o : Overflow) (xs ys : List Packet)
    (t : PacketType) (hxs : ∀ x ∈ xs, ∃ d, x.data = .binary d)
    (hys : ∀ y ∈ ys, ∃ d, y.data = .binary d) :
    ¬ KeepsTypes (StringFormat.decodePayload B o) (StringFormat.encodePayload B)
        (xs ++ ⟨t, .empty⟩ :: ys) ∧
      ((∀ x ∈ xs, (BinaryFormat.dataBytes x.data).length + 1 < u32Size) →
        BinaryFormat.decodePayload o (BinaryFormat.encodePayload (xs ++ ⟨t, .empty⟩ :: ys)) =
            ok xs ∧
          ¬ KeepsTypes (BinaryFormat.decodePayload o) BinaryFormat.encodePayload
            (xs ++ ⟨t, .empty⟩ :: ys)) := by
  refine ⟨string_not_keepsTypes hB o xs ys t hxs hys, ?_⟩
  intro hfit
  have hdecode := binary_of_empty o xs ys t fun x hx ↦ by
    obtain ⟨d, hd⟩ := hxs x hx
    have hlen := hfit x hx
    rw [hd] at hlen
    exact ⟨d, hd, hlen⟩
  refine ⟨hdecode, ?_⟩
  intro h
  obtain ⟨qs, hok, hlen⟩ := h.length_eq
  rw [hdecode] at hok
  cases hok
  rw [List.length_append, List.length_cons] at hlen
  omega

theorem empty_is_lost_pong :
    ¬ KeepsTypes (StringFormat.decodePayload Base64.standard .checked)
        (StringFormat.encodePayload Base64.standard)
        ([⟨.message, .binary [1]⟩] ++ ⟨.pong, .empty⟩ :: []) ∧
      ((∀ x ∈ [(⟨.message, .binary [1]⟩ : Packet)],
          (BinaryFormat.dataBytes x.data).length + 1 < u32Size) →
        BinaryFormat.decodePayload .checked
            (BinaryFormat.encodePayload ([⟨.message, .binary [1]⟩] ++ ⟨.pong, .empty⟩ :: [])) =
            ok [⟨.message, .binary [1]⟩] ∧
          ¬ KeepsTypes (BinaryFormat.decodePayload .checked) BinaryFormat.encodePayload
            ([⟨.message, .binary [1]⟩] ++ ⟨.pong, .empty⟩ :: [])) :=
  empty_is_lost Base64.standard_lawful .checked [⟨.message, .binary [1]⟩] [] .pong
    (fun x hx ↦ ⟨[1], by rw [List.mem_singleton.mp hx]⟩) (by simp)

theorem keepsTypes_pong :
    ¬ ∀ (xs ys : List Packet) (t : PacketType), (∀ x ∈ xs, ∃ d, x.data = .binary d) →
      (∀ y ∈ ys, ∃ d, y.data = .binary d) →
      KeepsTypes (BinaryFormat.decodePayload .checked) BinaryFormat.encodePayload
          (xs ++ ⟨t, .empty⟩ :: ys) ∧
        KeepsTypes (StringFormat.decodePayload Base64.standard .checked)
          (StringFormat.encodePayload Base64.standard) (xs ++ ⟨t, .empty⟩ :: ys) := by
  intro h
  obtain ⟨⟨qs, hok, htypes⟩, -⟩ := h [] [] .pong (by simp) (by simp)
  have hnil : BinaryFormat.decodePayload .checked
      (BinaryFormat.encodePayload [⟨.pong, .empty⟩]) = ok [] := by decide +kernel
  rw [List.nil_append, hnil] at hok
  cases hok
  exact absurd htypes (by decide)

end SocketIoRust.EngineIoParser.EmptyData
