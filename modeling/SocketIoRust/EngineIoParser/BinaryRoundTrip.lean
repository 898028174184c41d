import SocketIoRust.EngineIoParser.BinaryFrames

namespace SocketIoRust.EngineIoParser.BinaryFormat

open Library Library.Nom Library.Framing
open Library.Outcome (ok err)

/-- What the decoder makes of a packet whose frame it reads. -/
def asBinary (p : Packet) : Packet := ⟨p.packetType, .binary (dataBytes p.data)⟩

theorem exists_frame (p : Packet) (hp : p.data ≠ .empty)
    (hlen : (dataBytes p.data).length + 1 < u32Size) :
    ∃ f : Frame, f.render = inPayload p ∧ ⟨f.packetType, .binary f.data⟩ = asBinary p ∧
      (∀ o, LengthFits o f.length) ∧ (f.dataType = .string ↔ ∃ s, p.data = .text s) := by
  obtain ⟨t, data⟩ := p
  have haddr : (dataBytes data).length + 1 < usizeSize := lt_trans hlen (by norm_num)
  cases data with
  | text s =>
    exact ⟨⟨.string, encodePacketLength ((Utf8.asBytes s).length + 1), t, Utf8.asBytes s,
      fun d hd ↦ mem_encodePacketLength hd, lengthValue_encodePacketLength _, haddr,
      fun _ ↦ Utf8.isUtf8_asBytes s⟩, rfl, rfl, encodePacketLength_fits hlen, by simp⟩
  | binary d =>
    exact ⟨⟨.binary, encodePacketLength (d.length + 1), t, d,
      fun d hd ↦ mem_encodePacketLength hd, lengthValue_encodePacketLength _, haddr,
      fun h ↦ nomatch h⟩, rfl, rfl, encodePacketLength_fits hlen, by simp⟩
  | empty => exact absurd rfl hp

theorem accepts_inPayload (o : Overflow) (p : Packet) (hp : p.data ≠ .empty)
    (hlen : (dataBytes p.data).length + 1 < u32Size) (rest : Bytes)
    (hs : ∀ s, p.data = .text s → starts isDecDigit (Utf8.asBytes s ++ rest) = false) :
    Accepts o (inPayload p ++ rest) (asBinary p) rest := by
  obtain ⟨f, hrender, hpacket, hfit, htext⟩ := exists_frame p hp hlen
  rw [← hrender, ← hpacket]
  refine accepts_of_clean ⟨hfit o, fun hstring ↦ ?_⟩
  obtain ⟨s, hdata⟩ := htext.mp hstring
  rw [asBinary, hdata, Packet.mk.injEq, PacketData.binary.injEq] at hpacket
  rw [hpacket.2]
  exact hs s hdata

/-- The packets are read off the front of whatever follows them, as long as no digit
follows a packet type. -/
theorem reads_encodePayload (o : Overflow) (ps : List Packet) (t : Bytes)
    (hps : ∀ p ∈ ps, p.data ≠ .empty ∧ (dataBytes p.data).length + 1 < u32Size)
    (hs : ∀ p ∈ ps, ∀ s, p.data = .text s →
      s ≠ [] ∧ starts isDecDigit (Utf8.asBytes s) = false) :
    Reads (Accepts o) (encodePayload ps ++ t) (ps.map asBinary) t := by
  induction ps with
  | nil => exact .nil t
  | cons p ps ih =>
    have hp := hps p (by simp)
    rw [encodePayload_cons, List.append_assoc, List.map_cons]
    refine .cons (accepts_inPayload o p hp.1 hp.2 _ fun s hdata ↦ ?_)
      (ih (fun q hq ↦ hps q (by simp [hq])) (fun q hq ↦ hs q (by simp [hq])))
    obtain ⟨hne, hstart⟩ := hs p (by simp) s hdata
    rwa [starts_append_left (Utf8.asBytes_ne_nil hne)]

theorem decodePayload_of_reads (o : Overflow) {input rest : Bytes} {ps : List Packet}
    (h : Reads (Accepts o) input ps rest) :
    decodePayload o input = (decodePayload o rest).map (ps ++ ·) := by
  rw [← (parse_spec o).yields_eq] at h
  rw [decodePayload_eq]
  exact decodeAll_of_reads _ (parse_consuming o) h

theorem decodePayload_nil (o : Overflow) : decodePayload o [] = ok [] := by
  rw [decodePayload_eq]
  exact decodeAll_of_error _ rfl

theorem map_asBinary {xs : List Packet}
    (hxs : ∀ x ∈ xs, ∃ d, x.data = .binary d) : xs.map asBinary = xs := by
  rw [List.map_congr_left (g := id) fun x hx ↦ ?_, List.map_id]
  obtain ⟨d, hd⟩ := hxs x hx
  rw [asBinary, hd, id, dataBytes, ← hd]

theorem reads_binaryPackets (o : Overflow) {xs : List Packet}
    (hxs : ∀ x ∈ xs, ∃ d, x.data = .binary d ∧ d.length + 1 < u32Size) (t : Bytes) :
    Reads (Accepts o) (encodePayload xs ++ t) xs t := by
  have h := reads_encodePayload o xs t (fun x hx ↦ ?_) (fun x hx s hs ↦ ?_)
  · rwa [map_asBinary fun x hx ↦ ?_] at h
    obtain ⟨d, hd, -⟩ := hxs x hx
    exact ⟨d, hd⟩
  · obtain ⟨d, hd, hlen⟩ := hxs x hx
    rw [hd]
    exact ⟨by simp, hlen⟩
  · obtain ⟨d, hd, -⟩ := hxs x hx
    rw [hd] at hs
    cases hs

/-- Binary packets are decoded in front of whatever payload follows them. -/
theorem decodePayload_encodePayload_append (o : Overflow) (xs : List Packet)
    (hxs : ∀ x ∈ xs, ∃ d, x.data = .binary d ∧ d.length + 1 < u32Size) (t : Bytes) :
    decodePayload o (encodePayload xs ++ t) = (decodePayload o t).map (xs ++ ·) ∧
      decodePayload o (encodePayload xs) = ok xs := by
  refine ⟨decodePayload_of_reads o (reads_binaryPackets o hxs t), ?_⟩
  have h := decodePayload_of_reads o (reads_binaryPackets o hxs [])
  rwa [List.append_nil, decodePayload_nil, Outcome.map_ok, List.append_nil] at h

theorem decodePayload_encodePayload_append_ping :
    decodePayload .checked (encodePayload [⟨.ping, .binary [7, 255]⟩] ++ [2]) =
        (decodePayload .checked [2]).map ([⟨.ping, .binary [7, 255]⟩] ++ ·) ∧
      decodePayload .checked (encodePayload [⟨.ping, .binary [7, 255]⟩]) =
        ok [⟨.ping, .binary [7, 255]⟩] :=
  decodePayload_encodePayload_append .checked [⟨.ping, .binary [7, 255]⟩]
    (fun x hx ↦ by
      rw [List.mem_singleton] at hx
      exact ⟨[7, 255], by rw [hx], by decide⟩) [2]

theorem binary_of_decodePayload {o : Overflow} {input : Bytes} {ps : List Packet}
    (h : decodePayload o input = ok ps) : ∀ p ∈ ps, ∃ d, p.data = .binary d := by
  rw [decodePayload_eq] at h
  obtain ⟨rest, hr, -⟩ := reads_of_decodeAll (parse_consuming o) h
  rw [(parse_spec o).yields_eq] at hr
  refine hr.forall ?_
  intro input p rest ha
  cases ha with
  | string => exact ⟨_, rfl⟩
  | binary => exact ⟨_, rfl⟩

/-- Text never comes back as text from a binary payload. -/
theorem decodePayload_encodePayload_text_ne (o : Overflow) (ps : List Packet)
    (hps : ∃ p ∈ ps, ∃ s, p.data = .text s) : decodePayload o (encodePayload ps) ≠ ok ps := by
  intro h
  obtain ⟨p, hp, s, hs⟩ := hps
  obtain ⟨d, hd⟩ := binary_of_decodePayload h p hp
  rw [hs] at hd
  cases hd

theorem decodePayload_encodePayload_text_ne_euro :
    decodePayload .checked (encodePayload [⟨.message, .text ['€']⟩]) ≠
      ok [⟨.message, .text ['€']⟩] :=
  decodePayload_encodePayload_text_ne .checked [⟨.message, .text ['€']⟩]
    ⟨_, List.mem_singleton_self _, ['€'], rfl⟩

theorem decodePayload_euro :
    ¬ ∀ ps : List Packet, (∀ p ∈ ps, p.data ≠ .empty ∧ (dataBytes p.data).length + 1 < u32Size) →
      (∃ p ∈ ps, ∃ s, p.data = .text s) → decodePayload .checked (encodePayload ps) = ok ps := by
  intro h
  have h := h [⟨.message, .text ['€']⟩] (by decide) ⟨_, List.mem_singleton_self _, ['€'], rfl⟩
  revert h
  decide +kernel

end SocketIoRust.EngineIoParser.BinaryFormat
