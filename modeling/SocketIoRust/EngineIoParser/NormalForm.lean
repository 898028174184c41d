import SocketIoRust.EngineIoParser.StringRoundTrip
import SocketIoRust.EngineIoParser.BinaryRoundTrip

namespace SocketIoRust.EngineIoParser

open Library Library.Nom Library.Decimal Library.Framing
open Library.Outcome (ok err)

namespace StringFormat

variable {B : Base64.Codec} {o : Overflow} {input rest : Str} {p : Packet} {ps : List Packet}

theorem starts_of_accepts (h : Accepts B o input p rest) : starts Char.isDigit input = true := by
  have hrun {ds r : Str} (hd : MaximalRun Char.isDigit ds r) (r' : Str) :
      starts Char.isDigit (ds ++ r') = true := by
    obtain ⟨c, ds, rfl⟩ := List.exists_cons_of_ne_nil hd.ne_nil
    exact hd.all c (List.mem_cons_self ..)
  cases h with
  | text hd => exact hrun hd _
  | base64 hd => exact hrun hd _

/-- The digits that stand before the data have all been read. -/
theorem starts_of_run {es x : Str} (hr : MaximalRun Char.isDigit es (x ++ rest)) :
    starts Char.isDigit x = false ∧ (x = [] → starts Char.isDigit rest = false) := by
  have hstop := hr.stop
  by_cases hx : x = []
  · subst hx
    exact ⟨rfl, fun _ ↦ hstop⟩
  · rw [starts_append_left hx] at hstop
    exact ⟨hstop, fun h ↦ absurd h hx⟩

/-- A text that is accepted starts like the encoding of its bytes. -/
theorem starts_encode (hB : B.Lawful) (hP : B.Pads) {x : Str} {d : Bytes}
    (hx : B.decode x = some d) : (B.encode d = [] ↔ x = []) ∧
      starts Char.isDigit (B.encode d) = starts Char.isDigit x := by
  by_cases hnil : x = []
  · have hdecode := hB.decode_encode []
    rw [hP.encode_nil, ← hnil, hx] at hdecode
    rw [Option.some.inj hdecode, hP.encode_nil, hnil]
    exact ⟨Iff.rfl, rfl⟩
  · obtain ⟨padding, hpad⟩ := hB.canonical x d hx
    rw [← hpad, starts_append_left hnil]
    simp [hnil]

/-- What is read of a packet can be written again: its data do not start with a digit, nor
does what follows if there are no data. -/
theorem accepts_comesBack (hB : B.Lawful) (hP : B.Pads) (h : Accepts B o input p rest)
    (hlen : input.length < usizeSize) :
    announced B p < usizeSize ∧ starts Char.isDigit (dataText B p.data) = false ∧
      (dataText B p.data = [] → starts Char.isDigit rest = false) := by
  cases h with
  | text hd hv hn hr ht =>
    have hds := List.length_pos_of_ne_nil hd.ne_nil
    refine ⟨?_, starts_of_run hr⟩
    simp only [announced, List.length_append, List.length_cons] at hlen ⊢
    omega
  | @base64 ds es x rest t n d hd hv hn hk hr ht hx =>
    have hds := List.length_pos_of_ne_nil hd.ne_nil
    have hes := List.length_pos_of_ne_nil hr.ne_nil
    have hle := hP.length_le x d hx
    obtain ⟨hnil, hstarts⟩ := starts_encode hB hP hx
    refine ⟨?_, ?_⟩
    · simp only [announced, List.length_append, List.length_cons] at hlen ⊢
      omega
    · rw [dataText, hnil, hstarts]
      exact starts_of_run hr

theorem reads_comesBack (hB : B.Lawful) (hP : B.Pads) (h : Reads (Accepts B o) input ps rest)
    (hlen : input.length < usizeSize) : ComesBack B ps := by
  induction h with
  | nil => exact comesBack_nil
  | @cons input mid rest p ps ha hr ih =>
    have hshort := parse_consuming B o _ _ _ (parse_of_accepts ha)
    obtain ⟨hfits, hdigit, hnext⟩ := accepts_comesBack hB hP ha hlen
    refine comesBack_cons.mpr ⟨⟨hfits, hdigit, ?_⟩, ih (hshort.trans hlen)⟩
    intro hps hnil
    cases hr with
    | nil => exact hps rfl
    | cons ha' _ =>
      rw [starts_of_accepts ha'] at hnext
      cases hnext hnil

theorem decodePayload_normal (hB : B.Lawful) (hP : B.Pads) (hlen : input.length < usizeSize)
    (h : decodePayload B o input = ok ps) :
    decodePayload B o (encodePayload B ps) = ok ps ∧ ComesBack B ps := by
  rw [decodePayload_eq] at h
  obtain ⟨rest, hr, -⟩ := reads_of_decodeAll (parse_consuming B o) h
  rw [(parse_spec B o).yields_eq] at hr
  have hne : ∀ p ∈ ps, p.data ≠ .empty := by
    refine hr.forall ?_
    intro input p rest ha
    cases ha <;> exact fun hdata ↦ nomatch hdata
  have hback := reads_comesBack hB hP hr hlen
  obtain ⟨fs, hm, hrender, hc⟩ := exists_frames hB ps hne
  rw [← hrender, ← hm, decodePayload_frames_iff hB o fs, hm]
  exact ⟨hc.mpr hback, hback⟩

end StringFormat

namespace BinaryFormat

variable {o : Overflow} {input rest : Bytes} {p : Packet} {ps : List Packet}

theorem packetLengthLoop_lt {ds : Bytes} {i acc l : ℕ} (hacc : acc < u32Size)
    (h : packetLengthLoop o ds i acc = ok l) : l < u32Size := by
  have hfit {x y : ℕ} (hy : (fit o u32Size x : Outcome (Err Bytes) ℕ) = ok y) : y < u32Size := by
    unfold fit at hy
    split at hy
    · rwa [← Outcome.ok.inj hy]
    · cases o with
      | checked => cases hy
      | wrapping =>
        rw [← Outcome.ok.inj hy]
        exact Nat.mod_lt _ (by norm_num)
  induction i generalizing acc with
  | zero => rwa [← Outcome.ok.inj h]
  | succ i ih =>
    unfold packetLengthLoop at h
    obtain ⟨power, -, h⟩ := Outcome.bind_eq_ok.mp h
    obtain ⟨term, -, h⟩ := Outcome.bind_eq_ok.mp h
    obtain ⟨acc', hacc', h⟩ := Outcome.bind_eq_ok.mp h
    exact ih (hfit hacc') h

theorem announces_lt {ds : Bytes} {n : ℕ} (h : Announces o ds n) (hn : n + 1 < usizeSize) :
    n + 1 < u32Size := by
  obtain ⟨l, hl, hs⟩ := h
  have hlt := packetLengthLoop_lt (by norm_num) hl
  unfold subtract at hs
  split at hs
  · have hs := Outcome.ok.inj hs
    omega
  · cases o with
    | checked => cases hs
    | wrapping =>
      have hs := Outcome.ok.inj hs
      omega

/-- What is read of a packet are bytes, so many that a `u32` holds their number. -/
theorem accepts_bytes (h : Accepts o input p rest) (hlen : input.length < usizeSize) :
    ∃ d, p.data = .binary d ∧ d.length + 1 < u32Size := by
  cases h with
  | string hd hn hr hu =>
    refine ⟨_, rfl, announces_lt hn ?_⟩
    simp only [List.length_append, List.length_cons] at hlen
    omega
  | binary hd hn =>
    refine ⟨_, rfl, announces_lt hn ?_⟩
    simp only [List.length_append, List.length_cons] at hlen
    omega

theorem reads_bytes (h : Reads (Accepts o) input ps rest) (hlen : input.length < usizeSize) :
    ∀ p ∈ ps, ∃ d, p.data = .binary d ∧ d.length + 1 < u32Size := by
  induction h with
  | nil => simp
  | @cons input mid rest p ps ha hr ih =>
    have hshort := parse_consuming o _ _ _ (parse_of_accepts ha)
    rw [List.forall_mem_cons]
    exact ⟨accepts_bytes ha hlen, ih (hshort.trans hlen)⟩

theorem decodePayload_normal (hlen : input.length < usizeSize)
    (h : decodePayload o input = ok ps) :
    decodePayload o (encodePayload ps) = ok ps ∧
      ∀ p ∈ ps, ∃ d, p.data = .binary d ∧ d.length + 1 < u32Size := by
  rw [decodePayload_eq] at h
  obtain ⟨rest, hr, -⟩ := reads_of_decodeAll (parse_consuming o) h
  rw [(parse_spec o).yields_eq] at hr
  have hbytes := reads_bytes hr hlen
  refine ⟨?_, hbytes⟩
  have hagain := decodePayload_of_reads o (reads_binaryPackets o hbytes [])
  rwa [List.append_nil, decodePayload_nil, Outcome.map_ok, List.append_nil] at hagain

end BinaryFormat

namespace NormalForm

/-- What has been decoded once is in a normal form: in either format it comes back when it is
encoded again, whatever the payload was that it came from. -/
theorem decodePayload_stable {B : Base64.Codec} (hB : B.Lawful) (hP : B.Pads) (o : Overflow)
    (str : Str) (bytes : Bytes) (hstr : str.length < usizeSize)
    (hbytes : bytes.length < usizeSize) :
    (∀ ps, StringFormat.decodePayload B o str = ok ps →
      StringFormat.decodePayload B o (StringFormat.encodePayload B ps) = ok ps ∧
        StringFormat.ComesBack B ps) ∧
    ∀ ps, BinaryFormat.decodePayload o bytes = ok ps →
      BinaryFormat.decodePayload o (BinaryFormat.encodePayload ps) = ok ps ∧
        ∀ p ∈ ps, ∃ d, p.data = .binary d ∧ d.length + 1 < u32Size := by
  constructor
  · intro ps h
    exact StringFormat.decodePayload_normal hB hP hstr h
  · intro ps h
    exact BinaryFormat.decodePayload_normal hbytes h

/-- A length and a type with zeros in front, and a part that is dropped. -/
theorem decodePayload_stable_zeros :
    StringFormat.decodePayload Base64.standard .checked
        ['0', '3', ':', '0', '4', 'h', 'i', '7'] = ok [⟨.message, .text ['h', 'i']⟩] ∧
      (∀ ps, StringFormat.decodePayload Base64.standard .checked
          ['0', '3', ':', '0', '4', 'h', 'i', '7'] = ok ps →
        StringFormat.decodePayload Base64.standard .checked
            (StringFormat.encodePayload Base64.standard ps) = ok ps ∧
          StringFormat.ComesBack Base64.standard ps) ∧
      ∀ ps, BinaryFormat.decodePayload .checked [0, 3, 0, 255, 52, 48, 104, 105] = ok ps →
        BinaryFormat.decodePayload .checked (BinaryFormat.encodePayload ps) = ok ps ∧
          ∀ p ∈ ps, ∃ d, p.data = .binary d ∧ d.length + 1 < u32Size :=
  ⟨by decide +kernel, decodePayload_stable Base64.standard_lawful Base64.standard_pads .checked
    ['0', '3', ':', '0', '4', 'h', 'i', '7'] [0, 3, 0, 255, 52, 48, 104, 105]
    (by decide) (by decide)⟩

end NormalForm

end SocketIoRust.EngineIoParser
