import SocketIoRust.EngineIoParser.StringFrames

namespace SocketIoRust.EngineIoParser.StringFormat

open Library Library.Nom Library.Decimal Library.Framing
open Library.Outcome (ok err)

variable (B : Base64.Codec)

/-- The characters that follow the packet type in an encoded packet. -/
def dataText : PacketData → Str
  | .text s => s
  | .binary d => B.encode d
  | .empty => []

/-- The length that is announced for a packet of a payload. -/
def announced (p : Packet) : ℕ :=
  match p.data with
  | .text s => s.length + 1
  | .binary d => (B.encode d).length + 2
  | .empty => 0

/-- When a payload comes back: in no packet does the data start with a digit, only the
last packet's data may be empty, and the announced lengths are `usize` values. -/
structure ComesBack (ps : List Packet) : Prop where
  digitFree : ∀ p ∈ ps, starts Char.isDigit (dataText B p.data) = false
  nonempty : ∀ p ∈ ps.dropLast, dataText B p.data ≠ []
  fits : ∀ p ∈ ps, announced B p < usizeSize

variable {B}

theorem exists_frame (hB : B.Lawful) (p : Packet) (hp : p.data ≠ .empty) :
    ∃ f : Frame B, f.packet = p ∧ f.render = inPayload B p ∧ value f.length = announced B p ∧
      f.body.chars = dataText B p.data := by
  obtain ⟨t, data⟩ := p
  cases data with
  | text s =>
    refine ⟨⟨print (s.length + 1), t, .text s, fun c hc ↦ isDigit_of_mem_print hc, ?_⟩, rfl, ?_,
      value_print _, rfl⟩
    · rw [value_print, Body.size, Nat.add_comm]
      simp [Body.marker, Body.chars]
    · simp [inPayload_text, Frame.render, Body.marker, Body.chars]
  | binary d =>
    refine ⟨⟨print ((B.encode d).length + 2), t, .base64 (B.encode d) d (hB.decode_encode d),
      fun c hc ↦ isDigit_of_mem_print hc, ?_⟩, rfl, ?_, value_print _, rfl⟩
    · rw [value_print, Body.size, Nat.add_comm]
      simp [Body.marker, Body.chars]
    · simp [inPayload_binary, Frame.render, Body.marker, Body.chars]
  | empty => exact absurd rfl hp

theorem starts_chars_renderAll (chars : Str) (fs : List (Frame B)) :
    starts Char.isDigit (chars ++ (grammar B).renderAll fs) = false ↔
      starts Char.isDigit chars = false ∧ (fs ≠ [] → chars ≠ []) := by
  by_cases hc : chars = []
  · subst hc
    cases fs with
    | nil => simp [Grammar.renderAll]
    | cons f fs =>
      have h := f.starts_render ((grammar B).renderAll fs)
      rw [List.nil_append, (grammar B).renderAll_cons]
      simp [grammar] at h ⊢
      simp [h]
  · simp [starts_append_left hc, hc]

theorem comesBack_nil : ComesBack B [] := ⟨by simp, by simp, by simp⟩

theorem comesBack_cons {p : Packet} {ps : List Packet} :
    ComesBack B (p :: ps) ↔
      (announced B p < usizeSize ∧ starts Char.isDigit (dataText B p.data) = false ∧
        (ps ≠ [] → dataText B p.data ≠ [])) ∧ ComesBack B ps := by
  constructor
  · intro h
    refine ⟨⟨h.fits _ (by simp), h.digitFree _ (by simp), ?_⟩, ?_, ?_, ?_⟩
    · intro hps
      obtain ⟨q, qs, rfl⟩ := List.exists_cons_of_ne_nil hps
      exact h.nonempty _ (by simp)
    · intro q hq
      exact h.digitFree q (by simp [hq])
    · intro q hq
      cases ps with
      | nil => simp at hq
      | cons p' ps => exact h.nonempty q (by rw [List.dropLast_cons_cons]; simp [hq])
    · intro q hq
      exact h.fits q (by simp [hq])
  · intro h
    obtain ⟨⟨hfit, hdigit, hne⟩, h⟩ := h
    refine ⟨?_, ?_, ?_⟩
    · simpa using ⟨hdigit, h.digitFree⟩
    · intro q hq
      cases ps with
      | nil => simp at hq
      | cons p' ps =>
        rw [List.dropLast_cons_cons, List.mem_cons] at hq
        rcases hq with rfl | hq
        · exact hne (by simp)
        · exact h.nonempty q hq
    · simpa using ⟨hfit, h.fits⟩

theorem exists_frames (hB : B.Lawful) (ps : List Packet) (hps : ∀ p ∈ ps, p.data ≠ .empty) :
    ∃ fs : List (Frame B), fs.map Frame.packet = ps ∧
      (grammar B).renderAll fs = encodePayload B ps ∧
      (CleanAll (grammar B) CleanAt fs ↔ ComesBack B ps) := by
  induction ps with
  | nil => exact ⟨[], rfl, rfl, fun _ ↦ comesBack_nil, fun _ ↦ trivial⟩
  | cons p ps ih =>
    obtain ⟨fs, hm, hr, hc⟩ := ih (fun q hq ↦ hps q (by simp [hq]))
    obtain ⟨f, rfl, hrender, hvalue, hchars⟩ := exists_frame hB p (hps p (by simp))
    have hnil : fs ≠ [] ↔ ps ≠ [] := by
      rw [← hm]
      simp
    refine ⟨f :: fs, by rw [List.map_cons, hm], ?_, ?_⟩
    · rw [(grammar B).renderAll_cons, encodePayload_cons, hr, ← hrender]
      rfl
    · rw [CleanAll, hc, CleanAt, starts_chars_renderAll, hchars, hvalue, hnil, comesBack_cons]

/-- A payload of text and binary packets comes back in these cases only. -/
theorem decodePayload_encodePayload_iff (hB : B.Lawful) (o : Overflow) (ps : List Packet)
    (hps : ∀ p ∈ ps, p.data ≠ .empty) :
    decodePayload B o (encodePayload B ps) = ok ps ↔ ComesBack B ps := by
  obtain ⟨fs, hm, hr, hc⟩ := exists_frames hB ps hps
  rw [← hc, ← decodePayload_frames_iff hB o fs, hr, hm]

theorem decodePayload_encodePayload_hi :
    decodePayload Base64.standard .checked
        (encodePayload Base64.standard [⟨.message, .text ['h', 'i']⟩, ⟨.ping, .binary [1, 2]⟩]) =
      ok [⟨.message, .text ['h', 'i']⟩, ⟨.ping, .binary [1, 2]⟩] :=
  (decodePayload_encodePayload_iff Base64.standard_lawful .checked
    [⟨.message, .text ['h', 'i']⟩, ⟨.ping, .binary [1, 2]⟩] (by decide)).mpr
    ⟨by decide, by decide, by decide⟩

theorem decodePayload_digitText :
    ¬ ∀ ps : List Packet, (∀ p ∈ ps, p.data ≠ .empty) →
      decodePayload Base64.standard .checked (encodePayload Base64.standard ps) = ok ps := by
  intro h
  have h := h [⟨.message, .text ['2', '[', '"', 'h', 'i', '"', ']']⟩] (by decide)
  revert h
  decide +kernel

end SocketIoRust.EngineIoParser.StringFormat
