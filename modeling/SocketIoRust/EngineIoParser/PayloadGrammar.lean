import SocketIoRust.EngineIoParser.StringFrames
import SocketIoRust.EngineIoParser.BinaryFrames

namespace SocketIoRust.EngineIoParser.PayloadGrammar

open Library Library.Nom Library.Framing
open Library.Outcome (ok err)

variable {B : Base64.Codec}

/-- When `decode_payload` returns nothing but the packets of a whole sequence of frames,
in either format: never for an input with a part that is only rejected recoverably. -/
theorem decodePayload_exact_iff (hB : B.Lawful) (o : Overflow) (str : Str) (bytes : Bytes) :
    (Exact (StringFormat.grammar B) (StringFormat.decodePayload B o) str ↔
      (∃ fs, str = (StringFormat.grammar B).renderAll fs ∧
        CleanAll (StringFormat.grammar B) StringFormat.CleanAt fs) ∨
      (∃ ps rest, Reads (StringFormat.Accepts B o) str ps rest ∧
        StringFormat.Malformed B o rest) ∨
      ((∃ ps rest, Reads (StringFormat.Accepts B o) str ps rest ∧
        o = .checked ∧ StringFormat.Underflows rest) ∧
          ∃ ps, (StringFormat.grammar B).Splits ps str)) ∧
    (Exact BinaryFormat.grammar (BinaryFormat.decodePayload o) bytes ↔
      (∃ fs, bytes = BinaryFormat.grammar.renderAll fs ∧
        CleanAll BinaryFormat.grammar (BinaryFormat.CleanAt o) fs) ∨
      (∃ ps rest, Reads (BinaryFormat.Accepts o) bytes ps rest ∧
        BinaryFormat.Malformed o rest) ∨
      ((∃ ps rest, Reads (BinaryFormat.Accepts o) bytes ps rest ∧
        o = .checked ∧ BinaryFormat.Overflows rest) ∧
          ∃ ps, BinaryFormat.grammar.Splits ps bytes)) := by
  constructor
  · rw [StringFormat.decodePayload_eq]
    exact exact_iff _ (StringFormat.framed hB o) (StringFormat.parse_spec B o) str
  · rw [BinaryFormat.decodePayload_eq]
    exact exact_iff _ (BinaryFormat.framed o) (BinaryFormat.parse_spec o) bytes

theorem decodePayload_exact_hi :
    Exact (StringFormat.grammar Base64.standard)
        (StringFormat.decodePayload Base64.standard .checked) ['3', ':', '4', 'h', 'i'] ∧
      Exact BinaryFormat.grammar (BinaryFormat.decodePayload .checked) [1, 2, 255, 4, 9] := by
  obtain ⟨hs, hb⟩ := decodePayload_exact_iff Base64.standard_lawful .checked
    ['3', ':', '4', 'h', 'i'] [1, 2, 255, 4, 9]
  refine ⟨hs.mpr (.inl ⟨[⟨['3'], .message, .text ['h', 'i'], by simp, by decide⟩], rfl, ?_⟩),
    hb.mpr (.inl ⟨[⟨.binary, [2], .message, [9], by simp, by decide, by decide, by decide⟩],
      rfl, ?_⟩)⟩
  · exact ⟨⟨by decide, by decide⟩, trivial⟩
  · exact ⟨⟨⟨by decide, by decide⟩, fun h ↦ nomatch h⟩, trivial⟩

theorem not_splits_nil {τ α φ : Type} {G : Grammar τ α φ} {input : List τ} (h : input ≠ []) :
    ¬ G.Splits [] input := by
  intro hx
  obtain ⟨fs, rfl, hd⟩ := hx
  cases hd
  exact h rfl

theorem decodePayload_truncated :
    ¬ (∀ str, Exact (StringFormat.grammar Base64.standard)
        (StringFormat.decodePayload Base64.standard .checked) str) ∧
      ¬ ∀ bytes, Exact BinaryFormat.grammar (BinaryFormat.decodePayload .checked) bytes := by
  constructor
  · intro h
    have hok : StringFormat.decodePayload Base64.standard .checked ['3', ':', '4', 'h'] = ok [] := by
      decide +kernel
    exact not_splits_nil (by simp) ((h ['3', ':', '4', 'h']).1 [] hok)
  · intro h
    have hok : BinaryFormat.decodePayload .checked [1, 3, 255, 4, 9] = ok [] := by decide +kernel
    exact not_splits_nil (by simp) ((h [1, 3, 255, 4, 9]).1 [] hok)

end SocketIoRust.EngineIoParser.PayloadGrammar
