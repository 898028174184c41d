import SocketIoRust.EngineIoParser.BinaryReading
import SocketIoRust.Library.Framing

namespace SocketIoRust.EngineIoParser.BinaryFormat

open Library Library.Nom Library.Framing
open Library.Outcome (ok err)

inductive DataType where
  | string
  | binary
deriving DecidableEq, Repr

def DataType.marker : DataType → UInt8
  | string => 0
  | binary => 1

/-- A packet type is an ASCII digit in front of string data, a plain byte otherwise. -/
def DataType.typeByte : DataType → PacketType → UInt8
  | string, t => t.toU8 + 48
  | binary, t => t.toU8

/-- A frame `<0 or 1><length digits><255><type><data>` of the binary format. -/
structure Frame where
  dataType : DataType
  length : Bytes
  packetType : PacketType
  data : Bytes
  digits : ∀ d ∈ length, d.toNat < 10
  announces : lengthValue length = data.length + 1
  addressable : data.length + 1 < usizeSize
  utf8 : dataType = .string → Utf8.IsUtf8 data

def Frame.render (f : Frame) : Bytes :=
  f.dataType.marker :: (f.length ++ 255 :: f.dataType.typeByte f.packetType :: f.data)

/-- The bytes that some data amount to, whichever way they are held. -/
def dataBytes : PacketData → Bytes
  | .text s => Utf8.asBytes s
  | .binary d => d
  | .empty => []

def grammar : Grammar UInt8 Packet Frame where
  render := Frame.render
  Denotes f p := p.packetType = f.packetType ∧ dataBytes p.data = f.data

/-- The length is computed without overflow, and no digit follows the digit of the type. -/
def CleanAt (o : Overflow) (f : Frame) (rest : Bytes) : Prop :=
  LengthFits o f.length ∧
    (f.dataType = .string → starts isDecDigit (f.data ++ rest) = false)

theorem Frame.length_run (f : Frame) (rest : Bytes) :
    MaximalRun isLengthByte f.length (255 :: rest) := by
  refine ⟨?_, fun d hd ↦ ?_, rfl⟩
  · intro hnil
    have h := f.announces
    rw [hnil, lengthValue_nil] at h
    omega
  · have hlt := f.digits d hd
    have hne : d ≠ 255 := by
      intro he
      subst he
      exact absurd hlt (by decide)
    simpa [isLengthByte] using hne

theorem Frame.announces_iff (f : Frame) {o : Overflow} :
    Announces o f.length f.data.length ↔ LengthFits o f.length :=
  BinaryFormat.announces_iff f.announces f.addressable

theorem starts_renderAll (fs : List Frame) :
    starts isDecDigit (grammar.renderAll fs) = false := by
  cases fs with
  | nil => rfl
  | cons f fs =>
    rw [grammar.renderAll_cons]
    change isDecDigit f.dataType.marker = false
    cases f.dataType <;> decide

theorem isDecDigit_ascii (t : PacketType) : isDecDigit (t.toU8 + 48) = true := by
  cases t <;> decide

theorem accepts_of_clean {o : Overflow} {f : Frame} {rest : Bytes} (hc : CleanAt o f rest) :
    Accepts o (f.render ++ rest) ⟨f.packetType, .binary f.data⟩ rest := by
  obtain ⟨hfit, hs⟩ := hc
  have hn := f.announces_iff.mpr hfit
  obtain ⟨dataType, length, t, data, digits, announces, addressable, utf8⟩ := f
  have hrun (tail : Bytes) := Frame.length_run
    ⟨dataType, length, t, data, digits, announces, addressable, utf8⟩ tail
  cases dataType with
  | string =>
    have hr : MaximalRun isDecDigit [t.toU8 + 48] (data ++ rest) :=
      ⟨by simp, by simpa using isDecDigit_ascii t, hs rfl⟩
    have h := Accepts.string (hrun _) hn hr (utf8 rfl)
    simpa only [Frame.render, DataType.marker, DataType.typeByte, List.nil_append,
      List.cons_append, List.append_assoc] using h
  | binary =>
    have h := Accepts.binary (hrun (t.toU8 :: (data ++ rest))) hn
    simpa only [Frame.render, DataType.marker, DataType.typeByte, List.cons_append,
      List.append_assoc] using h

/-- If the parser reads back the type and the data of a string frame, then the digits it
took for the type were the type's own digit alone. -/
theorem type_alone {es data rest : Bytes} {b : UInt8} {fs : List Frame}
    (hr : MaximalRun isDecDigit (b :: es) (data ++ rest))
    (he : data ++ grammar.renderAll fs = es ++ (data ++ rest)) :
    starts isDecDigit (data ++ grammar.renderAll fs) = false ∧ rest = grammar.renderAll fs := by
  cases es with
  | nil =>
    rw [List.nil_append] at he
    rw [he]
    exact ⟨hr.stop, (List.append_cancel_left he).symm⟩
  | cons a es =>
    have hdigit : starts isDecDigit (data ++ grammar.renderAll fs) = true := by
      rw [he]
      exact hr.all a (by simp)
    by_cases hd : data = []
    · rw [hd, List.nil_append, starts_renderAll] at hdigit
      cases hdigit
    · have hstop := hr.stop
      rw [starts_append_left hd] at hdigit hstop
      rw [hstop] at hdigit
      cases hdigit

theorem clean_of_accepts {o : Overflow} {f : Frame} {fs : List Frame} {p : Packet} {rest : Bytes}
    (hp : grammar.Denotes f p) (h : Accepts o (f.render ++ grammar.renderAll fs) p rest) :
    CleanAt o f (grammar.renderAll fs) ∧ rest = grammar.renderAll fs := by
  have hfit := f.announces_iff (o := o)
  obtain ⟨dataType, length, t, data, digits, announces, addressable, utf8⟩ := f
  have hrun (tail : Bytes) := Frame.length_run
    ⟨dataType, length, t, data, digits, announces, addressable, utf8⟩ tail
  obtain ⟨htype, hdata⟩ := hp
  cases dataType with
  | string =>
    simp only [Frame.render, DataType.marker, DataType.typeByte, List.cons_append,
      List.append_assoc] at h
    generalize hi : (0 : UInt8) :: (length ++ 255 :: (t.toU8 + 48) ::
      (data ++ grammar.renderAll fs)) = input at h
    cases h with
    | string hd hn hr hu =>
      obtain ⟨rfl, htail⟩ := (hrun _).unique hd (List.cons.inj hi).2
      cases htype
      cases hdata
      obtain ⟨hs, hrest⟩ := type_alone hr (List.cons.inj (List.cons.inj htail).2).2
      exact ⟨⟨hfit.mp hn, fun _ ↦ hs⟩, hrest⟩
    | binary => cases hi
  | binary =>
    simp only [Frame.render, DataType.marker, DataType.typeByte, List.cons_append,
      List.append_assoc] at h
    generalize hi : (1 : UInt8) :: (length ++ 255 :: t.toU8 ::
      (data ++ grammar.renderAll fs)) = input at h
    cases h with
    | string => cases hi
    | binary hd hn =>
      obtain ⟨rfl, htail⟩ := (hrun _).unique hd (List.cons.inj hi).2
      cases hdata
      have hrest := List.append_cancel_left (List.cons.inj (List.cons.inj htail).2).2
      exact ⟨⟨hfit.mp hn, fun ht ↦ nomatch ht⟩, hrest.symm⟩

/-- The frame parser reads frames of the grammar for what they are exactly when they
are clean. -/
theorem framed (o : Overflow) : Framed grammar (parseBinaryPacketInPayload o) (CleanAt o) where
  consuming := parse_consuming o
  stop := ⟨[], .eof, rfl⟩
  read _ _ hc := ⟨_, ⟨rfl, rfl⟩, parse_of_accepts (accepts_of_clean hc)⟩
  clean _ _ _ _ hp h := clean_of_accepts hp ((parse_spec o).yields_iff.mp h)

def unableToDecodePayload : ParsePacketError := ⟨"Unable to decode payload"⟩

theorem decodePayload_eq (o : Overflow) :
    decodePayload o = decodeAll unableToDecodePayload (parseBinaryPacketInPayload o) := by
  funext input
  unfold decodePayload parseBinaryPayload decodeAll
  cases foldMany0 (parseBinaryPacketInPayload o) (fun acc item ↦ acc ++ [item]) [] input <;> rfl

end SocketIoRust.EngineIoParser.BinaryFormat
