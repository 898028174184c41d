import SocketIoRust.EngineIoParser.StringReading

namespace SocketIoRust.EngineIoParser.StringFormat

open Library Library.Nom Library.Decimal Library.Framing
open Library.Outcome (ok err)

/-- What a frame carries after its packet type. -/
inductive Body (B : Base64.Codec) where
  | text (s : Str)
  | base64 (x : Str) (d : Bytes) (decodes : B.decode x = some d)

variable {B : Base64.Codec}

def Body.marker : Body B → Str
  | text _ => []
  | base64 .. => ['b']

def Body.chars : Body B → Str
  | text s => s
  | base64 x _ _ => x

def Body.data : Body B → PacketData
  | text s => .text s
  | base64 _ d _ => .binary d

/-- The length that has to be announced: the packet type counts, and so does the `b`. -/
def Body.size (b : Body B) : ℕ := b.marker.length + 1 + b.chars.length

/-- A frame `<length>:<type><text>` or `<length>:b<type><base64>` of the string format. -/
structure Frame (B : Base64.Codec) where
  length : Str
  packetType : PacketType
  body : Body B
  digits : ∀ c ∈ length, c.isDigit = true
  announces : value length = body.size

def Frame.render (f : Frame B) : Str :=
  f.length ++ ':' :: (f.body.marker ++ f.packetType.toChar :: f.body.chars)

def Frame.packet (f : Frame B) : Packet := ⟨f.packetType, f.body.data⟩

variable (B) in
def grammar : Grammar Char Packet (Frame B) where
  render := Frame.render
  Denotes f p := p = f.packet

/-- The length fits its integer type, and no digit follows the digit of the type. -/
def CleanAt (f : Frame B) (rest : Str) : Prop :=
  value f.length < usizeSize ∧ starts Char.isDigit (f.body.chars ++ rest) = false

theorem Frame.length_run (f : Frame B) (rest : Str) :
    MaximalRun Char.isDigit f.length (':' :: rest) := by
  refine ⟨?_, f.digits, rfl⟩
  intro hnil
  have h := f.announces
  rw [hnil, Body.size] at h
  have h0 : value [] = 0 := rfl
  omega

theorem Frame.starts_render (f : Frame B) (rest : Str) :
    starts Char.isDigit (f.render ++ rest) = true := by
  have h := f.length_run []
  rw [Frame.render, List.append_assoc, starts_append_left h.ne_nil]
  cases hl : f.length with
  | nil => exact absurd hl h.ne_nil
  | cons c ds => exact f.digits c (by simp [hl])

theorem Frame.value_pos (f : Frame B) : 0 < value f.length := by
  rw [f.announces, Body.size]
  omega

theorem typeRun {t : PacketType} {rest : Str} (h : starts Char.isDigit rest = false) :
    MaximalRun Char.isDigit [t.toChar] rest :=
  ⟨by simp, by simpa using t.isDigit_toChar, h⟩

theorem value_toChar (t : PacketType) : value [t.toChar] = t.toU8.toNat := by
  rw [t.value_toChar_cons]
  simp [value]

theorem accepts_of_clean (o : Overflow) (f : Frame B) (rest : Str) (hc : CleanAt f rest) :
    Accepts B o (f.render ++ rest) f.packet rest := by
  obtain ⟨hv, hs⟩ := hc
  obtain ⟨length, t, body, digits, announces⟩ := f
  have hrun (tail : Str) : MaximalRun Char.isDigit length (':' :: tail) :=
    (Frame.length_run ⟨length, t, body, digits, announces⟩ tail)
  cases body with
  | text s =>
    simp only [Body.size, Body.marker, Body.chars, List.length_nil] at announces hv hs
    have hn : (subtract o usizeSize (value length) 1 : Outcome (Err Str) ℕ) = ok s.length := by
      rw [subtract_of_le (by omega)]
      congr 1
      omega
    have h := Accepts.text (B := B) (hrun _) hv hn (typeRun hs) (value_toChar t)
    simpa only [Frame.render, Frame.packet, Body.marker, Body.chars, Body.data, List.append_assoc,
      List.cons_append, List.nil_append] using h
  | base64 x d decodes =>
    simp only [Body.size, Body.marker, Body.chars, List.length_singleton] at announces hv hs
    have hn : (subtract o usizeSize (value length) 1 : Outcome (Err Str) ℕ) =
        ok (x.length + 1) := by
      rw [subtract_of_le (by omega)]
      congr 1
      omega
    have hk : (subtract o usizeSize (x.length + 1) 1 : Outcome (Err Str) ℕ) = ok x.length :=
      subtract_of_le (by omega)
    have h := Accepts.base64 (hrun _) hv hn hk (typeRun hs) (value_toChar t) decodes
    simpa only [Frame.render, Frame.packet, Body.marker, Body.chars, Body.data, List.append_assoc,
      List.cons_append, List.nil_append] using h

/-- A longer digit run does not have the value of its first digit, unless it is made
of zeros only. -/
theorem value_toChar_append_ne {t : PacketType} {ds : Str} (h : 0 < value ds) :
    value (t.toChar :: ds) ≠ t.toU8.toNat := by
  rw [t.value_toChar_cons]
  have hp := Nat.le_mul_of_pos_right t.toU8.toNat (Nat.pow_pos (n := ds.length) (by decide : 0 < 10))
  omega

/-- The digits in front of a sequence of frames are the first frame's length. -/
theorem value_pos_of_renderAll {es rest : Str} {fs : List (Frame B)}
    (hr : MaximalRun Char.isDigit es rest) (he : (grammar B).renderAll fs = es ++ rest) :
    0 < value es := by
  cases fs with
  | nil => exact absurd (List.append_eq_nil_iff.mp he.symm).1 hr.ne_nil
  | cons g gs =>
    have hg := g.length_run
      (g.body.marker ++ g.packetType.toChar :: g.body.chars ++ (grammar B).renderAll gs)
    have heq : g.length ++ ':' :: (g.body.marker ++ g.packetType.toChar :: g.body.chars ++
        (grammar B).renderAll gs) = es ++ rest := by
      rw [← he, (grammar B).renderAll_cons]
      simp [grammar, Frame.render]
    obtain ⟨hlen, -⟩ := hg.unique hr heq
    exact hlen ▸ g.value_pos

/-- If the parser reads back the type and the characters of a frame, then the digits
it took for the type were the type's own digit alone. -/
theorem type_alone {t : PacketType} {es chars rest : Str} {fs : List (Frame B)}
    (hr : MaximalRun Char.isDigit es (chars ++ rest)) (ht : value es = t.toU8.toNat)
    (he : t.toChar :: (chars ++ (grammar B).renderAll fs) = es ++ (chars ++ rest)) :
    starts Char.isDigit (chars ++ (grammar B).renderAll fs) = false ∧
      rest = (grammar B).renderAll fs := by
  cases es with
  | nil => exact absurd rfl hr.ne_nil
  | cons c es =>
    rw [List.cons_append, List.cons.injEq] at he
    obtain ⟨rfl, he⟩ := he
    by_cases hes : es = []
    · subst hes
      rw [List.nil_append] at he
      rw [he]
      exact ⟨hr.stop, (List.append_cancel_left he).symm⟩
    · -- the run goes on: into the characters, or past them into the next length
      have hrun : MaximalRun Char.isDigit es (chars ++ rest) :=
        ⟨hes, fun a ha ↦ hr.all a (by simp [ha]), hr.stop⟩
      have hdigit : starts Char.isDigit (chars ++ (grammar B).renderAll fs) = true := by
        rw [he]
        cases es with
        | nil => exact absurd rfl hes
        | cons a es => exact hrun.all a (by simp)
      by_cases hc : chars = []
      · subst hc
        rw [List.nil_append] at he hrun
        rw [List.nil_append] at he
        exact absurd ht (value_toChar_append_ne (value_pos_of_renderAll hrun he))
      · have hstop := hr.stop
        rw [starts_append_left hc] at hdigit hstop
        rw [hstop] at hdigit
        cases hdigit

theorem clean_of_accepts (hB : B.Lawful) {o : Overflow} {f : Frame B} {fs : List (Frame B)}
    {rest : Str} (h : Accepts B o (f.render ++ (grammar B).renderAll fs) f.packet rest) :
    CleanAt f ((grammar B).renderAll fs) ∧ rest = (grammar B).renderAll fs := by
  obtain ⟨length, t, body, digits, announces⟩ := f
  have hrun (tail : Str) : MaximalRun Char.isDigit length (':' :: tail) :=
    (Frame.length_run ⟨length, t, body, digits, announces⟩ tail)
  cases body with
  | text s =>
    simp only [Frame.render, Frame.packet, Body.marker, Body.chars, Body.data, List.append_assoc,
      List.cons_append, List.nil_append] at h
    generalize hi : length ++ ':' :: t.toChar :: (s ++ (grammar B).renderAll fs) = input at h
    cases h with
    | text hd hv hn hr ht =>
      obtain ⟨rfl, htail⟩ := (hrun _).unique hd hi
      obtain ⟨hs, rfl⟩ := type_alone hr ht (List.cons.inj htail).2
      exact ⟨⟨hv, hs⟩, rfl⟩
  | base64 x d decodes =>
    simp only [Frame.render, Frame.packet, Body.marker, Body.chars, Body.data, List.append_assoc,
      List.cons_append, List.nil_append] at h
    generalize hi : length ++ ':' :: 'b' :: t.toChar :: (x ++ (grammar B).renderAll fs) = input
      at h
    cases h with
    | @base64 ds es x' rest t n d hd hv hn hk hr ht hx =>
      obtain ⟨rfl, htail⟩ := (hrun _).unique hd hi
      simp only [Body.size, Body.marker, Body.chars, List.length_singleton] at announces
      have hlen : x'.length = x.length := by
        rw [subtract_of_le (by omega)] at hn
        cases hn
        rw [subtract_of_le (by omega)] at hk
        have h := Outcome.ok.inj hk
        omega
      have hpre : x' <+: x :=
        List.prefix_of_prefix_length_le (hB.canonical x' d hx) (hB.canonical x d decodes) hlen.le
      obtain rfl := hpre.eq_of_length hlen
      obtain ⟨hs, rfl⟩ := type_alone hr ht (List.cons.inj (List.cons.inj htail).2).2
      exact ⟨⟨hv, hs⟩, rfl⟩

/-- The frame parser reads frames of the grammar for what they are exactly when they
are clean. -/
theorem framed (hB : B.Lawful) (o : Overflow) :
    Framed (grammar B) (parseStringPacketInPayload B o) CleanAt where
  consuming := parse_consuming B o
  stop := ⟨[], .digit, rfl⟩
  read f rest hc := ⟨f.packet, rfl, parse_of_accepts (accepts_of_clean o f rest hc)⟩
  clean f fs rest p hp h := by
    subst hp
    exact clean_of_accepts hB ((parse_spec B o).yields_iff.mp h)

def unableToDecodePayload : ParsePacketError := ⟨"Unable to decode payload"⟩

theorem decodePayload_eq (B : Base64.Codec) (o : Overflow) :
    decodePayload B o = decodeAll unableToDecodePayload (parseStringPacketInPayload B o) := by
  funext input
  unfold decodePayload parseStringPayload decodeAll
  cases foldMany0 (parseStringPacketInPayload B o) (fun acc item ↦ acc ++ [item]) [] input <;> rfl

theorem denotes_iff (fs : List (Frame B)) (ps : List Packet) :
    List.Forall₂ (grammar B).Denotes fs ps ↔ ps = fs.map Frame.packet := by
  constructor
  · intro h
    induction h with
    | nil => rfl
    | cons hp _ ih =>
      rw [ih, List.map_cons]
      congr 1
  · intro he
    subst he
    induction fs with
    | nil => exact .nil
    | cons f fs ih => exact .cons rfl ih

theorem decodePayload_frames_iff (hB : B.Lawful) (o : Overflow) (fs : List (Frame B)) :
    decodePayload B o ((grammar B).renderAll fs) = ok (fs.map Frame.packet) ↔
      CleanAll (grammar B) CleanAt fs := by
  rw [decodePayload_eq]
  constructor
  · intro h
    exact clean_of_decodeAll _ (framed hB o) ((denotes_iff fs _).mpr rfl) h
  · intro h
    obtain ⟨ps, hd, hok⟩ := decodeAll_of_clean unableToDecodePayload (framed hB o) h
    rw [hok, (denotes_iff fs ps).mp hd]

end SocketIoRust.EngineIoParser.StringFormat
