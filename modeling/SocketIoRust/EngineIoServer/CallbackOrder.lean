import SocketIoRust.EngineIoServer.SendOrder
import SocketIoRust.EngineIoServer.Conservation
import SocketIoRust.Library.Annotation
import Mathlib.Data.List.Forall2

namespace SocketIoRust.EngineIoServer.CallbackOrder

open Library Library.Threads EngineIoParser Conservation SendOrder

variable {A κ α : Type} [Adapter A] {s s' : SharedSocket A κ} {t t' : Thread κ}

/-- Which push of the run a packet or a callback comes from; none, if it was there before. -/
abbrev Number := Option ℕ

/-- The pushes of a run in their order, and where their packets and callbacks are. -/
structure Notes (κ : Type) where
  given : List (Packet × Option κ)
  buffered : List Number
  taken : List Number
  sent : List Number
  pending : List Number
  flushed : List Number
  executed : List Number

namespace Notes

/-- Nothing that a socket holds comes from the run that is about to begin. -/
def of (socket : Socket A κ) : Notes κ where
  given := []
  buffered := socket.state.writeBuffer.map (fun _ ↦ none)
  taken := []
  sent := (socket.trace.commands.flatMap TransportCmd.packets).map (fun _ ↦ none)
  pending := socket.state.pendingCallbacks.map (fun _ ↦ none)
  flushed := (socket.state.flushedCallbacks.flatMap CallbackBatch.callbacks).map (fun _ ↦ none)
  executed := socket.trace.executed.map (fun _ ↦ none)

def push (notes : Notes κ) (packet : Packet) (callback : Option κ) : Notes κ :=
  let number : Number := some notes.given.length
  { notes with
    given := notes.given ++ [(packet, callback)]
    buffered := notes.buffered ++ [number]
    pending := notes.pending ++ callback.toList.map (fun _ ↦ number) }

def IsPacket (notes : Notes κ) (n : ℕ) (packet : Packet) : Prop :=
  ∃ callback, notes.given[n]? = some (packet, callback)

def IsCallback (notes : Notes κ) (n : ℕ) (callback : κ) : Prop :=
  ∃ packet, notes.given[n]? = some (packet, some callback)

end Notes

/-- What a step moves, by the numbers; a thread holds the numbers of what it has taken. -/
def note : SharedSocket A κ × Notes κ → Thread κ × List Number → Notes κ × List Number
  | (s, notes), (t, held) =>
    match t with
    | .push packet callback => (notes.push packet callback, held)
    | .takeWriteBuffer =>
      ({ notes with buffered := [], taken := notes.taken ++ notes.buffered }, notes.buffered)
    | .sendCmd _ _ => ({ notes with
        taken := notes.taken.filter (· ∉ held)
        sent := notes.sent ++ held }, [])
    | .takeCallbacks => ({ notes with pending := [] }, notes.pending)
    | .extendFlushed _ => ({ notes with flushed := notes.flushed ++ held }, [])
    | .onDrain =>
      let count := s.socket.state.removeFlushed.1.length
      ({ notes with
        flushed := notes.flushed.drop count
        executed := notes.executed ++ notes.flushed.take count }, held)
    | .clear _ => ({ notes with buffered := [], pending := [] }, held)
    | _ => (notes, held)

/-- The numbers of a list of items, where they come from the run. -/
def Numbers (describes : ℕ → α → Prop) : List Number → List α → Prop :=
  List.Forall₂ fun number item ↦ ∀ n ∈ number, describes n item

/-- The notes tell the truth about a socket. -/
structure Faithful (s : SharedSocket A κ) (notes : Notes κ) : Prop where
  buffered : Numbers notes.IsPacket notes.buffered s.socket.state.writeBuffer
  sent : Numbers notes.IsPacket notes.sent (SendOrder.sent s)
  pending : Numbers notes.IsCallback notes.pending s.socket.state.pendingCallbacks
  flushed : Numbers notes.IsCallback notes.flushed
    (s.socket.state.flushedCallbacks.flatMap CallbackBatch.callbacks)
  executed : Numbers notes.IsCallback notes.executed s.socket.trace.executed

/-- The numbers of a thread are those of what it holds. -/
def Holds (notes : Notes κ) : Thread κ → List Number → Prop
  | .sendCmd _ packets, held => Numbers notes.IsPacket held packets
  | t, held => Numbers notes.IsCallback held (takenCallbacks t)

theorem Numbers.mono {describes describes' : ℕ → α → Prop} {numbers : List Number}
    {items : List α} (hd : ∀ n item, describes n item → describes' n item)
    (h : Numbers describes numbers items) : Numbers describes' numbers items :=
  List.Forall₂.imp (fun _ item hn n hmem ↦ hd n item (hn n hmem)) h

theorem Numbers.append {describes : ℕ → α → Prop} {numbers numbers' : List Number}
    {items items' : List α} (h : Numbers describes numbers items)
    (h' : Numbers describes numbers' items') :
    Numbers describes (numbers ++ numbers') (items ++ items') :=
  List.rel_append h h'

/-- The numbers of the first part of a list, and those of the rest. -/
theorem Numbers.split {describes : ℕ → α → Prop} {numbers : List Number} {items items' : List α}
    (h : Numbers describes numbers (items ++ items')) :
    Numbers describes (numbers.take items.length) items ∧
      Numbers describes (numbers.drop items.length) items' := by
  constructor
  · have htake := List.forall₂_take items.length h
    rwa [List.take_left] at htake
  · have hdrop := List.forall₂_drop items.length h
    rwa [List.drop_left] at hdrop

theorem Numbers.unknown (describes : ℕ → α → Prop) (items : List α) :
    Numbers describes (items.map fun _ ↦ none) items := by
  induction items with
  | nil => exact .nil
  | cons item items ih => exact .cons (fun _ hn ↦ nomatch hn) ih

theorem faithful_of (socket : Socket A κ) : Faithful (.of socket) (.of socket) where
  buffered := .unknown _ _
  sent := .unknown _ _
  pending := .unknown _ _
  flushed := .unknown _ _
  executed := .unknown _ _

theorem getElem?_push {notes : Notes κ} {n : ℕ} {x : Packet × Option κ} (packet : Packet)
    (callback : Option κ) (h : notes.given[n]? = some x) :
    (notes.push packet callback).given[n]? = some x := by
  obtain ⟨hn, -⟩ := List.getElem?_eq_some_iff.mp h
  rw [Notes.push, List.getElem?_append_left hn, h]

theorem isPacket_push {notes : Notes κ} (packet : Packet) (callback : Option κ) (n : ℕ)
    (p : Packet) (h : notes.IsPacket n p) : (notes.push packet callback).IsPacket n p :=
  h.imp fun _ ↦ getElem?_push packet callback

theorem isCallback_push {notes : Notes κ} (packet : Packet) (callback : Option κ) (n : ℕ)
    (c : κ) (h : notes.IsCallback n c) : (notes.push packet callback).IsCallback n c :=
  h.imp fun _ ↦ getElem?_push packet callback

theorem holds_push {notes : Notes κ} {held : List Number} (packet : Packet) (callback : Option κ)
    (h : Holds notes t held) : Holds (notes.push packet callback) t held := by
  cases t with
  | sendCmd ticket packets => exact Numbers.mono (isPacket_push packet callback) h
  | _ => exact Numbers.mono (isCallback_push packet callback) h

theorem Faithful.push {notes : Notes κ} (h : Faithful s notes) (packet : Packet)
    (callback : Option κ) : Faithful (s.push packet callback) (notes.push packet callback) where
  buffered := by
    refine (h.buffered.mono (isPacket_push packet callback)).append (.cons ?_ .nil)
    intro n hn
    cases hn
    exact ⟨callback, List.getElem?_concat_length⟩
  sent := h.sent.mono (isPacket_push packet callback)
  pending := by
    refine (h.pending.mono (isCallback_push packet callback)).append ?_
    cases callback with
    | none => exact .nil
    | some callback =>
      refine .cons ?_ .nil
      intro n hn
      cases hn
      exact ⟨packet, List.getElem?_concat_length⟩
  flushed := h.flushed.mono (isCallback_push packet callback)
  executed := h.executed.mono (isCallback_push packet callback)

/-- A step that leaves alone what the notes are about. -/
theorem Faithful.of_idle {notes : Notes κ} (h : Faithful s notes) (hi : Idle s t s' t') :
    Faithful s' notes where
  buffered := by
    rw [hi.writeBuffer]
    exact h.buffered
  sent := by
    rw [SendOrder.sent, hi.commands]
    exact h.sent
  pending := by
    rw [hi.pendingCallbacks]
    exact h.pending
  flushed := by
    rw [hi.flushedCallbacks]
    exact h.flushed
  executed := by
    rw [hi.executed]
    exact h.executed

/-- The callbacks that are executed are those which were flushed first. -/
theorem Faithful.drain {notes : Notes κ} (h : Faithful s notes) :
    Faithful { s with socket := { s.socket with
        state := s.socket.state.removeFlushed.2
        trace := s.socket.trace.execute s.socket.state.removeFlushed.1 } }
      { notes with
        flushed := notes.flushed.drop s.socket.state.removeFlushed.1.length
        executed := notes.executed ++
          notes.flushed.take s.socket.state.removeFlushed.1.length } := by
  obtain ⟨batches, hstate, hflushed⟩ := s.socket.state.removeFlushed_spec
  have hsplit := h.flushed
  rw [hflushed] at hsplit
  obtain ⟨hfirst, hrest⟩ := hsplit.split
  rw [hstate]
  exact ⟨h.buffered, h.sent, h.pending, hrest, h.executed.append hfirst⟩

theorem holds_of_emptyHanded {notes : Notes κ} {held : List Number} (ht : t.emptyHanded = true) :
    Holds notes t held ↔ held = [] := by
  cases t with
  | sendCmd | testFraming | extendFlushed => cases ht
  | _ => exact List.forall₂_nil_right_iff

theorem note_of_emptyHanded {notes : Notes κ} {held : List Number}
    (h : Faithful s notes) (ht : Holds notes t held) (hi : Idle s t s' t')
    (hnote : note (s, notes) (t, held) = (notes, held)) :
    Faithful s' (note (s, notes) (t, held)).1 ∧
      Holds (note (s, notes) (t, held)).1 t' (note (s, notes) (t, held)).2 ∧
      ∀ u held', Holds notes u held' → Holds (note (s, notes) (t, held)).1 u held' := by
  rw [hnote]
  refine ⟨h.of_idle hi, ?_, fun _ _ hu ↦ hu⟩
  rw [holds_of_emptyHanded hi.emptyHanded.2]
  exact (holds_of_emptyHanded hi.emptyHanded.1).mp ht

theorem next_faithful {notes : Notes κ} {held : List Number} (h : Faithful s notes)
    (ht : Holds notes t held) (hn : Thread.next s t = some (s', t')) :
    Faithful s' (note (s, notes) (t, held)).1 ∧
      Holds (note (s, notes) (t, held)).1 t' (note (s, notes) (t, held)).2 ∧
      ∀ u held', Holds notes u held' → Holds (note (s, notes) (t, held)).1 u held' := by
  cases t with
  | push packet callback =>
    cases hn
    refine ⟨h.push packet callback, ?_, fun _ _ ↦ holds_push packet callback⟩
    rwa [holds_of_emptyHanded rfl] at ht ⊢
  | takeWriteBuffer =>
    cases hn
    exact ⟨⟨.nil, h.sent, h.pending, h.flushed, h.executed⟩, h.buffered, fun _ _ hu ↦ hu⟩
  | sendCmd ticket packets =>
    cases hn
    refine ⟨⟨h.buffered, ?_, h.pending, h.flushed, h.executed⟩, .nil, fun _ _ hu ↦ hu⟩
    rw [sent_sendCmd]
    exact h.sent.append ht
  | takeCallbacks =>
    cases hn
    exact ⟨⟨h.buffered, h.sent, .nil, h.flushed, h.executed⟩, h.pending, fun _ _ hu ↦ hu⟩
  | testFraming callbacks =>
    cases hn
    refine ⟨h, ?_, fun _ _ hu ↦ hu⟩
    change Numbers _ _ ((batch _ callbacks).flatMap CallbackBatch.callbacks)
    rw [batch_callbacks]
    exact ht
  | extendFlushed batches =>
    cases hn
    refine ⟨⟨h.buffered, h.sent, h.pending, ?_, h.executed⟩, .nil, fun _ _ hu ↦ hu⟩
    change Numbers _ _ ((s.socket.state.flushedCallbacks ++ batches).flatMap _)
    rw [List.flatMap_append]
    exact h.flushed.append ht
  | onDrain =>
    cases hn
    exact ⟨h.drain, ht, fun _ _ hu ↦ hu⟩
  | clear reason =>
    cases hn
    exact ⟨⟨.nil, h.sent, .nil, h.flushed, h.executed⟩, ht, fun _ _ hu ↦ hu⟩
  | sendPacket | flush | testWritable | emitFlush | emitDrain | closeTransport | onClose
  | dropTransport | emitClose | done =>
    cases Thread.next_moves hn with
    | idle hi => exact note_of_emptyHanded h ht hi rfl

/-- The calls that give, send and execute. -/
inductive IsSending : Thread κ → Prop
  | sendPacket (packet : Packet) (callback : Option κ) : IsSending (.sendPacket packet callback)
  | flush : IsSending .flush
  | onDrain : IsSending .onDrain

/-- When the pending callbacks are taken, no packet that was given with one of them is still
in the write buffer, or taken and not sent. -/
def PendingSent (s : SharedSocket A κ × Notes κ) (t : Thread κ × List Number) : Prop :=
  match t.1 with
  | .takeCallbacks => ∀ number ∈ s.2.pending, number.isSome →
      number ∉ s.2.buffered ∧ number ∉ s.2.taken
  | _ => True

instance (s : SharedSocket A κ × Notes κ) (t : Thread κ × List Number) :
    Decidable (PendingSent s t) := by
  unfold PendingSent
  split <;> infer_instance

/-- Every packet of the run is in its place, and the callbacks past the pending ones are
those of packets that are sent. -/
structure SentFirst (notes : Notes κ) : Prop where
  placed : ∀ n < notes.given.length,
    some n ∈ notes.buffered ∨ some n ∈ notes.taken ∨ some n ∈ notes.sent
  pending : ∀ n, some n ∈ notes.pending → n < notes.given.length
  flushed : ∀ n, some n ∈ notes.flushed → some n ∈ notes.sent
  executed : ∀ n, some n ∈ notes.executed → some n ∈ notes.sent

def takesCallbacks : Thread κ → Bool
  | .testFraming _ | .extendFlushed _ => true
  | _ => false

/-- A thread that has taken callbacks, with their numbers. -/
structure HoldsSent (notes : Notes κ) (t : Thread κ) (held : List Number) : Prop where
  closes : t.closes = false
  sent : takesCallbacks t = true → ∀ n, some n ∈ held → some n ∈ notes.sent

theorem HoldsSent.mono {notes notes' : Notes κ} {held : List Number}
    (hsent : ∀ n, some n ∈ notes.sent → some n ∈ notes'.sent) (h : HoldsSent notes t held) :
    HoldsSent notes' t held :=
  ⟨h.closes, fun ht n hn ↦ hsent n (h.sent ht n hn)⟩

theorem HoldsSent.of_not_takes {notes : Notes κ} {held : List Number} (hc : t.closes = false)
    (ht : takesCallbacks t = false) : HoldsSent notes t held :=
  ⟨hc, fun h ↦ absurd (h.symm.trans ht) (by decide)⟩

theorem SentFirst.push {notes : Notes κ} (h : SentFirst notes) (packet : Packet)
    (callback : Option κ) : SentFirst (notes.push packet callback) where
  placed := by
    intro n hn
    rw [Notes.push, List.length_append, List.length_singleton] at hn
    obtain hn | rfl := Nat.lt_succ_iff_lt_or_eq.mp hn
    · exact (h.placed n hn).imp_left (List.mem_append_left _)
    · exact .inl (List.mem_append_right _ (List.mem_singleton_self _))
  pending := by
    intro n hn
    rw [Notes.push, List.length_append, List.length_singleton]
    obtain hn | hn := List.mem_append.mp hn
    · exact Nat.lt_succ_of_lt (h.pending n hn)
    · obtain ⟨-, -, hnew⟩ := List.mem_map.mp hn
      cases hnew
      exact Nat.lt_succ_self _
  flushed := h.flushed
  executed := h.executed

theorem SentFirst.takeWriteBuffer {notes : Notes κ} (h : SentFirst notes) :
    SentFirst { notes with buffered := [], taken := notes.taken ++ notes.buffered } where
  placed := by
    intro n hn
    obtain hn | hn | hn := h.placed n hn
    · exact .inr (.inl (List.mem_append_right _ hn))
    · exact .inr (.inl (List.mem_append_left _ hn))
    · exact .inr (.inr hn)
  pending := h.pending
  flushed := h.flushed
  executed := h.executed

theorem SentFirst.sendCmd {notes : Notes κ} (h : SentFirst notes) (held : List Number) :
    SentFirst { notes with
      taken := notes.taken.filter (· ∉ held)
      sent := notes.sent ++ held } where
  placed := by
    intro n hn
    obtain hn | hn | hn := h.placed n hn
    · exact .inl hn
    · by_cases hheld : some n ∈ held
      · exact .inr (.inr (List.mem_append_right _ hheld))
      · exact .inr (.inl (List.mem_filter.mpr ⟨hn, by simpa using hheld⟩))
    · exact .inr (.inr (List.mem_append_left _ hn))
  pending := h.pending
  flushed := fun n hn ↦ List.mem_append_left _ (h.flushed n hn)
  executed := fun n hn ↦ List.mem_append_left _ (h.executed n hn)

theorem SentFirst.extendFlushed {notes : Notes κ} (h : SentFirst notes) {held : List Number}
    (hheld : ∀ n, some n ∈ held → some n ∈ notes.sent) :
    SentFirst { notes with flushed := notes.flushed ++ held } where
  placed := h.placed
  pending := h.pending
  flushed := fun n hn ↦ (List.mem_append.mp hn).elim (h.flushed n) (hheld n)
  executed := h.executed

theorem SentFirst.drain {notes : Notes κ} (h : SentFirst notes) (count : ℕ) :
    SentFirst { notes with
      flushed := notes.flushed.drop count
      executed := notes.executed ++ notes.flushed.take count } where
  placed := h.placed
  pending := h.pending
  flushed := fun n hn ↦ h.flushed n (List.mem_of_mem_drop hn)
  executed := fun n hn ↦ (List.mem_append.mp hn).elim (h.executed n)
    fun hn ↦ h.flushed n (List.mem_of_mem_take hn)

/-- What is taken from the pending callbacks belongs to packets that are sent, as they are
nowhere else. -/
theorem SentFirst.pending_sent {notes : Notes κ} (h : SentFirst notes) {held : List Number}
    (ha : PendingSent (s, notes) (.takeCallbacks, held)) :
    ∀ n, some n ∈ notes.pending → some n ∈ notes.sent := by
  intro n hn
  obtain ⟨hbuffered, htaken⟩ := ha (some n) hn rfl
  exact ((h.placed n (h.pending n hn)).resolve_left hbuffered).resolve_left htaken

theorem next_sentFirst {notes : Notes κ} {held : List Number} (h : SentFirst notes)
    (ht : HoldsSent notes t held) (ha : PendingSent (s, notes) (t, held))
    (hn : Thread.next s t = some (s', t')) :
    SentFirst (note (s, notes) (t, held)).1 ∧
      HoldsSent (note (s, notes) (t, held)).1 t' (note (s, notes) (t, held)).2 ∧
      ∀ n, some n ∈ notes.sent → some n ∈ (note (s, notes) (t, held)).1.sent := by
  cases t with
  | push packet callback =>
    cases hn
    exact ⟨h.push packet callback, .of_not_takes rfl rfl, fun _ hn ↦ hn⟩
  | takeWriteBuffer =>
    cases hn
    exact ⟨h.takeWriteBuffer, .of_not_takes rfl rfl, fun _ hn ↦ hn⟩
  | sendCmd ticket packets =>
    cases hn
    exact ⟨h.sendCmd held, .of_not_takes rfl rfl, fun _ hn ↦ List.mem_append_left _ hn⟩
  | takeCallbacks =>
    cases hn
    exact ⟨⟨h.placed, fun _ hn ↦ absurd hn List.not_mem_nil, h.flushed, h.executed⟩,
      ⟨rfl, fun _ ↦ h.pending_sent ha⟩, fun _ hn ↦ hn⟩
  | testFraming callbacks =>
    cases hn
    exact ⟨h, ⟨rfl, fun _ ↦ ht.sent rfl⟩, fun _ hn ↦ hn⟩
  | extendFlushed batches =>
    cases hn
    exact ⟨h.extendFlushed (ht.sent rfl), .of_not_takes rfl rfl, fun _ hn ↦ hn⟩
  | onDrain =>
    cases hn
    exact ⟨h.drain _, .of_not_takes rfl rfl, fun _ hn ↦ hn⟩
  | onClose | clear => cases ht.closes
  | sendPacket | flush | testWritable | emitFlush | emitDrain | closeTransport
  | dropTransport | emitClose | done =>
    cases Thread.next_moves hn with
    | idle hi =>
      refine ⟨h, .of_not_takes (hi.closes rfl) ?_, fun _ hn ↦ hn⟩
      have hempty := hi.emptyHanded.2
      cases t' with
      | testFraming | extendFlushed => cases hempty
      | _ => rfl

theorem sentFirst_of (socket : Socket A κ) : SentFirst (.of socket) where
  placed := fun _ hn ↦ absurd hn (Nat.not_lt_zero _)
  pending := by simp [Notes.of]
  flushed := by simp [Notes.of]
  executed := by simp [Notes.of]

/-- A pool of calls, with the notes. -/
abbrev NotedPool (A κ : Type) [Adapter A] :=
  Pool (SharedSocket A κ × Notes κ) (Thread κ × List Number)

/-- A socket and no calls. -/
def notedPool (socket : Socket A κ) : NotedPool A κ := ⟨(.of socket, .of socket), []⟩

theorem steps_faithful {Starts : Thread κ → Prop} (hcall : ∀ t, Starts t → t.emptyHanded = true)
    (socket : Socket A κ) (pool : NotedPool A κ)
    (h : Steps (annotate Thread.next note) (Noted Starts []) Free (notedPool socket) pool) :
    Faithful pool.shared.1 pool.shared.2 := by
  refine (h.forall_threads
    (I := fun s ↦ Faithful s.1 s.2) (T := fun s t ↦ Holds s.2 t.1 t.2) (R := fun _ _ ↦ True)
    (fun _ _ _ ↦ trivial) ?_ ?_ ⟨faithful_of socket, rfl⟩).1
  · rintro s ⟨t, held⟩ - ⟨ht, rfl⟩
    exact ⟨(holds_of_emptyHanded (hcall t ht)).mpr rfl, fun _ ↦ trivial⟩
  · rintro ⟨s, notes⟩ ⟨t, held⟩ ⟨s', notes'⟩ ⟨t', held'⟩ hI hT - hn
    obtain ⟨hn, hs, hd⟩ := annotate_eq_some.mp hn
    obtain ⟨hI', hT', hothers⟩ := next_faithful hI hT hn
    dsimp only at hs hd
    subst hs hd
    exact ⟨hI', hT', fun u hu _ ↦ ⟨hothers u.1 u.2 hu, trivial⟩⟩

theorem steps_sentFirst (socket : Socket A κ) (pool : NotedPool A κ)
    (h : Steps (annotate Thread.next note) (Noted IsSending []) PendingSent (notedPool socket)
      pool) : SentFirst pool.shared.2 := by
  refine (h.forall_threads
    (I := fun s ↦ SentFirst s.2) (T := fun s t ↦ HoldsSent s.2 t.1 t.2) (R := fun _ _ ↦ True)
    (fun _ _ _ ↦ trivial) ?_ ?_ ⟨sentFirst_of socket, rfl⟩).1
  · rintro s ⟨t, held⟩ - ⟨ht, -⟩
    refine ⟨?_, fun _ ↦ trivial⟩
    cases ht <;> exact .of_not_takes rfl rfl
  · rintro ⟨s, notes⟩ ⟨t, held⟩ ⟨s', notes'⟩ ⟨t', held'⟩ hI hT ha hn
    obtain ⟨hn, hs, hd⟩ := annotate_eq_some.mp hn
    obtain ⟨hI', hT', hgrow⟩ := next_sentFirst hI hT ha hn
    dsimp only at hs hd
    subst hs hd
    exact ⟨hI', hT', fun u hu _ ↦ ⟨hu.mono hgrow, trivial⟩⟩

theorem isSending_emptyHanded (t : Thread κ) (h : IsSending t) : t.emptyHanded = true := by
  cases h <;> rfl

/-- If no callbacks are taken before the packets that they were given with are sent, then
none is executed before its packet is sent. -/
theorem executed_after_sent (socket : Socket A κ) (pool : NotedPool A κ)
    (h : Steps (annotate Thread.next note) (Noted IsSending []) PendingSent (notedPool socket)
      pool) :
    Faithful pool.shared.1 pool.shared.2 ∧
      ∀ n, some n ∈ pool.shared.2.executed → some n ∈ pool.shared.2.sent := by
  refine ⟨?_, (steps_sentFirst socket pool h).executed⟩
  exact steps_faithful isSending_emptyHanded socket pool
    (h.mono (fun _ ht ↦ ht) fun _ _ _ ↦ trivial)

/-- The runs with notes are the runs of the calls. -/
theorem noted_iff (socket : Socket A κ) (pool : Pool (SharedSocket A κ) (Thread κ)) :
    Steps Thread.next IsSending Free ⟨.of socket, []⟩ pool ↔
      ∃ q : NotedPool A κ, q.erase = pool ∧
        Steps (annotate Thread.next note) (Noted IsSending []) Free (notedPool socket) q := by
  constructor
  · intro h
    exact h.exists_annotated [] rfl
  · rintro ⟨q, rfl, h⟩
    exact h.erase

/-- Two calls, the second one with a callback, and one that executes callbacks. -/
def threeCalls : List (Thread Unit × List Number) :=
  [(.sendPacket ⟨.message, .text ['a']⟩ none, []),
    (.sendPacket ⟨.message, .text ['b']⟩ (some ()), []), (.onDrain, [])]

theorem threeCalls_starts : ∀ t ∈ threeCalls, Noted IsSending [] t := by
  intro t ht
  simp only [threeCalls, List.mem_cons, List.not_mem_nil, or_false] at ht
  rcases ht with rfl | rfl | rfl
  · exact ⟨.sendPacket _ _, rfl⟩
  · exact ⟨.sendPacket _ _, rfl⟩
  · exact ⟨.onDrain, rfl⟩

/-- The first call flushes before the second one gives its packet; the third one executes
the callback after that packet is sent. -/
theorem executed_after_sent_three :
    let pool := Pool.run (annotate Thread.next note) PendingSent
      ⟨(.of websocketSocket, .of websocketSocket), threeCalls⟩
      [0, 0, 0, 0, 0, 0, 0, 0, 0, 0, 1, 1, 1, 1, 1, 1, 1, 1, 1, 1, 2]
    Faithful pool.shared.1 pool.shared.2 ∧
      ∀ n, some n ∈ pool.shared.2.executed → some n ∈ pool.shared.2.sent :=
  executed_after_sent websocketSocket _
    ((Steps.startAll _ _ threeCalls_starts).trans (Steps.run _ _))

/-- The second call gives its packet when the first one has sent its batch and not yet taken
the callbacks. -/
theorem executed_before_sent :
    ¬ ∀ (socket : Socket (EngineIoWarp.StandaloneAdapter Base64.standard .wrapping) Unit)
        (pool : NotedPool (EngineIoWarp.StandaloneAdapter Base64.standard .wrapping) Unit),
      (∃ transport, socket.state.transport = some (.webSocket transport)) →
      Steps (annotate Thread.next note) (Noted IsSending []) Free (notedPool socket) pool →
      ∀ n, some n ∈ pool.shared.2.executed → some n ∈ pool.shared.2.sent := by
  intro h
  have hs := h websocketSocket _ ⟨_, rfl⟩ ((Steps.startAll _ _ threeCalls_starts).trans
    (Steps.run _ [0, 0, 0, 0, 0, 0, 0, 1, 1, 0, 0, 0, 2])) 1
  exact absurd hs (by decide)

end SocketIoRust.EngineIoServer.CallbackOrder
