import SocketIoRust.EngineIoServer.Interleaving
import SocketIoRust.EngineIoWarp.AdapterWarp
import Mathlib.Data.List.Nodup

namespace SocketIoRust.EngineIoServer.SendOrder

open Library Library.Threads EngineIoParser

variable {A κ α : Type} [Adapter A] {s s' : SharedSocket A κ} {t t' : Thread κ}

/-- The packets of the commands, in the order in which they were sent. -/
def sent (s : SharedSocket A κ) : List Packet :=
  s.socket.trace.commands.flatMap TransportCmd.packets

def IsSendPacket (t : Thread κ) : Prop := ∃ packet callback, t = .sendPacket packet callback

/-- The batches that were taken before the one with this ticket, and are not sent yet. -/
def earlier (ticket : ℕ) (inFlight : List (ℕ × List α)) : List (ℕ × List α) :=
  inFlight.takeWhile (fun e ↦ e.1 ≠ ticket)

/-- A batch is not sent before the packets that were taken earlier. -/
def InOrder (s : SharedSocket A κ) : Thread κ → Prop
  | .sendCmd ticket packets => packets = [] ∨ ∀ e ∈ earlier ticket s.history.inFlight, e.2 = []
  | _ => True

instance (s : SharedSocket A κ) (t : Thread κ) : Decidable (InOrder s t) :=
  match t with
  | .sendCmd ticket packets =>
    inferInstanceAs (Decidable (packets = [] ∨ ∀ e ∈ earlier ticket s.history.inFlight, e.2 = []))
  | .sendPacket _ _ | .push _ _ | .flush | .testWritable | .emitFlush | .takeWriteBuffer
  | .takeCallbacks | .testFraming _ | .extendFlushed _ | .emitDrain | .closeTransport | .onDrain
  | .onClose _ | .clear _ | .dropTransport _ | .emitClose _ | .done =>
    inferInstanceAs (Decidable True)

/-- The packets on their way: sent, taken in order, or still in the write buffer. -/
structure Ordered (s : SharedSocket A κ) : Prop where
  pushed : s.history.pushed =
    sent s ++ (s.history.inFlight.flatMap Prod.snd ++ s.socket.state.writeBuffer)
  nodup : (s.history.inFlight.map Prod.fst).Nodup
  tickets : ∀ e ∈ s.history.inFlight, e.1 < s.history.tickets

theorem split_ticket {ticket : ℕ} {batch : List α} {inFlight : List (ℕ × List α)}
    (hnodup : (inFlight.map Prod.fst).Nodup) (hmem : (ticket, batch) ∈ inFlight) :
    ∃ later, inFlight = earlier ticket inFlight ++ (ticket, batch) :: later ∧
      inFlight.filter (fun e ↦ e.1 ≠ ticket) = earlier ticket inFlight ++ later := by
  induction inFlight with
  | nil => cases hmem
  | cons e inFlight ih =>
    obtain ⟨hnot, hnodup⟩ := List.nodup_cons.mp hnodup
    by_cases he : e.1 = ticket
    · have hhere : e = (ticket, batch) := by
        rcases List.mem_cons.mp hmem with hmem | hmem
        · exact hmem.symm
        · have hin := List.mem_map_of_mem (f := Prod.fst) hmem
          rw [← he] at hin
          exact absurd hin hnot
      subst hhere
      have hkeep : inFlight.filter (fun e ↦ e.1 ≠ ticket) = inFlight := by
        rw [List.filter_eq_self]
        intro e hin
        simp only [ne_eq, decide_not, Bool.not_eq_true', decide_eq_false_iff_not]
        intro heq
        have hin' := List.mem_map_of_mem (f := Prod.fst) hin
        rw [heq] at hin'
        exact hnot hin'
      have hearlier : earlier ticket ((ticket, batch) :: inFlight) = [] :=
        List.takeWhile_cons_of_neg (by simp)
      refine ⟨inFlight, ?_, ?_⟩
      · rw [hearlier, List.nil_append]
      · rw [hearlier, List.nil_append, List.filter_cons_of_neg (by simp), hkeep]
    · have hrest : (ticket, batch) ∈ inFlight := by
        rcases List.mem_cons.mp hmem with rfl | hmem
        · exact absurd rfl he
        · exact hmem
      obtain ⟨later, hsplit, hfilter⟩ := ih hnodup hrest
      have hearlier : earlier ticket (e :: inFlight) = e :: earlier ticket inFlight :=
        List.takeWhile_cons_of_pos (by simpa using he)
      refine ⟨later, ?_, ?_⟩
      · rw [hearlier, List.cons_append, ← hsplit]
      · rw [hearlier, List.cons_append, ← hfilter, List.filter_cons_of_pos (by simpa using he)]

theorem Ordered.push (h : Ordered s) (packet : Packet) (callback : Option κ) :
    Ordered (s.push packet callback) := by
  refine ⟨?_, h.nodup, h.tickets⟩
  change s.history.pushed ++ [packet] =
    sent s ++ (s.history.inFlight.flatMap Prod.snd ++ (s.socket.state.writeBuffer ++ [packet]))
  rw [h.pushed]
  simp only [List.append_assoc]

theorem Ordered.takeWriteBuffer (h : Ordered s) : Ordered s.takeWriteBuffer := by
  refine ⟨?_, ?_, ?_⟩
  · change s.history.pushed = sent s ++ ((s.history.inFlight ++
      [(s.history.tickets, s.socket.state.writeBuffer)]).flatMap Prod.snd ++ [])
    rw [h.pushed, List.flatMap_append, List.flatMap_singleton, List.append_nil]
  · change ((s.history.inFlight ++
      [(s.history.tickets, s.socket.state.writeBuffer)]).map Prod.fst).Nodup
    rw [List.map_append, List.nodup_append']
    refine ⟨h.nodup, List.nodup_singleton _, ?_⟩
    rw [List.map_singleton, List.disjoint_singleton]
    intro hin
    obtain ⟨e, he, heq⟩ := List.mem_map.mp hin
    exact absurd heq (Nat.ne_of_lt (h.tickets e he))
  · intro e he
    rcases List.mem_append.mp he with he | he
    · exact Nat.lt_succ_of_lt (h.tickets e he)
    · rw [List.mem_singleton.mp he]
      exact Nat.lt_succ_self _

theorem sent_sendCmd (s : SharedSocket A κ) (ticket : ℕ) (packets : List Packet) :
    sent (s.sendCmd ticket packets) = sent s ++ packets := by
  simp [sent, SharedSocket.sendCmd, Trace.send, TransportCmd.packets]

/-- What was taken earlier does not matter if it is empty, and neither does an empty batch. -/
theorem Ordered.sendCmd (h : Ordered s) {ticket : ℕ} {packets : List Packet}
    (hmem : (ticket, packets) ∈ s.history.inFlight) (horder : InOrder s (.sendCmd ticket packets)) :
    Ordered (s.sendCmd ticket packets) := by
  obtain ⟨later, hsplit, hfilter⟩ := split_ticket h.nodup hmem
  have hsub : (s.history.inFlight.filter (fun e ↦ e.1 ≠ ticket)).Sublist s.history.inFlight :=
    List.filter_sublist
  refine ⟨?_, h.nodup.sublist (hsub.map Prod.fst), fun e he ↦ h.tickets e (hsub.subset he)⟩
  have hpushed := h.pushed
  rw [hsplit] at hpushed
  change s.history.pushed = sent (s.sendCmd ticket packets) ++
    ((s.history.inFlight.filter (fun e ↦ e.1 ≠ ticket)).flatMap Prod.snd ++
      s.socket.state.writeBuffer)
  rw [hpushed, hfilter, sent_sendCmd]
  rcases horder with hempty | hempty
  · simp [hempty]
  · have hearlier : (earlier ticket s.history.inFlight).flatMap Prod.snd = [] :=
      List.flatMap_eq_nil_iff.mpr hempty
    simp [hearlier]

/-- A batch that overtakes packets leaves the order of the pushes for good. -/
theorem Ordered.sendCmd_prefix_iff (h : Ordered s) {ticket : ℕ} {packets : List Packet}
    (hmem : (ticket, packets) ∈ s.history.inFlight) (hnodup : s.history.pushed.Nodup) :
    sent (s.sendCmd ticket packets) <+: s.history.pushed ↔
      InOrder s (.sendCmd ticket packets) := by
  constructor
  · intro hprefix
    obtain ⟨later, hsplit, -⟩ := split_ticket h.nodup hmem
    rw [h.pushed, hsplit] at hprefix hnodup
    rw [sent_sendCmd, List.prefix_append_right_inj] at hprefix
    cases packets with
    | nil => exact .inl rfl
    | cons packet packets =>
      cases hearlier : (earlier ticket s.history.inFlight).flatMap Prod.snd with
      | nil => exact .inr (List.flatMap_eq_nil_iff.mp hearlier)
      | cons first others =>
        -- the first packet of the batch is pushed twice: it is also the first one overtaken
        simp only [List.flatMap_append, List.flatMap_cons, hearlier, List.cons_append,
          List.cons_prefix_cons] at hprefix hnodup
        obtain ⟨rfl, -⟩ := hprefix
        have htwice := (List.nodup_append'.mp hnodup).2.1
        simp at htwice
  · intro horder
    exact ⟨_, (h.sendCmd hmem horder).pushed.symm⟩

/-- What a thread that sends packets has to do with their order. -/
def hand : Thread κ → Option (ℕ × List Packet)
  | .sendCmd ticket packets => some (ticket, packets)
  | _ => none

theorem hand_of_emptyHanded (h : t.emptyHanded = true) : hand t = none := by
  cases t with
  | sendCmd => cases h
  | _ => rfl

/-- A step that leaves alone what was pushed, what is taken and what was sent. -/
theorem Ordered.of_eq (h : Ordered s) (hh : s'.history = s.history) (hs : sent s' = sent s)
    (hw : s'.socket.state.writeBuffer = s.socket.state.writeBuffer) : Ordered s' := by
  refine ⟨?_, ?_, ?_⟩
  · rw [hh, hs, hw, h.pushed]
  · rw [hh]
    exact h.nodup
  · rw [hh]
    exact h.tickets

/-- A thread that sends packets, with the batch that it has taken. -/
def Sends (s : SharedSocket A κ) (t : Thread κ) : Prop :=
  t.closes = false ∧ ∀ e ∈ hand t, e ∈ s.history.inFlight

def Apart (t u : Thread κ) : Prop := ∀ e ∈ hand t, ∀ e' ∈ hand u, e.1 ≠ e'.1

theorem Apart.symm (h : Apart t t') : Apart t' t := fun e he e' he' ↦ (h e' he' e he).symm

theorem Apart.of_none (h : hand t = none) (u : Thread κ) : Apart t u := by
  intro e he
  rw [h] at he
  cases he

theorem Sends.of_none (hc : t.closes = false) (h : hand t = none) : Sends s t := by
  refine ⟨hc, ?_⟩
  intro e he
  rw [h] at he
  cases he

/-- A thread holds what it held, as long as its own batch is not sent. -/
theorem Sends.mono {u : Thread κ} (h : Sends s u)
    (hin : ∀ e ∈ hand u, e ∈ s.history.inFlight → e ∈ s'.history.inFlight) : Sends s' u :=
  ⟨h.1, fun e he ↦ hin e he (h.2 e he)⟩

/-- A step of a thread that neither takes nor sends a batch. -/
theorem next_unhanded (h : Ordered s') (hh : s'.history = s.history) (hc : t'.closes = false)
    (he : hand t' = none) :
    Ordered s' ∧ Sends s' t' ∧ ∀ u, Sends s u → Apart t u → Sends s' u ∧ Apart t' u := by
  refine ⟨h, .of_none hc he, ?_⟩
  intro u hu _
  refine ⟨hu.mono ?_, .of_none he u⟩
  intro e _ hin
  rwa [hh]

theorem next_ordered (h : Ordered s) (ht : Sends s t) (horder : InOrder s t)
    (hn : Thread.next s t = some (s', t')) :
    Ordered s' ∧ Sends s' t' ∧ ∀ u, Sends s u → Apart t u → Sends s' u ∧ Apart t' u := by
  cases Thread.next_moves hn with
  | push packet callback =>
    refine ⟨h.push packet callback, .of_none rfl rfl, ?_⟩
    intro u hu _
    exact ⟨hu.mono (fun _ _ hin ↦ hin), .of_none rfl u⟩
  | takeWriteBuffer =>
    refine ⟨h.takeWriteBuffer, ⟨rfl, ?_⟩, ?_⟩
    · intro e he
      obtain rfl := Option.mem_some.mp he
      exact List.mem_append_right _ (List.mem_singleton_self _)
    · intro u hu _
      refine ⟨hu.mono (fun _ _ hin ↦ List.mem_append_left _ hin), ?_⟩
      intro e he e' he'
      obtain rfl := Option.mem_some.mp he
      -- the new ticket was never given before
      exact (Nat.ne_of_lt (h.tickets e' (hu.2 e' he'))).symm
  | sendCmd ticket packets =>
    have hmem := ht.2 (ticket, packets) rfl
    refine ⟨h.sendCmd hmem horder, .of_none rfl rfl, ?_⟩
    intro u hu hapart
    refine ⟨hu.mono ?_, .of_none rfl u⟩
    intro e he hin
    refine List.mem_filter.mpr ⟨hin, ?_⟩
    simpa using (hapart (ticket, packets) rfl e he).symm
  | takeCallbacks | testFraming | extendFlushed =>
    exact next_unhanded (h.of_eq rfl rfl rfl) rfl rfl rfl
  | onDrain =>
    obtain ⟨batches, hstate, -⟩ := s.socket.state.removeFlushed_spec
    rw [hstate]
    exact next_unhanded (h.of_eq rfl rfl rfl) rfl rfl rfl
  | clear reason => cases ht.1
  | idle hi =>
    have hs : sent s' = sent s := by
      rw [sent, sent, hi.commands]
    exact next_unhanded (h.of_eq hi.history hs hi.writeBuffer) hi.history (hi.closes ht.1)
      (hand_of_emptyHanded hi.emptyHanded.2)

theorem ordered_of (socket : Socket A κ) : Ordered (.of socket) where
  pushed := rfl
  nodup := List.nodup_nil
  tickets := fun _ he ↦ absurd he List.not_mem_nil

/-- If no batch is sent before packets that were taken earlier, then the packets are sent in
the order in which they were pushed. -/
theorem sent_prefix (socket : Socket A κ) (pool : Pool (SharedSocket A κ) (Thread κ))
    (h : Steps Thread.next IsSendPacket InOrder ⟨.of socket, []⟩ pool) :
    sent pool.shared <+: pool.shared.history.pushed := by
  have hstart : ∀ (s : SharedSocket A κ) (t : Thread κ), Ordered s → IsSendPacket t →
      Sends s t ∧ ∀ u, Apart t u := by
    intro s t _ ht
    obtain ⟨packet, callback, rfl⟩ := ht
    exact ⟨.of_none rfl rfl, fun u ↦ .of_none rfl u⟩
  obtain ⟨hordered, -, -⟩ := h.forall_threads (fun _ _ ↦ Apart.symm) hstart
    (fun _ _ _ _ ↦ next_ordered) ⟨ordered_of socket, rfl⟩
  exact ⟨_, hordered.pushed.symm⟩

def websocketSocket : Socket (EngineIoWarp.StandaloneAdapter Base64.standard .wrapping) Unit :=
  EngineIoWarp.opened Base64.standard .wrapping Unit (.webSocket true ⟨0⟩)

def twoCalls : List (Thread Unit) :=
  [.sendPacket ⟨.message, .text ['a']⟩ none, .sendPacket ⟨.message, .text ['b']⟩ none]

theorem twoCalls_starts : ∀ t ∈ twoCalls, IsSendPacket t := by
  intro t ht
  rcases List.mem_pair.mp ht with rfl | rfl
  · exact ⟨_, _, rfl⟩
  · exact ⟨_, _, rfl⟩

theorem sent_prefix_two :
    let pool := Pool.run Thread.next InOrder ⟨.of websocketSocket, twoCalls⟩
      [0, 1, 0, 1, 0, 0, 0, 0, 0]
    sent pool.shared <+: pool.shared.history.pushed :=
  sent_prefix websocketSocket _ ((Steps.startAll _ _ twoCalls_starts).trans (Steps.run _ _))

/-- The second call overtakes the first one between the two locks of its flush. -/
theorem sent_overtaken :
    ¬ ∀ (socket : Socket (EngineIoWarp.StandaloneAdapter Base64.standard .wrapping) Unit)
        (pool : Pool (SharedSocket (EngineIoWarp.StandaloneAdapter Base64.standard .wrapping) Unit)
          (Thread Unit)),
      (∃ transport, socket.state.transport = some (.webSocket transport)) →
      Steps Thread.next IsSendPacket Free ⟨.of socket, []⟩ pool →
      (sent pool.shared).Sublist pool.shared.history.pushed := by
  intro h
  have hs := h websocketSocket _ ⟨_, rfl⟩ ((Steps.startAll _ _ twoCalls_starts).trans
    (Steps.run _ [0, 0, 0, 0, 0, 0, 1, 1, 1, 1, 1, 1, 1, 0]))
  change (sent (.of websocketSocket) ++
      [⟨.message, .text ['b']⟩, ⟨.message, .text ['a']⟩] : List Packet).Sublist
    (sent (.of websocketSocket) ++ [⟨.message, .text ['a']⟩, ⟨.message, .text ['b']⟩]) at hs
  have heq := List.append_cancel_left (hs.eq_of_length (by simp))
  simp at heq

end SocketIoRust.EngineIoServer.SendOrder
