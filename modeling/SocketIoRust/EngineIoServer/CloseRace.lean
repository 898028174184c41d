import SocketIoRust.EngineIoServer.Interleaving
import SocketIoRust.EngineIoServer.Lifecycle
import SocketIoRust.EngineIoWarp.AdapterWarp

namespace SocketIoRust.EngineIoServer.CloseRace

open Library Library.Threads EngineIoParser Lifecycle

variable {A κ : Type} [Adapter A]

/-- A thread that has cleared the socket and has yet to tell the server. -/
def announces : Thread κ → Bool
  | .dropTransport _ | .emitClose _ => true
  | _ => false

def clears : Thread κ → Bool
  | .clear _ => true
  | _ => false

/-- How often the server has been told that the socket is closed, or is about to be. -/
def announced (p : Pool (SharedSocket A κ) (Thread κ)) : ℕ :=
  p.shared.socket.trace.events.countP isClose + p.threads.countP announces

/-- No call clears a socket that is closed. -/
def ClearsOpen (s : SharedSocket A κ) (t : Thread κ) : Prop :=
  clears t = true → s.socket.state.ready ≠ .closed

/-- What a step means for the end of a socket. -/
structure Announces (s : SharedSocket A κ) (t : Thread κ) (s' : SharedSocket A κ) (t' : Thread κ) :
    Prop where
  count : s'.socket.trace.events.countP isClose + (announces t').toNat =
    s.socket.trace.events.countP isClose + (announces t).toNat + (clears t).toNat
  ready : s'.socket.state.ready = if clears t then .closed else s.socket.state.ready

theorem Announces.silent {s s' : SharedSocket A κ} {t t' : Thread κ} (ht : clears t = false)
    (hsame : announces t' = announces t)
    (hevents : ∃ es, s'.socket.trace.events = s.socket.trace.events ++ es ∧
      ∀ e ∈ es, isClose e = false)
    (hready : s'.socket.state.ready = s.socket.state.ready) : Announces s t s' t' := by
  obtain ⟨es, he, hes⟩ := hevents
  have hzero : es.countP isClose = 0 := by
    rw [List.countP_eq_zero]
    intro e hmem
    simp [hes e hmem]
  refine ⟨?_, ?_⟩
  · rw [he, List.countP_append, hzero, hsame, ht, Nat.add_zero]
    rfl
  · rw [ht]
    exact hready

theorem next_announces {s s' : SharedSocket A κ} {t t' : Thread κ}
    (h : Thread.next s t = some (s', t')) : Announces s t s' t' := by
  have hnone : ∃ es, s.socket.trace.events = s.socket.trace.events ++ es ∧
      ∀ e ∈ es, isClose e = false := ⟨[], by simp, by simp⟩
  cases t with
  | sendPacket | flush | testWritable =>
    cases h
    refine .silent rfl ?_ hnone rfl
    split <;> rfl
  | onClose reason =>
    cases h
    refine .silent rfl ?_ hnone rfl
    split <;> rfl
  | push | takeWriteBuffer | sendCmd | takeCallbacks | testFraming | extendFlushed =>
    cases h
    exact .silent rfl rfl hnone rfl
  | emitFlush | emitDrain =>
    cases h
    exact .silent rfl rfl ⟨[_], rfl, by simp [isClose]⟩ rfl
  | closeTransport =>
    rw [Thread.next] at h
    split at h <;> cases h <;> exact .silent rfl rfl hnone rfl
  | onDrain =>
    cases h
    obtain ⟨batches, hstate, -⟩ := s.socket.state.removeFlushed_spec
    refine .silent rfl rfl hnone ?_
    change s.socket.state.removeFlushed.2.ready = _
    rw [hstate]
  | dropTransport reason =>
    cases h
    exact .silent rfl rfl hnone rfl
  | clear reason =>
    cases h
    exact ⟨rfl, rfl⟩
  | emitClose reason =>
    cases h
    refine ⟨?_, rfl⟩
    have hone : (s.emit (.close s.socket.id reason)).socket.trace.events.countP isClose =
        s.socket.trace.events.countP isClose + 1 :=
      List.countP_append.trans (by simp [isClose])
    rw [hone]
    rfl
  | done => cases h

theorem announced_run {s s' : SharedSocket A κ} {before after : List (Thread κ)} {t t' : Thread κ}
    (h : Thread.next s t = some (s', t')) :
    announced ⟨s', before ++ t' :: after⟩ =
      announced ⟨s, before ++ t :: after⟩ + (clears t).toNat := by
  have hcount := (next_announces h).count
  have hnat (u : Thread κ) : (before ++ u :: after).countP announces =
      before.countP announces + after.countP announces + (announces u).toNat := by
    rw [List.countP_append, List.countP_cons]
    cases announces u <;> simp [Nat.add_assoc]
  simp only [announced, hnat]
  omega

theorem announced_start (s : SharedSocket A κ) (ts : List (Thread κ)) {t : Thread κ}
    (h : IsCall t) : announced ⟨s, ts ++ [t]⟩ = announced ⟨s, ts⟩ := by
  have ht : announces t = false := by cases h <;> rfl
  simp [announced, List.countP_append, ht]

/-- A closed socket has been announced as closed, or is about to be. -/
theorem closed_iff_announced {p q : Pool (SharedSocket A κ) (Thread κ)}
    (hp : p.shared.socket.state.ready = .closed ↔ 1 ≤ announced p)
    (h : Steps Thread.next IsCall Free p q) :
    q.shared.socket.state.ready = .closed ↔ 1 ≤ announced q := by
  refine h.invariant
    (I := fun p ↦ p.shared.socket.state.ready = .closed ↔ 1 ≤ announced p) ?_ hp
  intro p q hI hs
  cases hs with
  | start ht =>
    rw [announced_start _ _ ht]
    exact hI
  | @run s s' before after t t' _ hn =>
    rw [announced_run hn]
    have hready := (next_announces hn).ready
    dsimp only at hI ⊢
    rw [hready]
    cases hc : clears t with
    | true => simp
    | false =>
      rw [if_neg Bool.false_ne_true]
      exact hI

theorem steps_free {p q : Pool (SharedSocket A κ) (Thread κ)}
    (h : Steps Thread.next IsCall ClearsOpen p q) : Steps Thread.next IsCall Free p q := by
  induction h with
  | refl => exact .refl
  | tail _ hs ih =>
    cases hs with
    | start ht => exact ih.tail (.start ht)
    | run _ hn => exact ih.tail (.run trivial hn)

theorem announced_le_one {p q : Pool (SharedSocket A κ) (Thread κ)}
    (hp : p.shared.socket.state.ready = .closed ↔ 1 ≤ announced p) (hle : announced p ≤ 1)
    (h : Steps Thread.next IsCall ClearsOpen p q) : announced q ≤ 1 := by
  induction h with
  | refl => exact hle
  | tail hs hstep ih =>
    have hclosed := closed_iff_announced hp (steps_free hs)
    cases hstep with
    | start ht =>
      rw [announced_start _ _ ht]
      exact ih
    | @run s s' before after t t' hopen hn =>
      rw [announced_run hn]
      cases hc : clears t with
      | false => exact ih
      | true =>
        have hzero : ¬ 1 ≤ announced ⟨s, before ++ t :: after⟩ :=
          fun h1 ↦ hopen hc (hclosed.mpr h1)
        rw [Bool.toNat_true]
        omega

/-- Calls that all find the socket open. -/
theorem steps_onClose (s : SharedSocket A κ) (hready : s.socket.state.ready ≠ .closed)
    (reason : SocketCloseReason) (n : ℕ) (before : List (Thread κ)) :
    Steps Thread.next IsCall Free ⟨s, before ++ List.replicate n (.onClose reason)⟩
      ⟨s, before ++ List.replicate n (.clear reason)⟩ := by
  induction n generalizing before with
  | zero => exact .refl
  | succ n ih =>
    have hnext : Thread.next s (.onClose reason) = some (s, .clear reason) := by
      rw [Thread.next, if_pos hready]
    have hrest := ih (before ++ [.clear reason])
    simp only [List.append_assoc, List.singleton_append] at hrest
    exact .head (.run trivial hnext) hrest

/-- Calls that have all found the socket open announce its end one after the other. -/
theorem steps_clear (s : SharedSocket A κ) (reason : SocketCloseReason) (n : ℕ)
    (before : List (Thread κ)) :
    ∃ s' : SharedSocket A κ,
      Steps Thread.next IsCall Free ⟨s, before ++ List.replicate n (.clear reason)⟩
        ⟨s', before ++ List.replicate n .done⟩ ∧
      s'.socket.trace.events = s.socket.trace.events ++
        List.replicate n (.close s.socket.id reason) := by
  induction n generalizing s before with
  | zero => exact ⟨s, .refl, (List.append_nil _).symm⟩
  | succ n ih =>
    let cleared := s.clear
    let dropped := cleared.setState cleared.socket.state.dropTransport
    let closed := dropped.emit (.close dropped.socket.id reason)
    obtain ⟨s', hsteps, hevents⟩ := ih closed (before ++ [.done])
    simp only [List.append_assoc, List.singleton_append] at hsteps
    have hclear : Thread.next s (.clear reason) = some (cleared, .dropTransport reason) := rfl
    have hdrop : Thread.next cleared (.dropTransport reason) =
        some (dropped, .emitClose reason) := rfl
    have hemit : Thread.next dropped (.emitClose reason) = some (closed, .done) := rfl
    have hclosed : closed.socket.trace.events =
        s.socket.trace.events ++ [.close s.socket.id reason] := rfl
    refine ⟨s', ?_, ?_⟩
    · exact .head (.run trivial hclear) (.head (.run trivial hdrop)
        (.head (.run trivial hemit) hsteps))
    · rw [hevents, hclosed, List.append_assoc]
      rfl

/-- The end of a socket is announced once in the runs in which no call clears it after another
one has. Nothing else keeps calls from that: any number of them may find the socket open, and
then each of them announces that it is closed. -/
theorem announced_once_iff (socket : Socket A κ) (ho : Orderly socket)
    (hready : socket.state.ready ≠ .closed) :
    (∀ q : Pool (SharedSocket A κ) (Thread κ), Steps Thread.next IsCall Free ⟨.of socket, []⟩ q →
      (q.shared.socket.state.ready = .closed ↔ 1 ≤ announced q)) ∧
    (∀ q : Pool (SharedSocket A κ) (Thread κ),
      Steps Thread.next IsCall ClearsOpen ⟨.of socket, []⟩ q ↔
        Steps Thread.next IsCall Free ⟨.of socket, []⟩ q ∧ announced q ≤ 1) ∧
    (∀ (reason : SocketCloseReason) (n : ℕ), ∃ q : Pool (SharedSocket A κ) (Thread κ),
      Steps Thread.next IsCall Free ⟨.of socket, []⟩ q ∧ (∀ t ∈ q.threads, t = .done) ∧
        q.shared.socket.trace.events = socket.trace.events ++
          List.replicate n (.close socket.id reason)) := by
  have hzero : announced (⟨.of socket, []⟩ : Pool (SharedSocket A κ) (Thread κ)) = 0 := by
    have hcount : socket.trace.events.countP isClose = 0 := by
      rw [List.countP_eq_zero]
      intro e hmem
      simp [ho.unclosed hready e hmem]
    exact hcount
  have hstart : (SharedSocket.of socket).socket.state.ready = .closed ↔
      1 ≤ announced (⟨.of socket, []⟩ : Pool (SharedSocket A κ) (Thread κ)) := by
    rw [hzero]
    exact iff_of_false hready (by decide)
  refine ⟨fun q ↦ closed_iff_announced hstart, fun q ↦ ⟨fun h ↦ ⟨steps_free h,
    announced_le_one hstart (hzero.le.trans (Nat.zero_le 1)) h⟩, ?_⟩, ?_⟩
  · rintro ⟨h, hle⟩
    induction h with
    | refl => exact .refl
    | @tail p q hp hs ih =>
      cases hs with
      | start ht =>
        rw [announced_start _ _ ht] at hle
        exact (ih hle).tail (.start ht)
      | @run s s' before after t t' _ hn =>
        rw [announced_run hn] at hle
        refine (ih (by omega)).tail (.run ?_ hn)
        intro hc hclosed
        have hone := (closed_iff_announced hstart hp).mp hclosed
        rw [hc, Bool.toNat_true] at hle
        omega
  · intro reason n
    have hcalls : ∀ t ∈ List.replicate n (Thread.onClose (κ := κ) reason), IsCall t := by
      intro t ht
      rw [List.eq_of_mem_replicate ht]
      exact .onClose reason
    obtain ⟨s', hsteps, hevents⟩ := steps_clear (.of socket) reason n []
    refine ⟨⟨s', List.replicate n .done⟩, ?_, fun t ht ↦ List.eq_of_mem_replicate ht, hevents⟩
    exact ((Steps.startAll _ _ hcalls).trans (steps_onClose _ hready reason n [])).trans hsteps

/-- A socket that has just been opened. -/
theorem announced_once_iff_opened :
    let socket := EngineIoWarp.opened Base64.standard .wrapping Unit (.webSocket true ⟨0⟩)
    ∃ q, Steps Thread.next IsCall Free ⟨.of socket, []⟩ q ∧
      q.shared.socket.trace.events.countP isClose = 2 := by
  intro socket
  have hnew := new_orderly Unit "a".toList .poll
    (.webSocket true ⟨0⟩ : TransportCreateData
      (EngineIoWarp.StandaloneAdapter Base64.standard .wrapping)) 0
  have ho : Orderly socket := hnew.goesOn nofun (open_goesOn rfl _ _)
  obtain ⟨q, hq, -, hevents⟩ := (announced_once_iff socket ho nofun).2.2 .transportClosed 2
  refine ⟨q, hq, ?_⟩
  rw [hevents, List.countP_append, List.countP_eq_zero.mpr]
  · rfl
  · intro e hmem
    simp [ho.unclosed nofun e hmem]

end SocketIoRust.EngineIoServer.CloseRace
