import Mathlib.Data.List.Basic
import Mathlib.Logic.Function.Basic

namespace SocketIoRust.Library.Broadcast

variable {μ : Type}

/-- A broadcast channel: all that has been sent on it, of which it keeps the last
`capacity` messages, and the number of its receivers. -/
structure Channel (μ : Type) where
  capacity : ℕ
  sent : List μ
  receivers : ℕ

inductive Received (μ : Type) where
  | message : μ → Received μ
  | lagged
  | empty

namespace Channel

/-- A message is lost if there is no receiver. -/
def send (c : Channel μ) (m : μ) : Channel μ :=
  if c.receivers = 0 then c else { c with sent := c.sent ++ [m] }

/-- A new receiver gets what is sent from now on. -/
def subscribe (c : Channel μ) : Channel μ × ℕ :=
  ({ c with receivers := c.receivers + 1 }, c.sent.length)

/-- What a receiver gets that comes to the message `next`, and where it goes on. -/
def recv (c : Channel μ) (next : ℕ) : Received μ × ℕ :=
  if c.capacity < c.sent.length - next then (.lagged, c.sent.length - c.capacity)
  else
    match c.sent[next]? with
    | some m => (.message m, next + 1)
    | none => (.empty, next)

theorem send_sent {c : Channel μ} (h : c.receivers ≠ 0) (m : μ) :
    c.send m = { c with sent := c.sent ++ [m] } := if_neg h

theorem foldl_send {c : Channel μ} (h : c.receivers ≠ 0) (ms : List μ) :
    ms.foldl send c = { c with sent := c.sent ++ ms } := by
  induction ms generalizing c with
  | nil => simp
  | cons m ms ih =>
    rw [List.foldl_cons, send_sent h, ih (by exact h)]
    simp

theorem recv_lagged {c : Channel μ} {next : ℕ} (h : c.capacity < c.sent.length - next) :
    (c.recv next).1 = .lagged := by
  rw [recv, if_pos h]

theorem recv_empty {c : Channel μ} {next : ℕ} (h : c.sent.drop next = []) :
    c.recv next = (.empty, next) := by
  have hlen := List.drop_eq_nil_iff.mp h
  rw [recv, if_neg (by omega), List.getElem?_eq_none hlen]

theorem recv_message {c : Channel μ} {next : ℕ} {m : μ} {ms : List μ}
    (h : c.sent.drop next = m :: ms) (hc : c.sent.length - next ≤ c.capacity) :
    c.recv next = (.message m, next + 1) := by
  have hm : c.sent[next]? = some m := by
    rw [← Nat.add_zero next, ← List.getElem?_drop, h]
    rfl
  rw [recv, if_neg (Nat.not_lt.mpr hc), hm]

end Channel

/-- A task that receives until it gets an error, and what it has received. -/
structure Loop (μ : Type) where
  next : ℕ
  running : Bool
  received : List μ

namespace Loop

def start (next : ℕ) : Loop μ := ⟨next, true, []⟩

def recv (l : Loop μ) (c : Channel μ) : Loop μ :=
  if l.running then
    match c.recv l.next with
    | (.message m, next) => ⟨next, true, l.received ++ [m]⟩
    | (.lagged, next) => ⟨next, false, l.received⟩
    | (.empty, _) => l
  else l

theorem recv_stopped {l : Loop μ} (h : l.running = false) (c : Channel μ) : l.recv c = l := by
  rw [recv, h]
  rfl

theorem recv_lagged {l : Loop μ} {c : Channel μ} (h : c.capacity < c.sent.length - l.next) :
    (l.recv c).running = false := by
  cases hr : l.running with
  | false => rw [recv_stopped hr, hr]
  | true =>
    have hlagged := c.recv_lagged h
    rw [recv, if_pos hr]
    split
    · rename_i heq
      rw [heq] at hlagged
      cases hlagged
    · rfl
    · rename_i heq
      rw [heq] at hlagged
      cases hlagged

theorem recv_empty {l : Loop μ} {c : Channel μ} (h : c.sent.drop l.next = []) : l.recv c = l := by
  cases hr : l.running with
  | false => exact recv_stopped hr c
  | true => rw [recv, if_pos hr, c.recv_empty h]

theorem recv_message {l : Loop μ} {c : Channel μ} {m : μ} {ms : List μ} (hr : l.running = true)
    (h : c.sent.drop l.next = m :: ms) (hc : c.sent.length - l.next ≤ c.capacity) :
    l.recv c = ⟨l.next + 1, true, l.received ++ [m]⟩ := by
  rw [recv, if_pos hr, c.recv_message h hc]

end Loop

/-- What happens to a channel and the task at its end. -/
inductive Event (μ : Type) where
  | send : μ → Event μ
  | recv

def step (x : Channel μ × Loop μ) : Event μ → Channel μ × Loop μ
  | .send m => (x.1.send m, x.2)
  | .recv => (x.1, x.2.recv x.1)

def run (x : Channel μ × Loop μ) (es : List (Event μ)) : Channel μ × Loop μ := es.foldl step x

theorem run_cons (x : Channel μ × Loop μ) (e : Event μ) (es : List (Event μ)) :
    run x (e :: es) = run (step x e) es := rfl

theorem run_append (x : Channel μ × Loop μ) (es es' : List (Event μ)) :
    run x (es ++ es') = run (run x es) es' := List.foldl_append ..

theorem run_sends (c : Channel μ) (l : Loop μ) (ms : List μ) :
    run (c, l) (ms.map .send) = (ms.foldl Channel.send c, l) := by
  induction ms generalizing c with
  | nil => rfl
  | cons m ms ih => exact ih (c.send m)

/-- What the task would receive from an unbounded queue. -/
def queued : List μ → List (Event μ) → List μ
  | _, [] => []
  | ms, .send m :: es => queued (ms ++ [m]) es
  | [], .recv :: es => queued [] es
  | m :: ms, .recv :: es => m :: queued ms es

def sends : List (Event μ) → List μ
  | [] => []
  | .send m :: es => m :: sends es
  | .recv :: es => sends es

theorem sends_append (ms : List μ) (es : List (Event μ)) :
    sends (ms.map .send ++ es) = ms ++ sends es := by
  induction ms with
  | nil => rfl
  | cons m ms ih => exact congrArg (m :: ·) ih

/-- Whenever the task receives, at most `capacity` messages are waiting. -/
def InTime (capacity : ℕ) : ℕ → List (Event μ) → Prop
  | _, [] => True
  | waiting, .send _ :: es => InTime capacity (waiting + 1) es
  | waiting, .recv :: es => waiting ≤ capacity ∧ InTime capacity (waiting - 1) es

theorem run_stopped {x : Channel μ × Loop μ} (h : x.2.running = false) (es : List (Event μ)) :
    (run x es).2.running = false := by
  induction es generalizing x with
  | nil => exact h
  | cons e es ih =>
    cases e with
    | send m => exact ih h
    | recv =>
      refine ih ?_
      rw [step, Loop.recv_stopped h]
      exact h

/-- The channel works as a queue exactly as long as the task is in time. -/
theorem run_spec (x : Channel μ × Loop μ) (hr : x.2.running = true) (hc : x.1.receivers ≠ 0)
    (hn : x.2.next ≤ x.1.sent.length) (es : List (Event μ)) :
    ((run x es).2.running = true ↔
        InTime x.1.capacity (x.1.sent.length - x.2.next) es) ∧
      (InTime x.1.capacity (x.1.sent.length - x.2.next) es →
        (run x es).2.received = x.2.received ++ queued (x.1.sent.drop x.2.next) es) := by
  induction es generalizing x with
  | nil => simp [run, queued, InTime, hr]
  | cons e es ih =>
    obtain ⟨c, l⟩ := x
    dsimp only at hr hc hn ⊢
    cases e with
    | send m =>
      have hdrop : (c.sent ++ [m]).drop l.next = c.sent.drop l.next ++ [m] :=
        List.drop_append_of_le_length hn
      have hlen : (c.sent ++ [m]).length - l.next = c.sent.length - l.next + 1 := by
        simp only [List.length_append, List.length_singleton]
        omega
      have hnext := ih ({ c with sent := c.sent ++ [m] }, l) hr hc
        (Nat.le_trans hn (by simp))
      rw [hdrop, hlen] at hnext
      rw [queued, InTime, run_cons, step, Channel.send_sent hc]
      exact hnext
    | recv =>
      by_cases hlag : c.capacity < c.sent.length - l.next
      · -- the loop ends at its first error
        have hstop : (run (c, l) (.recv :: es)).2.running = false :=
          run_stopped (Loop.recv_lagged hlag) es
        have hlate : ¬ InTime c.capacity (c.sent.length - l.next) (.recv :: es) := fun h ↦
          absurd h.1 (Nat.not_le.mpr hlag)
        rw [hstop]
        exact ⟨⟨nofun, fun h ↦ absurd h hlate⟩, fun h ↦ absurd h hlate⟩
      · have hin := Nat.not_lt.mp hlag
        cases hdrop : c.sent.drop l.next with
        | nil =>
          have hlen := List.drop_eq_nil_iff.mp hdrop
          have hzero : c.sent.length - l.next = 0 := by omega
          have hnext := ih (c, l) hr hc hn
          rw [hdrop, hzero] at hnext
          rw [queued, InTime, hzero, run_cons, step, Loop.recv_empty hdrop]
          simpa using hnext
        | cons m ms =>
          have hlt : l.next < c.sent.length := by
            by_contra hge
            rw [List.drop_eq_nil_of_le (Nat.not_lt.mp hge)] at hdrop
            cases hdrop
          have hdrop' : c.sent.drop (l.next + 1) = ms := by
            rw [← List.drop_drop, hdrop]
            rfl
          have hnext := ih (c, ⟨l.next + 1, true, l.received ++ [m]⟩) rfl hc hlt
          rw [hdrop', Nat.sub_add_eq] at hnext
          rw [queued, InTime, run_cons, step, Loop.recv_message hr hdrop hin]
          simpa [hin] using hnext

/-- A queue delivers in order what is sent, each message once. -/
theorem queued_prefix (ms : List μ) (es : List (Event μ)) :
    queued ms es <+: ms ++ sends es := by
  induction es generalizing ms with
  | nil => exact List.nil_prefix
  | cons e es ih =>
    cases e with
    | send m => simpa [queued, sends] using ih (ms ++ [m])
    | recv =>
      cases ms with
      | nil => simpa [queued, sends] using ih []
      | cons m ms => simpa [queued, sends] using ih ms

abbrev Bus (μ : Type) := ℕ → Channel μ

def Bus.send (b : Bus μ) (i : ℕ) (m : μ) : Bus μ := Function.update b i ((b i).send m)

def Bus.subscribe (b : Bus μ) (i : ℕ) : Bus μ × ℕ :=
  (Function.update b i (b i).subscribe.1, (b i).subscribe.2)

def Bus.sendAll (b : Bus μ) (i : ℕ) (ms : List μ) : Bus μ :=
  ms.foldl (fun b m ↦ b.send i m) b

theorem Bus.send_self (b : Bus μ) (i : ℕ) (m : μ) : b.send i m i = (b i).send m :=
  Function.update_self ..

theorem Bus.send_of_ne {i j : ℕ} (h : j ≠ i) (b : Bus μ) (m : μ) : b.send i m j = b j :=
  Function.update_of_ne h ..

theorem Bus.sendAll_self (b : Bus μ) (i : ℕ) (ms : List μ) :
    b.sendAll i ms i = ms.foldl Channel.send (b i) := by
  induction ms generalizing b with
  | nil => rfl
  | cons m ms ih =>
    have hms := ih (b.send i m)
    rw [b.send_self] at hms
    exact hms

end SocketIoRust.Library.Broadcast
