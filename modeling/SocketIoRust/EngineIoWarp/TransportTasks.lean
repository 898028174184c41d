import SocketIoRust.EngineIoWarp.AdapterWarp
import SocketIoRust.Library.Broadcast
import SocketIoRust.Library.Notify

namespace SocketIoRust.EngineIoWarp.TransportTasks

open Library EngineIoParser EngineIoServer
open Library.Outcome (ok err)
open Websocket (Message Sink encoded sendPackets)

/-- The tasks that `WarpWebsocketTransport::new` spawns. -/
inductive Task where
  | subscribeToWebsocketMessages | subscribeToSocketCommands
deriving DecidableEq, Repr

/-- How far a task has come: it spawns its loop, waits to be notified of the drop of the
transport and then aborts the loop. -/
inductive Phase where
  | spawned | looping | waiting | aborted
deriving DecidableEq, Repr

structure MessageLoop where
  running : Bool
  events : List Websocket.TransportEvent

structure CommandLoop where
  running : Bool
  sink : Sink

structure Tasks where
  options : WebsocketTransportOptions
  phase : Task → Phase
  dropNotify : Notify Task
  dropped : Bool
  messageLoop : MessageLoop
  commandLoop : CommandLoop

/-- What the stream of messages has next, if it has not come to its end. -/
def MessageLoop.next {ε : Type} (l : MessageLoop) (result : Option (Except ε Message)) :
    MessageLoop :=
  if l.running then
    match result with
    | none => ⟨false, l.events ++ [.close]⟩
    | some (.error _) => ⟨false, l.events ++ [.close]⟩
    | some (.ok message) =>
      match encoded message with
      | some input =>
        match decodePacket input with
        | ok packet => { l with events := l.events ++ [.packet packet] }
        | err _ => l
        | .panic => { l with running := false }
      | none => if Websocket.isClose message then ⟨false, l.events ++ [.close]⟩ else l
  else l

/-- One command, or the error that ends the loop. An error of the sink does not. -/
def CommandLoop.recv (B : Base64.Codec) (options : WebsocketTransportOptions) (l : CommandLoop)
    (cmd : Option TransportCmd) : CommandLoop :=
  if l.running then
    match cmd with
    | none => { l with running := false }
    | some cmd =>
      { l with sink := l.sink.forward (sendPackets B cmd.packets ⟨options.supportsBinary⟩) }
  else l

namespace Tasks

/-- A transport that has just been made. -/
def new (options : WebsocketTransportOptions) : Tasks :=
  ⟨options, fun _ ↦ .spawned, .new, false, ⟨false, []⟩, ⟨false, .new⟩⟩

def setPhase (s : Tasks) (task : Task) (phase : Phase) : Tasks :=
  { s with phase := Function.update s.phase task phase }

def setRunning (s : Tasks) (task : Task) (running : Bool) : Tasks :=
  match task with
  | .subscribeToWebsocketMessages =>
    { s with messageLoop := { s.messageLoop with running := running } }
  | .subscribeToSocketCommands =>
    { s with commandLoop := { s.commandLoop with running := running } }

/-- The task goes on by one step, if it is not waiting in vain. -/
def poll (s : Tasks) (task : Task) : Tasks :=
  match s.phase task with
  | .spawned => (s.setRunning task true).setPhase task .looping
  | .looping => { s.setPhase task .waiting with dropNotify := s.dropNotify.wait task }
  | .waiting =>
    if task ∈ s.dropNotify.notified then (s.setRunning task false).setPhase task .aborted else s
  | .aborted => s

/-- `WarpWebsocketTransport::drop`, which happens once. -/
def drop (s : Tasks) : Tasks :=
  if s.dropped then s else { s with dropNotify := s.dropNotify.notify, dropped := true }

end Tasks

/-- What happens to the tasks of a transport, in any order. -/
inductive Turn (ε : Type) where
  | poll : Task → Turn ε
  | drop
  | message : Option (Except ε Message) → Turn ε
  | command : Option TransportCmd → Turn ε

variable {ε : Type}

namespace Tasks

def turn (B : Base64.Codec) (s : Tasks) : Turn ε → Tasks
  | .poll task => s.poll task
  | .drop => s.drop
  | .message result => { s with messageLoop := s.messageLoop.next result }
  | .command cmd => { s with commandLoop := s.commandLoop.recv B s.options cmd }

def run (B : Base64.Codec) (s : Tasks) (turns : List (Turn ε)) : Tasks := turns.foldl (turn B) s

/-- The turns that the loops take part in. -/
def results (turns : List (Turn ε)) : List (Option (Except ε Message)) :=
  turns.filterMap fun
    | .message result => some result
    | _ => none

def commands (turns : List (Turn ε)) : List (Option TransportCmd) :=
  turns.filterMap fun
    | .command cmd => some cmd
    | _ => none

def isRunning (s : Tasks) : Task → Bool
  | .subscribeToWebsocketMessages => s.messageLoop.running
  | .subscribeToSocketCommands => s.commandLoop.running

/-- Enough turns for each of the tasks to get to where it waits or is done. -/
def settle : List (Turn ε) :=
  List.replicate 3 (.poll .subscribeToWebsocketMessages) ++
    List.replicate 3 (.poll .subscribeToSocketCommands)

end Tasks

open Tasks

theorem MessageLoop.foldl_next_of_not_running {l : MessageLoop} (h : l.running = false)
    (results : List (Option (Except ε Message))) : results.foldl MessageLoop.next l = l := by
  induction results with
  | nil => rfl
  | cons result results ih =>
    have hnext : l.next result = l := by simp only [next, h, Bool.false_eq_true, if_false]
    rw [List.foldl_cons, hnext]
    exact ih

/-- The loop sends the events of the task that is not aborted. -/
theorem MessageLoop.foldl_next (es : List Websocket.TransportEvent)
    (results : List (Except ε Message)) :
    ((results.map some ++ [none]).foldl MessageLoop.next ⟨true, es⟩).events =
      es ++ Websocket.subscribeToWebsocketMessages results := by
  induction results generalizing es with
  | nil => rfl
  | cons result results ih =>
    have hstop (es : List Websocket.TransportEvent) :
        ((results.map some ++ [none]).foldl MessageLoop.next ⟨false, es⟩).events = es := by
      rw [foldl_next_of_not_running rfl]
    rw [List.map_cons, List.cons_append, List.foldl_cons]
    cases result with
    | error e => exact hstop _
    | ok message =>
      cases hinput : encoded message with
      | none =>
        simp only [next, Websocket.subscribeToWebsocketMessages, hinput, if_true]
        split
        · exact hstop _
        · exact ih es
      | some input =>
        cases hdecode : decodePacket input with
        | ok packet =>
          simp only [next, Websocket.subscribeToWebsocketMessages, hinput, hdecode, if_true]
          rw [ih, List.append_assoc, List.singleton_append]
        | err e =>
          simp only [next, Websocket.subscribeToWebsocketMessages, hinput, hdecode, if_true]
          exact ih es
        | panic =>
          simp only [next, Websocket.subscribeToWebsocketMessages, hinput, hdecode, if_true]
          rw [hstop, List.append_nil]

/-- What holds of the tasks of a transport, whatever has happened. -/
structure Consistent (s : Tasks) : Prop where
  notify : ∃ calls, s.dropNotify = Notify.run calls ∧ Notify.notifies calls = s.dropped.toNat ∧
    (Notify.waited calls).Nodup ∧
    ∀ task, task ∈ Notify.waited calls ↔ s.phase task = .waiting ∨ s.phase task = .aborted
  aborted : ∀ task, s.phase task = .aborted →
    task ∈ s.dropNotify.notified ∧ s.isRunning task = false

theorem consistent_new (options : WebsocketTransportOptions) : Consistent (new options) where
  notify := ⟨[], rfl, rfl, List.nodup_nil, fun _ ↦ by simp [Notify.waited, new]⟩
  aborted _ h := nomatch h

variable {s : Tasks} {task other : Task}

theorem isRunning_setRunning_of_ne (h : other ≠ task) (running : Bool) :
    (s.setRunning task running).isRunning other = s.isRunning other := by
  cases task <;> cases other <;> first | rfl | exact absurd rfl h

theorem isRunning_setRunning (running : Bool) :
    (s.setRunning task running).isRunning task = running := by
  cases task <;> rfl

theorem setRunning_same (s : Tasks) (task : Task) (running : Bool) :
    (s.setRunning task running).phase = s.phase ∧
      (s.setRunning task running).dropNotify = s.dropNotify ∧
      (s.setRunning task running).dropped = s.dropped := by
  cases task <;> exact ⟨rfl, rfl, rfl⟩

theorem CommandLoop.recv_of_not_running {l : CommandLoop} (h : l.running = false)
    (B : Base64.Codec) (options : WebsocketTransportOptions) (cmd : Option TransportCmd) :
    l.recv B options cmd = l := by
  simp only [recv, h, Bool.false_eq_true, if_false]

theorem MessageLoop.next_of_not_running {l : MessageLoop} (h : l.running = false)
    (result : Option (Except ε Message)) : l.next result = l :=
  foldl_next_of_not_running h [result]

/-- A step that has nothing to do with who waits. -/
theorem Consistent.goesOn (h : Consistent s) {running : Bool} {phase : Phase}
    (hwaits : phase = .waiting ∨ phase = .aborted ↔
      s.phase task = .waiting ∨ s.phase task = .aborted)
    (haborts : phase = .aborted → task ∈ s.dropNotify.notified ∧ running = false) :
    Consistent ((s.setRunning task running).setPhase task phase) := by
  obtain ⟨hsame, hnotify, hdropped⟩ := setRunning_same s task running
  obtain ⟨calls, hcalls, hnotifies, hnodup, hwaited⟩ := h.notify
  refine ⟨⟨calls, hnotify.trans hcalls, by rw [hnotifies, ← hdropped]; rfl, hnodup, ?_⟩, ?_⟩
  · intro other
    rw [hwaited, setPhase]
    dsimp only
    rw [hsame]
    by_cases ho : other = task
    · rw [ho, Function.update_self]
      exact hwaits.symm
    · rw [Function.update_of_ne ho]
  · intro other haborted
    rw [setPhase] at haborted ⊢
    dsimp only at haborted ⊢
    rw [hsame] at haborted
    by_cases ho : other = task
    · rw [ho, Function.update_self] at haborted
      obtain ⟨hmem, hrunning⟩ := haborts haborted
      rw [ho, hnotify]
      exact ⟨hmem, (isRunning_setRunning running).trans hrunning⟩
    · rw [Function.update_of_ne ho] at haborted
      obtain ⟨hmem, hrunning⟩ := h.aborted other haborted
      exact ⟨hnotify ▸ hmem, (isRunning_setRunning_of_ne ho running).trans hrunning⟩

theorem Consistent.wait (h : Consistent s) (hphase : s.phase task = .looping) :
    Consistent { s.setPhase task .waiting with dropNotify := s.dropNotify.wait task } := by
  obtain ⟨calls, hcalls, hnotifies, hnodup, hwaited⟩ := h.notify
  have hnew : task ∉ Notify.waited calls := by
    rw [hwaited, hphase]
    simp
  have happend : Notify.waited (calls ++ [.wait task]) = Notify.waited calls ++ [task] := by
    simp [Notify.waited, Notify.Call.waiter]
  refine ⟨⟨calls ++ [.wait task], ?_, ?_, ?_, ?_⟩, ?_⟩
  · rw [Notify.run_concat, ← hcalls]
    rfl
  · refine Eq.trans ?_ hnotifies
    simp [Notify.notifies, Notify.Call.waiter]
  · rw [happend, ← List.concat_eq_append]
    exact hnodup.concat hnew
  · intro other
    rw [happend, List.mem_append, List.mem_singleton, hwaited, setPhase]
    dsimp only
    by_cases ho : other = task
    · rw [ho, Function.update_self]
      simp
    · rw [Function.update_of_ne ho]
      simp [ho]
  · intro other haborted
    rw [setPhase] at haborted ⊢
    dsimp only at haborted ⊢
    by_cases ho : other = task
    · rw [ho, Function.update_self] at haborted
      cases haborted
    · rw [Function.update_of_ne ho] at haborted
      obtain ⟨hmem, hrunning⟩ := h.aborted other haborted
      refine ⟨?_, hrunning⟩
      rw [Notify.wait]
      split
      · exact List.mem_append_left _ hmem
      · exact hmem

theorem Consistent.poll (h : Consistent s) (task : Task) : Consistent (s.poll task) := by
  rw [Tasks.poll]
  split
  · rename_i hphase
    refine h.goesOn ?_ nofun
    rw [hphase]
    simp
  · rename_i hphase
    exact h.wait hphase
  · rename_i hphase
    split
    · rename_i hnotified
      refine h.goesOn ?_ fun _ ↦ ⟨hnotified, rfl⟩
      rw [hphase]
      simp
    · exact h
  · exact h

theorem Consistent.drop (h : Consistent s) : Consistent s.drop := by
  rw [Tasks.drop]
  split
  · exact h
  rename_i hdropped
  obtain ⟨calls, hcalls, hnotifies, hnodup, hwaited⟩ := h.notify
  have hsame : Notify.waited (calls ++ [.notify]) = Notify.waited calls := by
    simp [Notify.waited, Notify.Call.waiter]
  refine ⟨⟨calls ++ [.notify], ?_, ?_, ?_, ?_⟩, ?_⟩
  · rw [Notify.run_concat, ← hcalls]
    rfl
  · rw [Bool.not_eq_true _ |>.mp hdropped] at hnotifies
    simp [Notify.notifies, Notify.Call.waiter] at hnotifies ⊢
    exact hnotifies
  · rw [hsame]
    exact hnodup
  · rw [hsame]
    exact hwaited
  · intro other haborted
    obtain ⟨hmem, hrunning⟩ := h.aborted other haborted
    refine ⟨?_, hrunning⟩
    dsimp only
    rw [Notify.notify]
    split
    · exact hmem
    · exact List.mem_append_left _ hmem

theorem Consistent.turn (h : Consistent s) (B : Base64.Codec) (turn : Turn ε) :
    Consistent (s.turn B turn) := by
  cases turn with
  | poll task => exact h.poll task
  | drop => exact h.drop
  | message result =>
    refine ⟨h.notify, ?_⟩
    intro task haborted
    obtain ⟨hmem, hrunning⟩ := h.aborted task haborted
    refine ⟨hmem, ?_⟩
    cases task with
    | subscribeToWebsocketMessages =>
      exact (congrArg MessageLoop.running (MessageLoop.next_of_not_running hrunning result)).trans
        hrunning
    | subscribeToSocketCommands => exact hrunning
  | command cmd =>
    refine ⟨h.notify, ?_⟩
    intro task haborted
    obtain ⟨hmem, hrunning⟩ := h.aborted task haborted
    refine ⟨hmem, ?_⟩
    cases task with
    | subscribeToWebsocketMessages => exact hrunning
    | subscribeToSocketCommands =>
      exact (congrArg CommandLoop.running
        (CommandLoop.recv_of_not_running hrunning B s.options cmd)).trans hrunning

theorem Consistent.run (h : Consistent s) (B : Base64.Codec) (turns : List (Turn ε)) :
    Consistent (s.run B turns) := by
  induction turns generalizing s with
  | nil => exact h
  | cons turn turns ih => exact ih (h.turn B turn)

/-- A task that has nothing left to do. -/
def Settled (s : Tasks) (task : Task) : Prop :=
  s.phase task = .waiting ∧ task ∉ s.dropNotify.notified ∨ s.phase task = .aborted

theorem poll_of_settled (h : Settled s task) : s.poll task = s := by
  rw [poll]
  rcases h with ⟨hphase, hnot⟩ | hphase
  · rw [hphase]
    exact if_neg hnot
  · rw [hphase]

theorem poll_waiting (h : s.phase task = .waiting) : Settled (s.poll task) task := by
  rw [poll, h]
  dsimp only
  split
  · exact .inr (Function.update_self ..)
  · rename_i hnot
    exact .inl ⟨h, hnot⟩

theorem poll_looping (h : s.phase task = .looping) : (s.poll task).phase task = .waiting := by
  rw [poll, h]
  exact Function.update_self ..

theorem poll_spawned (h : s.phase task = .spawned) : (s.poll task).phase task = .looping := by
  rw [poll, h]
  exact Function.update_self ..

/-- A task takes three turns at most. -/
theorem poll_thrice (s : Tasks) (task : Task) :
    Settled (((s.poll task).poll task).poll task) task := by
  cases h : s.phase task with
  | spawned => exact poll_waiting (poll_looping (poll_spawned h))
  | looping =>
    have hsettled := poll_waiting (poll_looping h)
    rwa [poll_of_settled hsettled]
  | waiting =>
    have hsettled := poll_waiting h
    rwa [poll_of_settled hsettled, poll_of_settled hsettled]
  | aborted =>
    have hsettled : Settled s task := .inr h
    rwa [poll_of_settled hsettled, poll_of_settled hsettled, poll_of_settled hsettled]

theorem poll_other (ho : other ≠ task) : (s.poll other).phase task = s.phase task ∧
    (task ∈ (s.poll other).dropNotify.notified ↔ task ∈ s.dropNotify.notified) := by
  have hphase (running : Bool) (phase : Phase) :
      ((s.setRunning other running).setPhase other phase).phase task = s.phase task := by
    rw [setPhase, (setRunning_same s other running).1]
    exact Function.update_of_ne (Ne.symm ho) ..
  have hnotify (running : Bool) (phase : Phase) :
      ((s.setRunning other running).setPhase other phase).dropNotify = s.dropNotify :=
    (setRunning_same s other running).2.1
  rw [poll]
  split
  · exact ⟨hphase .., by rw [hnotify]⟩
  · refine ⟨Function.update_of_ne (Ne.symm ho) .., ?_⟩
    rw [Notify.wait]
    split
    · simp [Ne.symm ho]
    · rfl
  · split
    · exact ⟨hphase .., by rw [hnotify]⟩
    · exact ⟨rfl, .rfl⟩
  · exact ⟨rfl, .rfl⟩

theorem Settled.poll (h : Settled s task) (other : Task) : Settled (s.poll other) task := by
  by_cases ho : other = task
  · rw [ho, poll_of_settled h]
    exact h
  · obtain ⟨hphase, hnotified⟩ := poll_other (s := s) ho
    rw [Settled, hphase, hnotified]
    exact h

theorem poll_dropped (s : Tasks) (task : Task) : (s.poll task).dropped = s.dropped := by
  rw [poll]
  split
  · exact (setRunning_same s task true).2.2
  · rfl
  · split
    · exact (setRunning_same s task false).2.2
    · rfl
  · rfl

theorem settle_run (B : Base64.Codec) (s : Tasks) :
    (∀ task, Settled (s.run B (settle (ε := ε))) task) ∧
      (s.run B (settle (ε := ε))).dropped = s.dropped := by
  have hrun : s.run B (settle (ε := ε)) =
      (((((s.poll .subscribeToWebsocketMessages).poll .subscribeToWebsocketMessages).poll
        .subscribeToWebsocketMessages).poll .subscribeToSocketCommands).poll
          .subscribeToSocketCommands).poll .subscribeToSocketCommands := rfl
  rw [hrun]
  refine ⟨?_, ?_⟩
  · intro task
    cases task with
    | subscribeToWebsocketMessages => exact (((poll_thrice s _).poll _).poll _).poll _
    | subscribeToSocketCommands => exact poll_thrice _ _
  · simp only [poll_dropped]

/-- The task `task` has been aborted, and nothing will ever happen to the other one. -/
structure Stopped (s : Tasks) (task : Task) : Prop where
  dropped : s.dropped = true
  aborted : s.phase task = .aborted
  others : ∀ other, other ≠ task → s.phase other = .waiting ∧ other ∉ s.dropNotify.notified
  running : s.isRunning task = false

theorem Consistent.notified (h : Consistent s) :
    s.dropNotify.notified.length ≤ s.dropped.toNat := by
  obtain ⟨calls, hcalls, hnotifies, -, -⟩ := h.notify
  have hafter := Notify.after_run calls
  rw [← hcalls] at hafter
  rw [← hnotifies]
  exact (Nat.le_add_right ..).trans hafter.spent

/-- One of the tasks is aborted as soon as both have had their turns. -/
theorem Consistent.stopped (h : Consistent s) (hdropped : s.dropped = true)
    (hsettled : ∀ task, Settled s task) : ∃ task, Stopped s task := by
  obtain ⟨calls, hcalls, hnotifies, -, hwaited⟩ := h.notify
  have hafter := Notify.after_run calls
  rw [← hcalls] at hafter
  rw [hdropped, Bool.toNat_true] at hnotifies
  have hspent := hafter.spent
  rw [hnotifies] at hspent
  have hmem : Task.subscribeToWebsocketMessages ∈ Notify.waited calls := by
    rw [hwaited]
    exact (hsettled _).imp_left And.left
  have hpermit : s.dropNotify.permit = false := by
    refine Bool.eq_false_iff.mpr fun hp ↦ ?_
    rw [hp, Bool.toNat_true] at hspent
    have hnil : s.dropNotify.notified = [] := List.length_eq_zero_iff.mp (by omega)
    rw [← hafter.fifo, hafter.permit hp, hnil] at hmem
    cases hmem
  have hsome := (hafter.kept (by rw [hnotifies]; exact Nat.one_pos)).resolve_left
    (by rw [hpermit]; exact Bool.false_ne_true)
  obtain ⟨task, htask⟩ : ∃ task, s.dropNotify.notified = [task] :=
    List.length_eq_one_iff.mp (Nat.le_antisymm ((Nat.le_add_right ..).trans hspent)
      (List.length_pos_of_ne_nil hsome))
  have haborted : s.phase task = .aborted := by
    refine (hsettled task).resolve_left fun hw ↦ hw.2 ?_
    rw [htask]
    exact List.mem_singleton_self task
  refine ⟨task, hdropped, haborted, ?_, (h.aborted task haborted).2⟩
  intro other ho
  have hnot : other ∉ s.dropNotify.notified := by
    rw [htask, List.mem_singleton]
    exact ho
  refine ⟨?_, hnot⟩
  rcases hsettled other with hw | ha
  · exact hw.1
  · exact absurd (h.aborted other ha).1 hnot

theorem Stopped.turn (h : Stopped s task) (B : Base64.Codec) (turn : Turn ε) :
    Stopped (s.turn B turn) task ∧
      (s.turn B turn).messageLoop = (results [turn]).foldl MessageLoop.next s.messageLoop ∧
      (s.turn B turn).commandLoop =
        (commands [turn]).foldl (CommandLoop.recv B s.options) s.commandLoop ∧
      (s.turn B turn).options = s.options := by
  cases turn with
  | poll other =>
    have hsettled : Settled s other := by
      by_cases ho : other = task
      · exact .inr (ho ▸ h.aborted)
      · exact .inl (h.others other ho)
    rw [Tasks.turn, poll_of_settled hsettled]
    exact ⟨h, rfl, rfl, rfl⟩
  | drop =>
    rw [Tasks.turn, drop, if_pos h.dropped]
    exact ⟨h, rfl, rfl, rfl⟩
  | message result =>
    refine ⟨⟨h.dropped, h.aborted, h.others, ?_⟩, rfl, rfl, rfl⟩
    cases task with
    | subscribeToWebsocketMessages =>
      exact (congrArg MessageLoop.running (MessageLoop.next_of_not_running h.running result)).trans
        h.running
    | subscribeToSocketCommands => exact h.running
  | command cmd =>
    refine ⟨⟨h.dropped, h.aborted, h.others, ?_⟩, rfl, rfl, rfl⟩
    cases task with
    | subscribeToWebsocketMessages => exact h.running
    | subscribeToSocketCommands =>
      exact (congrArg CommandLoop.running
        (CommandLoop.recv_of_not_running h.running B s.options cmd)).trans h.running

theorem Stopped.run (h : Stopped s task) (B : Base64.Codec) (turns : List (Turn ε)) :
    Stopped (s.run B turns) task ∧
      (s.run B turns).messageLoop = (results turns).foldl MessageLoop.next s.messageLoop ∧
      (s.run B turns).commandLoop =
        (commands turns).foldl (CommandLoop.recv B s.options) s.commandLoop := by
  induction turns generalizing s with
  | nil => exact ⟨h, rfl, rfl⟩
  | cons turn turns ih =>
    obtain ⟨hturn, hmessages, hcommands, hoptions⟩ := h.turn B turn
    obtain ⟨hrun, hmessages', hcommands'⟩ := ih hturn
    have hresults : results (turn :: turns) = results [turn] ++ results turns :=
      List.filterMap_append (l := [turn])
    have hcmds : commands (turn :: turns) = commands [turn] ++ commands turns :=
      List.filterMap_append (l := [turn])
    refine ⟨hrun, ?_, ?_⟩
    · rw [hresults, List.foldl_append, ← hmessages]
      exact hmessages'
    · rw [hcmds, List.foldl_append, ← hcommands, ← hoptions]
      exact hcommands'

/-- The drop of a transport stops one of its two tasks, either of them: nothing is stopped
before, and as soon as both have had their turns, one loop has been aborted for good while
the other one handles all that it gets, as if there had been no drop. -/
theorem drop_stops_one (B : Base64.Codec) (options : WebsocketTransportOptions) :
    (∀ turns : List (Turn ε),
      let s := (new options).run B turns
      (∀ task, s.phase task = .aborted → s.dropped = true ∧
        ∀ other, other ≠ task → s.phase other ≠ .aborted) ∧
      (s.dropped = true → ∃ task, ∀ later : List (Turn ε),
        let settled := s.run B (settle (ε := ε))
        let s' := settled.run B later
        s'.phase task = .aborted ∧ s'.isRunning task = false ∧
          (∀ other, other ≠ task → s'.phase other = .waiting) ∧
          s'.messageLoop = (results later).foldl MessageLoop.next settled.messageLoop ∧
          s'.commandLoop =
            (commands later).foldl (CommandLoop.recv B settled.options) settled.commandLoop)) ∧
    ∀ task, ∃ turns : List (Turn ε), ((new options).run B turns).phase task = .aborted := by
  refine ⟨?_, ?_⟩
  · intro turns s
    have h : Consistent s := (consistent_new options).run B turns
    have hlen := h.notified
    refine ⟨?_, ?_⟩
    · intro task haborted
      have hmem := (h.aborted task haborted).1
      have hpos := List.length_pos_of_mem hmem
      have hdropped : s.dropped = true := by
        cases hd : s.dropped with
        | true => rfl
        | false =>
          rw [hd, Bool.toNat_false] at hlen
          omega
      refine ⟨hdropped, ?_⟩
      intro other ho hother
      have hpair : [other, task].Subperm s.dropNotify.notified := by
        refine List.subperm_of_subset ?_ ?_
        · simp [ho]
        · intro t ht
          rcases List.mem_pair.mp ht with rfl | rfl
          · exact (h.aborted _ hother).1
          · exact hmem
      have hle := hpair.length_le
      rw [hdropped, Bool.toNat_true] at hlen
      exact absurd (hle.trans hlen) (Nat.not_succ_le_self 1)
    · intro hdropped
      obtain ⟨hsettled, hsame⟩ := settle_run (ε := ε) B s
      obtain ⟨task, hstopped⟩ :=
        (h.run B (settle (ε := ε))).stopped (hsame.trans hdropped) hsettled
      refine ⟨task, ?_⟩
      intro later settled s'
      obtain ⟨hlater, hmessages, hcommands⟩ := hstopped.run B later
      exact ⟨hlater.aborted, hlater.running, fun other ho ↦ (hlater.others other ho).1,
        hmessages, hcommands⟩
  · intro task
    refine ⟨[.poll task, .poll task, .drop, .poll task], ?_⟩
    cases task <;> rfl

end SocketIoRust.EngineIoWarp.TransportTasks
