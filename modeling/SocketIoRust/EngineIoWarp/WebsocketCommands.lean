import SocketIoRust.EngineIoServer.CommandLog
import SocketIoRust.EngineIoWarp.AdapterWarp
import SocketIoRust.Library.Broadcast

namespace SocketIoRust.EngineIoWarp.WebsocketCommands

open Library Library.Broadcast EngineIoParser EngineIoServer
open EngineIoServer.CommandLog (newCommands perform_continues commands_perform)
open EngineIoServer.Lifecycle (Action)

variable {B : Base64.Codec} {o : Overflow} {κ : Type}

/-- A socket, the channels of its commands, and the task that receives them for the
websocket. -/
structure Link (B : Base64.Codec) (o : Overflow) (κ : Type) where
  socket : Socket (StandaloneAdapter B o) κ
  channels : Bus TransportCmd
  task : CommandTask
  loop : Loop TransportCmd

/-- What happens to a link: the socket does something, or it is the turn of the task. -/
inductive Turn (κ : Type) where
  | act : Action κ → Turn κ
  | recv

namespace Link

/-- A websocket connection that has just been opened. Its task has been receiving since the
channel was made. -/
def start (B : Base64.Codec) (o : Overflow) (κ : Type) (J : Json.Codec)
    (serverOptions : ServerOptions) (id : Str) (context : RequestContext) (supportsBinary : Bool)
    (handle : AdapterWsHandle) (next : ℕ) : Link B o κ :=
  let data : TransportCreateData (StandaloneAdapter B o) := .webSocket supportsBinary handle
  let socket := (Socket.new κ id context data next).open J serverOptions
  let channels : Bus TransportCmd := fun i ↦ ⟨128, [], if i = next then 1 else 0⟩
  ⟨socket, channels.sendAll socket.senders.transportCmd.channel socket.trace.commands,
    ⟨⟨next⟩, handle, ⟨true, supportsBinary⟩⟩, .start 0⟩

def act (s : Link B o κ) (action : Action κ) : Link B o κ :=
  { s with
    socket := action.perform s.socket
    channels :=
      s.channels.sendAll s.socket.senders.transportCmd.channel (newCommands s.socket action) }

/-- The task is aborted when the transport is dropped. -/
def recv (s : Link B o κ) : Link B o κ :=
  match s.socket.state.transport with
  | some _ => { s with loop := s.loop.recv (s.channels s.task.cmdReceiver.channel) }
  | none => s

def turn (s : Link B o κ) : Turn κ → Link B o κ
  | .act action => s.act action
  | .recv => s.recv

def run (s : Link B o κ) (turns : List (Turn κ)) : Link B o κ := turns.foldl turn s

end Link

/-- The messages that the task forwards to the websocket, command by command. -/
def batches (B : Base64.Codec) (task : CommandTask) (cmds : List TransportCmd) :
    List (List Websocket.Message) :=
  cmds.map (fun cmd ↦ Websocket.sendPackets B cmd.packets ⟨task.options.supportsBinary⟩)

/-- The messages that the commands are about. -/
def messages (B : Base64.Codec) (task : CommandTask) (cmds : List TransportCmd) :
    List Websocket.Message :=
  (batches B task cmds).flatten

/-- The websocket when the task has forwarded the packets of the commands that it has
received, each time until the error or the end. -/
def Link.sink (s : Link B o κ) : Websocket.Sink :=
  (batches B s.task s.loop.received).foldl Websocket.Sink.forward .new

/-- The messages that the task has passed to the websocket. -/
def Link.messages (s : Link B o κ) : List Websocket.Message := s.sink.sent

/-- What the turns mean for the channel of the commands. -/
def events : Socket (StandaloneAdapter B o) κ → List (Turn κ) → List (Event TransportCmd)
  | _, [] => []
  | socket, .act action :: turns =>
    (newCommands socket action).map .send ++ events (action.perform socket) turns
  | socket, .recv :: turns => .recv :: events socket turns

/-- The task receives the commands of the socket. -/
structure Wired (s : Link B o κ) : Prop where
  receiver : s.task.cmdReceiver.channel = s.socket.senders.transportCmd.channel
  channel : s.channels s.task.cmdReceiver.channel = ⟨128, s.socket.trace.commands, 1⟩

theorem Wired.act {s : Link B o κ} (h : Wired s) (action : Action κ) : Wired (s.act action) where
  receiver := by
    rw [Link.act, (perform_continues s.socket action).senders]
    exact h.receiver
  channel := by
    rw [Link.act, ← h.receiver]
    dsimp only
    rw [Bus.sendAll_self, h.channel, commands_perform]
    exact Channel.foldl_send Nat.one_ne_zero _

theorem Wired.recv {s : Link B o κ} (h : Wired s) : Wired s.recv := by
  rw [Link.recv]
  split
  · exact ⟨h.receiver, h.channel⟩
  · exact h

theorem Link.run_cons (s : Link B o κ) (turn : Turn κ) (turns : List (Turn κ)) :
    s.run (turn :: turns) = (s.turn turn).run turns := rfl

theorem Link.run_concat (s : Link B o κ) (turns : List (Turn κ)) (turn : Turn κ) :
    s.run (turns ++ [turn]) = (s.run turns).turn turn := List.foldl_append ..

theorem Link.run_task (s : Link B o κ) (turns : List (Turn κ)) :
    (s.run turns).task = s.task := by
  induction turns generalizing s with
  | nil => rfl
  | cons turn turns ih =>
    rw [run_cons, ih]
    cases turn with
    | act action => rfl
    | recv =>
      rw [Link.turn, Link.recv]
      split <;> rfl

/-- A transport that has been dropped is not seen again. -/
theorem Link.run_dropped {s : Link B o κ} (h : s.socket.state.transport = none)
    (turns : List (Turn κ)) : (s.run turns).socket.state.transport = none := by
  induction turns generalizing s with
  | nil => exact h
  | cons turn turns ih =>
    refine ih ?_
    cases turn with
    | act action => exact (perform_continues s.socket action).dropped h
    | recv =>
      rw [Link.turn, Link.recv, h]
      exact h

/-- The channel and the task as the turns change them, as long as there is a transport. -/
theorem Wired.run {s : Link B o κ} (h : Wired s) (turns : List (Turn κ))
    (halive : (s.run turns).socket.state.transport ≠ none) :
    (s.run turns).loop = (Broadcast.run (⟨128, s.socket.trace.commands, 1⟩, s.loop)
      (events s.socket turns)).2 := by
  induction turns generalizing s with
  | nil => rfl
  | cons turn turns ih =>
    rw [Link.run_cons] at halive ⊢
    cases turn with
    | act action =>
      rw [events, run_append, run_sends, Channel.foldl_send Nat.one_ne_zero]
      have hrun := ih (h.act action) halive
      rw [Link.turn, hrun]
      simp only [Link.act, commands_perform]
    | recv =>
      have hturn : s.recv = { s with loop := s.loop.recv ⟨128, s.socket.trace.commands, 1⟩ } := by
        rw [Link.recv, h.channel]
        split
        · rfl
        · rename_i hnone
          exact absurd (Link.run_dropped (by rw [Link.turn, Link.recv, hnone]; exact hnone) turns)
            halive
      have hrun := ih h.recv halive
      rw [Link.turn, hrun, hturn]
      rfl

/-- The commands that are sent during the turns are those of the socket. -/
theorem commands_run (s : Link B o κ) (turns : List (Turn κ)) :
    (s.run turns).socket.trace.commands =
      s.socket.trace.commands ++ sends (events s.socket turns) := by
  induction turns generalizing s with
  | nil => exact (List.append_nil _).symm
  | cons turn turns ih =>
    rw [Link.run_cons, ih]
    cases turn with
    | act action =>
      rw [Link.turn, Link.act, commands_perform, events, sends_append, List.append_assoc]
    | recv =>
      have hsocket : s.recv.socket = s.socket := by
        rw [Link.recv]
        split <;> rfl
      rw [Link.turn, hsocket, events]
      rfl

/-- Every command that a socket sends is about some packets. -/
theorem run_packets_ne_nil {s : Link B o κ}
    (h : ∀ cmd ∈ s.socket.trace.commands, cmd.packets ≠ []) (turns : List (Turn κ)) :
    ∀ cmd ∈ (s.run turns).socket.trace.commands, cmd.packets ≠ [] := by
  induction turns generalizing s with
  | nil => exact h
  | cons turn turns ih =>
    refine ih ?_
    cases turn with
    | act action =>
      obtain ⟨cmds, hcmds, hne⟩ := (perform_continues s.socket action).commands
      rw [Link.turn, Link.act, hcmds]
      exact List.forall_mem_append.mpr ⟨h, hne⟩
    | recv =>
      rw [Link.turn, Link.recv]
      split <;> exact h

/-- Each command adds messages, so that the first one has all of them only if it is alone. -/
theorem length_le_one_of_messages {B : Base64.Codec} {task : CommandTask}
    {cmds : List TransportCmd} (hne : ∀ cmd ∈ cmds, cmd.packets ≠ [])
    (h : messages B task (cmds.take 1) = messages B task cmds) : cmds.length ≤ 1 := by
  cases cmds with
  | nil => exact Nat.zero_le 1
  | cons first cmds =>
    cases cmds with
    | nil => exact le_rfl
    | cons second cmds =>
      have hnil : [] = Websocket.sendPackets B second.packets ⟨task.options.supportsBinary⟩ ++
          messages B task cmds := List.append_cancel_left h
      have hlen := congrArg List.length (List.append_eq_nil_iff.mp hnil.symm).1
      rw [Websocket.length_sendPackets] at hlen
      exact absurd (List.eq_nil_of_length_eq_zero hlen) (hne second (by simp))

section Start

variable (B o κ) (J : Json.Codec) (serverOptions : ServerOptions) (id : Str)
  (context : RequestContext) (supportsBinary : Bool) (handle : AdapterWsHandle) (next : ℕ)

/-- The task is the one that the transport has started. -/
theorem start_task : ∃ transport : WarpWebsocketTransport,
    (Link.start B o κ J serverOptions id context supportsBinary handle
      next).socket.state.transport = some (.webSocket transport) ∧
    transport.commandTask =
      (Link.start B o κ J serverOptions id context supportsBinary handle next).task :=
  ⟨_, rfl, rfl⟩

theorem start_wired :
    Wired (Link.start B o κ J serverOptions id context supportsBinary handle next) where
  receiver := rfl
  channel := by
    have hone : (if next = next then 1 else 0) = 1 := if_pos rfl
    refine (Bus.sendAll_self _ _ _).trans ?_
    change List.foldl Channel.send ⟨128, [], if next = next then 1 else 0⟩ _ = _
    rw [hone]
    exact Channel.foldl_send Nat.one_ne_zero _

theorem start_spec (turns : List (Turn κ))
    (halive : ((Link.start B o κ J serverOptions id context supportsBinary handle next).run
      turns).socket.state.transport ≠ none) :
    let s := Link.start B o κ J serverOptions id context supportsBinary handle next
    ((s.run turns).loop.running = true ↔
        InTime 128 s.socket.trace.commands.length (events s.socket turns)) ∧
      (InTime 128 s.socket.trace.commands.length (events s.socket turns) →
        (s.run turns).loop.received =
          queued s.socket.trace.commands (events s.socket turns)) := by
  intro s
  have hrun := (start_wired B o κ J serverOptions id context supportsBinary handle next).run
    turns halive
  have hspec := run_spec (⟨128, s.socket.trace.commands, 1⟩, s.loop) rfl Nat.one_ne_zero
    (Nat.zero_le _) (events s.socket turns)
  rw [← hrun] at hspec
  exact hspec

/-- In time, the websocket gets the packets of the first command. -/
theorem messages_first (turns : List (Turn κ))
    (halive : ((Link.start B o κ J serverOptions id context supportsBinary handle next).run
      turns).socket.state.transport ≠ none) :
    let s := Link.start B o κ J serverOptions id context supportsBinary handle next
    InTime 128 s.socket.trace.commands.length (events s.socket turns) →
      (s.run turns).messages =
        messages B s.task ((queued s.socket.trace.commands (events s.socket turns)).take 1) := by
  intro s h
  obtain ⟨-, hreceived⟩ := start_spec B o κ J serverOptions id context supportsBinary handle
    next turns halive
  rw [Link.messages, Link.sink, Websocket.Sink.foldl_forward, Link.run_task, hreceived h, messages,
    batches, batches, List.map_take]

/-- No command is without packets. -/
theorem packets_ne_nil (turns : List (Turn κ)) :
    let s := Link.start B o κ J serverOptions id context supportsBinary handle next
    ∀ cmd ∈ queued s.socket.trace.commands (events s.socket turns), cmd.packets ≠ [] := by
  intro s cmd hcmd
  have hprefix := queued_prefix s.socket.trace.commands (events s.socket turns)
  have hmem := hprefix.subset hcmd
  rw [← commands_run] at hmem
  exact run_packets_ne_nil (fun cmd hcmd ↦ by
    obtain rfl := List.mem_singleton.mp hcmd
    exact List.cons_ne_nil _ _) turns cmd hmem

/-- The websocket gets the packets of all commands in turn, and the task goes on, exactly as
long as at most 128 commands are waiting whenever the task receives and the task has received
one command at most. -/
theorem messages_iff (turns : List (Turn κ))
    (halive : ((Link.start B o κ J serverOptions id context supportsBinary handle next).run
      turns).socket.state.transport ≠ none) :
    let s := Link.start B o κ J serverOptions id context supportsBinary handle next
    ((s.run turns).loop.running = true ∧ (s.run turns).messages =
        messages B s.task (queued s.socket.trace.commands (events s.socket turns))) ↔
      InTime 128 s.socket.trace.commands.length (events s.socket turns) ∧
        (queued s.socket.trace.commands (events s.socket turns)).length ≤ 1 := by
  intro s
  obtain ⟨hrunning, -⟩ := start_spec B o κ J serverOptions id context supportsBinary handle next
    turns halive
  have hfirst := messages_first B o κ J serverOptions id context supportsBinary handle next turns
    halive
  have hne := packets_ne_nil B o κ J serverOptions id context supportsBinary handle next turns
  constructor
  · rintro ⟨hrun, hmessages⟩
    have htime := hrunning.mp hrun
    refine ⟨htime, ?_⟩
    rw [hfirst htime] at hmessages
    exact length_le_one_of_messages hne hmessages
  · rintro ⟨htime, hlen⟩
    refine ⟨hrunning.mpr htime, ?_⟩
    rw [hfirst htime, List.take_of_length_le hlen]

end Start

def link : Link Base64.standard .wrapping Unit :=
  .start _ _ _ Json.standard ⟨5000, 25000⟩ "a".toList .poll true ⟨0⟩ 0

theorem messages_iff_open :
    (link.run [.recv]).socket.state.transport ≠ none ∧
      (((link.run [.recv]).loop.running = true ∧ (link.run [.recv]).messages =
          messages Base64.standard link.task
            (queued link.socket.trace.commands (events link.socket [.recv]))) ↔
        InTime 128 link.socket.trace.commands.length (events link.socket [.recv]) ∧
          (queued link.socket.trace.commands (events link.socket [.recv])).length ≤ 1) :=
  ⟨nofun, messages_iff _ _ _ _ _ _ _ _ _ _ [.recv] nofun⟩

/-- A socket that sends every packet at once. -/
structure Sending (socket : Socket (StandaloneAdapter B o) κ) : Prop where
  ready : socket.state.ready = .open
  transport : ∃ transport, socket.state.transport = some (.webSocket transport)

theorem Sending.sendPacket {socket : Socket (StandaloneAdapter B o) κ} (h : Sending socket)
    (packet : Packet) (callback : Option κ) :
    Sending (socket.sendPacket packet callback) ∧
      (socket.sendPacket packet callback).trace.commands.length =
        socket.trace.commands.length + 1 := by
  obtain ⟨hready, transport, htransport⟩ := h
  have hflushes :
      Socket.Flushes { socket with state := socket.state.pushPacket packet callback } := by
    refine ⟨?_, ?_, ?_⟩
    · change socket.state.ready ≠ .closed
      rw [hready]
      nofun
    · simp [SocketState.pushPacket]
    · simp only [SocketState.isWritable, SocketState.pushPacket, htransport]
      rfl
  rw [Socket.sendPacket, if_pos (.inr hready), Socket.flush_of_flushes hflushes]
  refine ⟨⟨hready, transport, ?_⟩, ?_⟩
  · rw [Socket.transportAfterFlush]
    split
    · rename_i heq
      rw [SocketState.pushPacket, hready] at heq
      cases heq
    · exact htransport
  · exact List.length_append

/-- A socket that sends while the task does not get a turn. -/
theorem run_burst {s : Link B o κ} (hw : Wired s) (hs : Sending s.socket) (packet : Packet)
    (n : ℕ) :
    let s' := s.run (List.replicate n (.act (.sendPacket packet none)))
    Wired s' ∧ Sending s'.socket ∧ s'.loop = s.loop ∧
      s'.socket.trace.commands.length = s.socket.trace.commands.length + n := by
  induction n generalizing s with
  | zero => exact ⟨hw, hs, rfl, rfl⟩
  | succ n ih =>
    obtain ⟨hsending, hlen⟩ := hs.sendPacket packet none
    obtain ⟨hw', hs', hloop, hcommands⟩ := ih (hw.act (.sendPacket packet none)) hsending
    refine ⟨hw', hs', hloop, ?_⟩
    rw [List.replicate_succ, Link.run_cons]
    refine hcommands.trans ?_
    change (s.socket.sendPacket packet none).trace.commands.length + n = _
    rw [hlen]
    omega

/-- A socket that sends a packet after its Open packet, and one that sends 129 commands before
its task gets a turn. -/
theorem messages_lost :
    (¬ ∀ turns : List (Turn Unit), (link.run turns).socket.state.transport ≠ none →
      (link.run turns).messages = messages Base64.standard link.task
        (queued link.socket.trace.commands (events link.socket turns))) ∧
    ¬ ∀ turns : List (Turn Unit), (link.run turns).socket.state.transport ≠ none →
      (link.run turns).loop.running = true := by
  refine ⟨?_, ?_⟩
  · intro h
    have hturns := h [.act (.sendPacket ⟨.noop, .empty⟩ none), .recv, .recv] nofun
    cases hturns
  · intro h
    have hturns := h (List.replicate 128 (.act (.sendPacket ⟨.noop, .empty⟩ none)) ++ [.recv])
    rw [Link.run_concat] at hturns
    have hwired : Wired link := start_wired _ _ _ _ _ _ _ _ _ _
    obtain ⟨hw, hs, hloop, hcommands⟩ :=
      run_burst (s := link) hwired ⟨rfl, _, rfl⟩ ⟨.noop, .empty⟩ 128
    generalize link.run (List.replicate 128 (.act (.sendPacket ⟨.noop, .empty⟩ none))) = s
      at hturns hw hs hloop hcommands
    obtain ⟨transport, htransport⟩ := hs.transport
    have hlagged : (s.loop.recv ⟨128, s.socket.trace.commands, 1⟩).running = false := by
      apply Loop.recv_lagged
      rw [hloop, hcommands]
      exact Nat.lt_succ_self 128
    have hrecv : s.turn .recv =
        { s with loop := s.loop.recv ⟨128, s.socket.trace.commands, 1⟩ } := by
      rw [Link.turn, Link.recv, htransport, hw.channel]
    rw [hrecv] at hturns
    have hrunning := hturns (by rw [htransport]; nofun)
    rw [hlagged] at hrunning
    cases hrunning

end SocketIoRust.EngineIoWarp.WebsocketCommands
