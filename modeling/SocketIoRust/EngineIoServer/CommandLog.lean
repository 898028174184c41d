import SocketIoRust.EngineIoServer.Lifecycle

namespace SocketIoRust.EngineIoServer.CommandLog

open Library EngineIoParser Lifecycle

variable {A κ : Type} [Adapter A] {socket socket' socket'' : Socket A κ}

/-- The commands that were sent stay sent, no empty one is sent after them, and a transport
that was dropped stays dropped. -/
structure Continues (socket socket' : Socket A κ) : Prop where
  senders : socket'.senders = socket.senders
  commands : ∃ cmds, socket'.trace.commands = socket.trace.commands ++ cmds ∧
    ∀ cmd ∈ cmds, cmd.packets ≠ []
  dropped : socket.state.transport = none → socket'.state.transport = none

theorem Continues.refl (socket : Socket A κ) : Continues socket socket :=
  ⟨rfl, ⟨[], (List.append_nil _).symm, by simp⟩, id⟩

theorem Continues.trans (h : Continues socket socket') (h' : Continues socket' socket'') :
    Continues socket socket'' := by
  obtain ⟨cmds, hcmds, hne⟩ := h.commands
  obtain ⟨cmds', hcmds', hne'⟩ := h'.commands
  refine ⟨h'.senders.trans h.senders, ⟨cmds ++ cmds', ?_, ?_⟩, h'.dropped ∘ h.dropped⟩
  · rw [hcmds', hcmds, List.append_assoc]
  · exact List.forall_mem_append.mpr ⟨hne, hne'⟩

/-- A change of anything but the senders, the commands and the transport. -/
theorem Continues.of_eq (hs : socket'.senders = socket.senders)
    (hc : socket'.trace.commands = socket.trace.commands)
    (ht : socket'.state.transport = socket.state.transport ∨ socket'.state.transport = none) :
    Continues socket socket' := by
  refine ⟨hs, ⟨[], by rw [hc, List.append_nil], by simp⟩, ?_⟩
  intro hnone
  rcases ht with ht | ht
  · rw [ht, hnone]
  · exact ht

theorem flush_continues (socket : Socket A κ) : Continues socket socket.flush.1 := by
  by_cases hf : socket.Flushes
  · rw [Socket.flush_of_flushes hf]
    obtain ⟨-, hbuffer, hwritable⟩ := hf
    refine ⟨rfl, ⟨[.send socket.state.writeBuffer], rfl, ?_⟩, ?_⟩
    · exact List.forall_mem_singleton.mpr (List.ne_nil_of_length_pos hbuffer)
    · intro hnone
      rw [SocketState.isWritable, hnone] at hwritable
      cases hwritable
  · rw [Socket.flush_of_not_flushes hf]
    exact .refl socket

theorem sendPacket_continues (socket : Socket A κ) (packet : Packet) (callback : Option κ) :
    Continues socket (socket.sendPacket packet callback) := by
  rw [Socket.sendPacket]
  split
  · have hpush : Continues socket
        { socket with state := socket.state.pushPacket packet callback } :=
      .of_eq rfl rfl (.inl rfl)
    exact hpush.trans (flush_continues _)
  · exact .refl socket

theorem close_continues (socket : Socket A κ) (discard : Bool) :
    Continues socket (socket.close discard) := by
  rw [Socket.close]
  split
  · dsimp only
    split
    · exact .of_eq rfl rfl (.inr rfl)
    · exact .of_eq rfl rfl (.inl rfl)
  · exact .refl socket

theorem onClose_continues (socket : Socket A κ) (reason : SocketCloseReason) :
    Continues socket (socket.onClose reason) := by
  rw [Socket.onClose]
  split
  · exact .of_eq rfl rfl (.inr rfl)
  · exact .refl socket

theorem onTransportError_continues (socket : Socket A κ) (error : TransportError) :
    Continues socket (socket.onTransportError error) := by
  cases error with
  | packetParseError =>
    simp only [Socket.onTransportError]
    split
    · exact onClose_continues socket _
    · exact .refl socket
  | otherError =>
    simp only [Socket.onTransportError]
    split
    · exact onClose_continues socket _
    · exact .refl socket

theorem onPacket_continues (socket : Socket A κ) (context : RequestContext) (packet : Packet) :
    Continues socket (socket.onPacket context packet) := by
  rw [Socket.onPacket]
  dsimp only
  split
  swap
  · exact .refl socket
  split
  · exact (sendPacket_continues socket _ _).trans (.of_eq rfl rfl (.inl rfl))
  · split
    · have hclosed : Continues socket
          (socket.closeTransport.emit (.upgrade socket.id context)) := .of_eq rfl rfl (.inr rfl)
      exact hclosed.trans (flush_continues _)
    · exact .refl socket
  · exact .of_eq rfl rfl (.inl rfl)
  · exact .refl socket

theorem onDrain_continues (socket : Socket A κ) : Continues socket socket.onDrain := by
  have hrests := onDrain_rests socket
  exact .of_eq rfl rfl (.inl hrests.transport)

theorem perform_continues (socket : Socket A κ) (action : Action κ) :
    Continues socket (action.perform socket) := by
  cases action with
  | sendPacket packet callback => exact sendPacket_continues socket packet callback
  | close discard => exact close_continues socket discard
  | transportEvent event =>
    cases event with
    | error error => exact onTransportError_continues socket error
    | packet context packet => exact onPacket_continues socket context packet
    | drain => exact (flush_continues socket).trans (onDrain_continues _)
    | close => exact onClose_continues socket _

/-- The commands that an action sends. -/
def newCommands (socket : Socket A κ) (action : Action κ) : List TransportCmd :=
  (action.perform socket).trace.commands.drop socket.trace.commands.length

theorem commands_perform (socket : Socket A κ) (action : Action κ) :
    (action.perform socket).trace.commands =
      socket.trace.commands ++ newCommands socket action := by
  obtain ⟨cmds, hcmds, -⟩ := (perform_continues socket action).commands
  rw [newCommands, hcmds, List.drop_left]

end SocketIoRust.EngineIoServer.CommandLog
