import SocketIoRust.EngineIoWarp.AdapterWarp

namespace SocketIoRust.EngineIoWarp.PollRuns

open Library EngineIoParser EngineIoServer

variable {B : Base64.Codec} {o : Overflow} {κ : Type}

abbrev PollContext := { context : RequestContext // context.httpMethod = .get }

inductive Call (κ : Type) where
  | sendPacket : Packet → Option κ → Call κ
  | poll : PollContext → Call κ

def replies : Socket (StandaloneAdapter B o) κ → List (Call κ) →
    List (Outcome ServerError Polling.AdapterResponse)
  | _, [] => []
  | socket, .sendPacket packet callback :: calls =>
    replies (socket.sendPacket packet callback) calls
  | socket, .poll context :: calls =>
    let (socket, _, reply) := socket.handlePollingRequest context.val none
    reply :: replies socket calls

/-- What a client expects of its polls: each gets the packets that were accepted since the
one before. -/
def batches : List Packet → List (Call κ) → List (List Packet)
  | _, [] => []
  | pending, .sendPacket packet _ :: calls => batches (pending ++ [packet]) calls
  | pending, .poll _ :: calls => pending :: batches [] calls

/-- No poll is made while packets are pending. -/
def PollsWhenEmpty : List Packet → List (Call κ) → Prop
  | _, [] => True
  | pending, .sendPacket packet _ :: calls => PollsWhenEmpty (pending ++ [packet]) calls
  | pending, .poll _ :: calls => pending = [] ∧ PollsWhenEmpty [] calls

/-- The answer has the packets, if there are some. -/
def Answers (B : Base64.Codec) (packets : List Packet)
    (reply : Outcome ServerError Polling.AdapterResponse) : Prop :=
  packets ≠ [] → ∃ response, reply = .ok response ∧
    response.body = Utf8.asBytes (StringFormat.encodePayload B packets)

structure Polls (socket : Socket (StandaloneAdapter B o) κ) : Prop where
  ready : socket.state.ready = .open
  transport : ∃ transport, socket.state.transport = some (.polling transport)

variable {socket : Socket (StandaloneAdapter B o) κ}

theorem Polls.flush (h : Polls socket) : socket.flush = (socket, none) := by
  obtain ⟨transport, ht⟩ := h.transport
  apply Socket.flush_of_not_flushes
  intro hf
  have hwritable := hf.2.2
  rw [SocketState.isWritable, ht] at hwritable
  cases hwritable

/-- A packet only waits in the buffer. -/
theorem Polls.sendPacket (h : Polls socket) (packet : Packet) (callback : Option κ) :
    socket.sendPacket packet callback =
      { socket with state := socket.state.pushPacket packet callback } := by
  rw [Socket.sendPacket, if_pos (.inr h.ready)]
  have hpush : Polls { socket with state := socket.state.pushPacket packet callback } :=
    ⟨h.ready, h.transport⟩
  rw [hpush.flush]

/-- A poll is always refused: `flush` does not move the buffer of a transport that is not
writable, and returns nothing if it does. -/
theorem Polls.handlePollingRequest (h : Polls socket) (context : PollContext) :
    socket.handlePollingRequest context.val none = (socket, [], .err .badRequest) := by
  obtain ⟨transport, ht⟩ := h.transport
  have hdrain : Adapter.handleRequest (A := StandaloneAdapter B o) transport context.val none =
      ([], .ok (.action .drain)) := by
    change Polling.WarpPollingTransport.handleRequest B o transport context.val none = _
    rw [Polling.WarpPollingTransport.handleRequest, context.property]
    rfl
  rw [Socket.handlePollingRequest, ht]
  simp only [Transport.asPollingOrFail, hdrain, h.flush]

theorem answers_badRequest {packets : List Packet} :
    Answers B packets (.err .badRequest) ↔ packets = [] := by
  simp [Answers]

/-- Every packet is expected by one poll, or is pending in the end. -/
theorem batches_flatten (pending : List Packet) (calls : List (Call κ)) :
    ∃ left, (batches pending calls).flatten ++ left =
      pending ++ calls.filterMap (fun call ↦ match call with
        | .sendPacket packet _ => some packet
        | .poll _ => none) := by
  induction calls generalizing pending with
  | nil => exact ⟨pending, by simp [batches]⟩
  | cons call calls ih =>
    cases call with
    | sendPacket packet callback =>
      obtain ⟨left, hleft⟩ := ih (pending ++ [packet])
      refine ⟨left, ?_⟩
      rw [batches, hleft]
      simp
    | poll context =>
      obtain ⟨left, hleft⟩ := ih []
      refine ⟨left, ?_⟩
      rw [batches, List.flatten_cons, List.append_assoc, hleft]
      simp

/-- Polls are answered as the client expects exactly if none of them has anything to get. -/
theorem replies_iff (socket : Socket (StandaloneAdapter B o) κ) (h : Polls socket)
    (calls : List (Call κ)) :
    List.Forall₂ (Answers B) (batches socket.state.writeBuffer calls) (replies socket calls) ↔
      PollsWhenEmpty socket.state.writeBuffer calls := by
  suffices hpending : ∀ pending,
      List.Forall₂ (Answers B) (batches pending calls) (replies socket calls) ↔
        PollsWhenEmpty pending calls by
    exact hpending socket.state.writeBuffer
  intro pending
  induction calls generalizing socket pending with
  | nil => simp [batches, replies, PollsWhenEmpty]
  | cons call calls ih =>
    cases call with
    | sendPacket packet callback =>
      rw [batches, replies, PollsWhenEmpty, h.sendPacket]
      have hpush : Polls { socket with state := socket.state.pushPacket packet callback } :=
        ⟨h.ready, h.transport⟩
      exact ih _ hpush _
    | poll context =>
      rw [batches, replies, PollsWhenEmpty, h.handlePollingRequest, List.forall₂_cons,
        answers_badRequest, ih socket h]

theorem opened_polls (B : Base64.Codec) (o : Overflow) (κ : Type) :
    Polls (opened B o κ (.polling false)) where
  ready := rfl
  transport := ⟨_, rfl⟩

/-- A socket whose packets have all been sent. -/
def drained : Socket (StandaloneAdapter Base64.standard .wrapping) Unit :=
  let socket := opened Base64.standard .wrapping Unit (.polling false)
  { socket with state := { socket.state with writeBuffer := [] } }

theorem drained_polls : Polls drained where
  ready := rfl
  transport := ⟨_, rfl⟩

theorem replies_iff_drained :
    let calls : List (Call Unit) :=
      [.poll ⟨.poll, rfl⟩, .sendPacket ⟨.noop, .empty⟩ none, .poll ⟨.poll, rfl⟩]
    Polls drained ∧
      (List.Forall₂ (Answers Base64.standard) (batches drained.state.writeBuffer calls)
        (replies drained calls) ↔ PollsWhenEmpty drained.state.writeBuffer calls) ∧
      (List.Forall₂ (Answers Base64.standard) (batches drained.state.writeBuffer calls.dropLast)
        (replies drained calls.dropLast) ↔
        PollsWhenEmpty drained.state.writeBuffer calls.dropLast) :=
  ⟨drained_polls, replies_iff _ drained_polls _, replies_iff _ drained_polls _⟩

/-- The first poll of a socket, for the packet that opens it. -/
theorem replies_firstPoll :
    ¬ ∀ calls : List (Call Unit),
      List.Forall₂ (Answers Base64.standard)
        (batches (opened Base64.standard .wrapping Unit (.polling false)).state.writeBuffer calls)
        (replies (opened Base64.standard .wrapping Unit (.polling false)) calls) := by
  intro h
  have hpoll := h [.poll ⟨.poll, rfl⟩]
  rw [batches, replies, (opened_polls _ _ _).handlePollingRequest, List.forall₂_cons,
    answers_badRequest] at hpoll
  exact List.cons_ne_nil _ _ hpoll.1

end SocketIoRust.EngineIoWarp.PollRuns
