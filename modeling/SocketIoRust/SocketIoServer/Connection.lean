import SocketIoRust.SocketIoParser.Reconstruction
import SocketIoRust.Library.Refinement

namespace SocketIoRust.SocketIoServer.Connection

open Library Library.Refinement SocketIoParser
open Library.Outcome (ok err)

/-- The trait `Decoder`, as far as a connection uses it. -/
class Decoder (D : Type) where
  HandleError : Type
  new : MultipartPacketHeader → D
  decodeBinaryData : D → Bytes → Except HandleError Bool × D
  collectPacket : D → Option Packet

instance : Decoder DefaultDecoder where
  HandleError := HandleEngineMessageError
  new := DefaultDecoder.new
  decodeBinaryData := DefaultDecoder.decodeBinaryData
  collectPacket := DefaultDecoder.collectPacket

inductive DecodeError (D : Type) [Decoder D] where
  | invalidDecoderState
  | decodeFailed : Decoder.HandleError D → DecodeError D

inductive DecodeBinarySuccess where
  | done : Packet → DecodeBinarySuccess
  | inProgress

/-- The locked state of a connection; its sockets and namespaces play no part here. -/
structure State (S N D : Type) where
  sockets : S
  namespaces : N
  decoder : Option D

variable {S N D : Type} [Decoder D]

def decodeBinaryData (state : State S N D) (buffer : Bytes) :
    State S N D × Outcome (DecodeError D) DecodeBinarySuccess :=
  match state.decoder with
  | some decoder =>
    -- the decoder is taken out, and only put back while it is incomplete
    let state := { state with decoder := none }
    match Decoder.decodeBinaryData decoder buffer with
    | (.error e, _) => (state, err (.decodeFailed e))
    | (.ok done, decoder) =>
      if done then
        match Decoder.collectPacket decoder with
        | some packet => (state, ok (.done packet))
        | none => (state, .panic)
      else ({ state with decoder := some decoder }, ok .inProgress)
  | none => (state, err .invalidDecoderState)

def setDecoder (state : State S N D) (decoder : D) :
    State S N D × Outcome (DecodeError D) Unit :=
  if state.decoder.isNone then ({ state with decoder := some decoder }, ok ())
  else (state, err .invalidDecoderState)

/-- A header as it reaches a connection. -/
abbrev AnnouncingHeader := { header : MultipartPacketHeader // header.hasAttachments = true }

inductive Call where
  | setDecoder : AnnouncingHeader → Call
  | decodeBinaryData : Bytes → Call

inductive Answer where
  | setDecoder : Outcome (DecodeError DefaultDecoder) Unit → Answer
  | decodeBinaryData : Outcome (DecodeError DefaultDecoder) DecodeBinarySuccess → Answer

def connection : Machine (State S N DefaultDecoder) Call Answer where
  step state
    | .setDecoder header =>
      let (state, result) := setDecoder state (Decoder.new header.val)
      (state, .setDecoder result)
    | .decodeBinaryData buffer =>
      let (state, result) := decodeBinaryData state buffer
      (state, .decodeBinaryData result)

/-- A packet of which attachments are still missing. -/
structure Pending where
  header : MultipartPacketHeader
  received : List Bytes
  incomplete : received.length < header.attachmentsCount.toNat

/-- The packet of a header and all its buffers, the `i`-th of them being attachment `i`. -/
def assemble (header : MultipartPacketHeader) (buffers : List Bytes) : Packet where
  packetType := header.packetType.toPacketType
  id := header.id
  nsp := header.nsp.getD ['/']
  data := (DefaultDecoder.reconstructPacketData header.data (buffers.zipIdx.map Prod.swap)).1

def Pending.start (header : AnnouncingHeader) : Pending where
  header := header.val
  received := []
  incomplete := by
    have h := header.property
    unfold MultipartPacketHeader.hasAttachments at h
    exact UInt32.lt_iff_toNat_lt.mp (of_decide_eq_true h)

/-- Reassembly as it is meant: at most one packet is pending, and the buffer that
completes it delivers it. -/
def reassembly : Machine (Option Pending) Call Answer where
  step
    | none, .setDecoder header => (some (.start header), .setDecoder (ok ()))
    | some pending, .setDecoder _ => (some pending, .setDecoder (err .invalidDecoderState))
    | none, .decodeBinaryData _ => (none, .decodeBinaryData (err .invalidDecoderState))
    | some pending, .decodeBinaryData buffer =>
      let received := pending.received ++ [buffer]
      if h : received.length < pending.header.attachmentsCount.toNat then
        (some ⟨pending.header, received, h⟩, .decodeBinaryData (ok .inProgress))
      else (none, .decodeBinaryData (ok (.done (assemble pending.header received))))

def Pending.decoder (pending : Pending) : DefaultDecoder := ⟨pending.header, pending.received⟩

/-- The state of a connection that holds a pending packet. -/
def holding (state : State S N DefaultDecoder) (pending : Option Pending) :
    State S N DefaultDecoder :=
  { state with decoder := pending.map Pending.decoder }

theorem Pending.not_canCollect (pending : Pending) : pending.decoder.canCollect = false := by
  have h := pending.incomplete
  apply decide_eq_false
  intro hlast
  exact absurd hlast (Nat.ne_of_gt h)

theorem Pending.decodeBinaryData (pending : Pending) (buffer : Bytes) :
    pending.decoder.decodeBinaryData buffer =
      (.ok (decide (pending.header.attachmentsCount.toNat = pending.received.length + 1)),
        ⟨pending.header, pending.received ++ [buffer]⟩) := by
  rw [DefaultDecoder.decodeBinaryData, pending.not_canCollect]
  simp [DefaultDecoder.canCollect, Pending.decoder]

theorem collectPacket_of_complete {header : MultipartPacketHeader} {buffers : List Bytes}
    (h : header.attachmentsCount.toNat = buffers.length) :
    DefaultDecoder.collectPacket ⟨header, buffers⟩ = some (assemble header buffers) := by
  have hcollect : DefaultDecoder.canCollect ⟨header, buffers⟩ = true := decide_eq_true h
  rw [DefaultDecoder.collectPacket_eq, hcollect, if_pos rfl]
  rfl

theorem decodeBinaryData_holding (state : State S N DefaultDecoder) (pending : Pending)
    (buffer : Bytes) :
    decodeBinaryData (holding state (some pending)) buffer =
      if h : (pending.received ++ [buffer]).length < pending.header.attachmentsCount.toNat then
        (holding state (some ⟨pending.header, pending.received ++ [buffer], h⟩), ok .inProgress)
      else (holding state none,
        ok (.done (assemble pending.header (pending.received ++ [buffer])))) := by
  have hdecode : Decoder.decodeBinaryData pending.decoder buffer = _ :=
    pending.decodeBinaryData buffer
  have hincomplete := pending.incomplete
  have hlen : (pending.received ++ [buffer]).length = pending.received.length + 1 := by simp
  simp only [decodeBinaryData, holding, Option.map_some, hdecode]
  by_cases hlast : pending.header.attachmentsCount.toNat = pending.received.length + 1
  · have hcollect : Decoder.collectPacket
        (⟨pending.header, pending.received ++ [buffer]⟩ : DefaultDecoder) = _ :=
      collectPacket_of_complete (hlast.trans hlen.symm)
    rw [dif_neg (by omega), if_pos (by simpa using hlast), hcollect]
    rfl
  · rw [dif_pos (by omega), if_neg (by simpa using hlast)]
    rfl

/-- One call on the connection is one step of the reassembly. -/
theorem connection_step (state : State S N DefaultDecoder) (pending : Option Pending)
    (call : Call) :
    connection.step (holding state pending) call =
      (holding state (reassembly.step pending call).1, (reassembly.step pending call).2) := by
  cases call with
  | setDecoder header => cases pending <;> rfl
  | decodeBinaryData buffer =>
    cases pending with
    | none => rfl
    | some pending =>
      simp only [connection, reassembly, decodeBinaryData_holding]
      split <;> rfl

theorem connection_refines_step (state : State S N DefaultDecoder) :
    Refines connection reassembly (fun s pending ↦ s = holding state pending) where
  step s pending call h := by
    subst h
    rw [connection_step]
    exact ⟨rfl, rfl⟩

theorem reassembly_answer (pending : Option Pending) (call : Call) :
    (reassembly.step pending call).2 ≠ .decodeBinaryData .panic ∧
      ∀ e, (reassembly.step pending call).2 ≠ .decodeBinaryData (err (.decodeFailed e)) := by
  cases call with
  | setDecoder header => cases pending <;> simp [reassembly]
  | decodeBinaryData buffer =>
    cases pending with
    | none => simp [reassembly]
    | some pending =>
      simp only [reassembly]
      split <;> simp

def buffersOf : List Call → List Bytes
  | [] => []
  | .setDecoder _ :: calls => buffersOf calls
  | .decodeBinaryData buffer :: calls => buffer :: buffersOf calls

/-- As long as buffers are missing, all that came are kept in their order, whatever headers
come in between. -/
theorem reassembly_collects (pending : Pending) (calls : List Call)
    (h : (pending.received ++ buffersOf calls).length < pending.header.attachmentsCount.toNat) :
    (reassembly.run (some pending) calls).1 =
      some ⟨pending.header, pending.received ++ buffersOf calls, h⟩ := by
  induction calls generalizing pending with
  | nil =>
    simp only [Machine.run, buffersOf, List.append_nil]
  | cons call calls ih =>
    rw [Machine.run_cons]
    cases call with
    | setDecoder header => exact ih pending h
    | decodeBinaryData buffer =>
      have hbuffers : pending.received ++ buffersOf (.decodeBinaryData buffer :: calls) =
          pending.received ++ [buffer] ++ buffersOf calls := by simp [buffersOf]
      have hnext : (pending.received ++ [buffer]).length <
          pending.header.attachmentsCount.toNat := by
        rw [hbuffers, List.length_append] at h
        omega
      have hstep : (reassembly.step (some pending) (.decodeBinaryData buffer)).1 =
          some ⟨pending.header, pending.received ++ [buffer], hnext⟩ := by
        simp only [reassembly, hnext, dif_pos]
      rw [hstep, ih ⟨pending.header, pending.received ++ [buffer], hnext⟩ (by rwa [hbuffers] at h)]
      simp only [hbuffers]

/-- The buffer that completes the count delivers the packet of the header and of exactly
the buffers that came after it. -/
theorem reassembly_delivers (header : AnnouncingHeader) (calls : List Call) (buffer : Bytes)
    (h : (buffersOf calls).length + 1 = header.val.attachmentsCount.toNat) :
    reassembly.step (reassembly.run none (.setDecoder header :: calls)).1
        (.decodeBinaryData buffer) =
      (none, .decodeBinaryData (ok (.done (assemble header.val (buffersOf calls ++ [buffer]))))) := by
  have hlt : ((Pending.start header).received ++ buffersOf calls).length <
      header.val.attachmentsCount.toNat := by
    rw [Pending.start, List.nil_append]
    omega
  have hrun := reassembly_collects (Pending.start header) calls hlt
  rw [Machine.run_cons]
  have hstart : (reassembly.step none (.setDecoder header)).1 = some (Pending.start header) := rfl
  rw [hstart, hrun]
  have hlast : ¬ (buffersOf calls ++ [buffer]).length < header.val.attachmentsCount.toNat := by
    rw [List.length_append, List.length_singleton]
    omega
  simp only [reassembly, Pending.start, List.nil_append, hlast, dif_neg, not_false_eq_true]

/-- A connection reassembles packets as it is meant to, in every sequence of calls. -/
theorem connection_refines_reassembly (state : State S N DefaultDecoder)
    (h : state.decoder = none) (calls : List Call) :
    (connection.run state calls).2 = (reassembly.run none calls).2 ∧
      (connection.run state calls).1 = holding state (reassembly.run none calls).1 ∧
      ∀ answer ∈ (connection.run state calls).2, answer ≠ .decodeBinaryData .panic ∧
        ∀ e, answer ≠ .decodeBinaryData (err (.decodeFailed e)) := by
  have hstate : state = holding state none := by
    rw [holding, Option.map_none, ← h]
  obtain ⟨hlast, hanswers⟩ := (connection_refines_step state).run hstate calls
  refine ⟨hanswers, hlast, ?_⟩
  rw [hanswers]
  exact reassembly.forall_answers reassembly_answer none calls

/-- A header that announces two attachments, the second of them first. -/
def twoAttachments : AnnouncingHeader :=
  ⟨⟨.binaryEvent, none, some ['/'],
    .array [.string ['e'], DefaultEncoder.makePlaceholder 1,
      DefaultEncoder.makePlaceholder 0], 2⟩, rfl⟩

theorem connection_refines_reassembly_two :
    let state : State Unit Unit DefaultDecoder := ⟨(), (), none⟩
    let calls : List Call := [.setDecoder twoAttachments, .decodeBinaryData [1],
      .setDecoder twoAttachments, .decodeBinaryData [2]]
    (connection.run state calls).2.getLast? = some (.decodeBinaryData (ok (.done
      ⟨.binaryEvent, none, ['/'], .array [.string ['e'], .binary [2], .binary [1]]⟩))) ∧
    (connection.run state calls).2 = (reassembly.run none calls).2 ∧
      (connection.run state calls).1 = holding state (reassembly.run none calls).1 ∧
      ∀ answer ∈ (connection.run state calls).2, answer ≠ .decodeBinaryData .panic ∧
        ∀ e, answer ≠ .decodeBinaryData (err (.decodeFailed e)) := by
  intro state calls
  exact ⟨by rfl, connection_refines_reassembly state rfl calls⟩

end SocketIoRust.SocketIoServer.Connection
