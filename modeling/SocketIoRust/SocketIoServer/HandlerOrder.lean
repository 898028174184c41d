import SocketIoRust.SocketIoServer.Arrivals
import SocketIoRust.SocketIoServer.Moves
import SocketIoRust.Library.JsonText

namespace SocketIoRust.SocketIoServer.HandlerOrder

open Library Library.Refinement SocketIoParser
open Connection (AnnouncingHeader Pending reassembly)
open Library.Outcome (ok err)

def arrivalOf (decodeProtoPacket : Str → Outcome HandleEngineMessageError ProtoPacket)
    (message : Message) : Arrival :=
  match message.data with
  | .text text =>
    match decodeProtoPacket text with
    | ok (.multipart header) =>
      if h : header.hasAttachments = true then .header ⟨header, h⟩ else .other
    | ok (.plain packet) => .plain packet
    | _ => .other
  | .binary buffer => .attachment buffer
  | .empty => .other

section Messages

variable (decodeProtoPacket : Str → Outcome HandleEngineMessageError ProtoPacket)

/-- The connection `e` holds the pending packet. -/
def Holds (e : Str) (shared : Shared DefaultDecoder) (pending : Option Pending) : Prop :=
  shared.decoderOf e = some (pending.map Pending.decoder)

theorem Holds.exists_connection {e : Str} {shared : Shared DefaultDecoder}
    {pending : Option Pending} (h : Holds e shared pending) :
    ∃ connection, IndexMap.get e shared.connections = some connection ∧
      connection.state = Connection.holding connection.state pending := by
  obtain ⟨connection, hget, hd⟩ := Shared.decoderOf_eq_some.mp h
  refine ⟨connection, hget, ?_⟩
  rw [Connection.holding, ← hd]

variable {decodeProtoPacket} {e : Str} {shared : Shared DefaultDecoder} {pending : Option Pending}

theorem setDecoder_holding (state : ConnectionState DefaultDecoder) (header : AnnouncingHeader) :
    Connection.setDecoder (Connection.holding state pending)
        (Connection.Decoder.new header.val) =
      (Connection.holding state (reassembly.step pending (.setDecoder header)).1,
        if pending.isNone then ok () else err .invalidDecoderState) := by
  cases pending <;> rfl

/-- A handler does what the reassembly does with what the message is to it. -/
theorem handleNewMessage_simulates {message : Message} (hm : message.connectionId = e)
    (h : Holds e shared pending) :
    Holds e (shared.handleNewMessage decodeProtoPacket message).1
        (arrivals.step pending (arrivalOf decodeProtoPacket message)).1 ∧
      (shared.handleNewMessage decodeProtoPacket message).2 =
        (arrivals.step pending (arrivalOf decodeProtoPacket message)).2 := by
  subst hm
  obtain ⟨connection, hget, hstate⟩ := h.exists_connection
  have hset (state : ConnectionState DefaultDecoder) (pending' : Option Pending) :
      Holds message.connectionId (shared.setState connection message.connectionId
        (Connection.holding state pending')) pending' := by
    rw [Holds, Shared.decoderOf_setState, if_pos rfl]
    rfl
  simp only [Shared.handleNewMessage, arrivalOf]
  cases message.data with
  | empty => exact ⟨h, rfl⟩
  | text text =>
    dsimp only
    cases decodeProtoPacket text with
    | err e => exact ⟨(Shared.KeepsDecoders.of_connections rfl).some h, rfl⟩
    | panic => exact ⟨h, rfl⟩
    | ok packet =>
      cases packet with
      | plain packet =>
        exact ⟨(Shared.handlePacketFromClient_keepsDecoders shared message packet).some h, rfl⟩
      | multipart header =>
        dsimp only
        by_cases hh : header.hasAttachments = true
        swap
        · rw [if_neg hh, dif_neg hh]
          exact ⟨h, rfl⟩
        have hdecoder : Connection.setDecoder (Connection.holding connection.state pending)
            (Connection.Decoder.new header) = _ :=
          setDecoder_holding connection.state ⟨header, hh⟩
        rw [← hstate] at hdecoder
        rw [if_pos hh, dif_pos hh, hget]
        dsimp only
        rw [hdecoder]
        cases pending with
        | none => exact ⟨hset _ _, rfl⟩
        | some p => exact ⟨(Shared.KeepsDecoders.of_connections rfl).some h, rfl⟩
  | binary buffer =>
    dsimp only
    rw [hget]
    dsimp only
    rw [hstate]
    cases pending with
    | none => exact ⟨hset _ none, rfl⟩
    | some p =>
      rw [Connection.decodeBinaryData_holding]
      by_cases hnext : (p.received ++ [buffer]).length < p.header.attachmentsCount.toNat
      · simp only [arrivals, reassembly, hnext, dif_pos]
        exact ⟨hset _ (some _), trivial⟩
      · simp only [arrivals, reassembly, hnext, dif_neg, not_false_eq_true]
        have hkeeps := Shared.handlePacketFromClient_keepsDecoders (shared.setState connection
          message.connectionId (Connection.holding connection.state none)) message
        exact ⟨(hkeeps _).some (hset _ none), trivial⟩

/-- The packet is a connect request that the server admits. -/
def connects {D : Type} (shared : Shared D) (packet : Packet) : Bool :=
  decide (packet.packetType = .connect ∧ shared.Admits packet.nsp packet.data)

/-- What the server knows of the connection `e`: nothing, or the packet that is pending. -/
def HasRecord (e : Str) (shared : Shared DefaultDecoder) (record : Option (Option Pending)) :
    Prop :=
  shared.decoderOf e = record.map (Option.map Pending.decoder)

/-- An admitted connect request makes a record, and nothing else does. -/
theorem handlePacketFromClient_record (message : Message)
    (h : HasRecord message.connectionId shared none) (packet : Packet) :
    (connects shared packet = true → HasRecord message.connectionId
        (shared.handlePacketFromClient message packet).1 (some none)) ∧
      (connects shared packet = false →
        (shared.handlePacketFromClient message packet).1 = shared) := by
  constructor
  · intro hconnects
    obtain ⟨htype, hadmits⟩ := of_decide_eq_true hconnects
    have hkeeps := Shared.handlePacketFromClient_keepsDecoders shared message packet
    obtain ⟨shared', ns, -, -, hadds⟩ := Shared.handleClientConnect_adds hadmits message.context
      message.connectionId message.environment
    obtain ⟨connection, socketId, hinsert, -⟩ := shared'.addConnection_inserts ns
      message.connectionId (Handshake.new message.context packet.data message.environment)
      message.environment.generatedId
    have hthere := Shared.decoderOf_insert shared' hinsert message.connectionId
    rw [if_pos rfl, ← hadds, ← Shared.handlePacketFromClient_of_connect shared message htype]
      at hthere
    rcases hkeeps message.connectionId with hsame | ⟨-, hnew⟩
    · rw [hthere, h] at hsame
      cases hsame
    · exact hnew
  · intro hconnects
    by_cases htype : packet.packetType = .connect
    · have hrefused : ¬ shared.Admits packet.nsp packet.data :=
        fun hadmits ↦ of_decide_eq_false hconnects ⟨htype, hadmits⟩
      rw [Shared.handlePacketFromClient_of_connect shared message htype,
        Shared.handleClientConnect_of_not_admits hrefused]
    · exact Shared.handlePacketFromClient_of_ne shared message htype

/-- A server that has no record of a connection makes one when its handlers say so, and is else
as ready to admit requests as before. -/
theorem handleNewMessage_unknown {message : Message}
    (h : HasRecord message.connectionId shared none) :
    let next := (recordArrivals (connects shared)).step none (arrivalOf decodeProtoPacket message)
    HasRecord message.connectionId (shared.handleNewMessage decodeProtoPacket message).1 next.1 ∧
      (next.1 = none → connects (shared.handleNewMessage decodeProtoPacket message).1 =
        connects shared) ∧
      (shared.handleNewMessage decodeProtoPacket message).2 = next.2 := by
  have hget : IndexMap.get message.connectionId shared.connections = none :=
    Option.map_eq_none_iff.mp h
  simp only [Shared.handleNewMessage, arrivalOf]
  cases message.data with
  | empty => exact ⟨h, fun _ ↦ rfl, rfl⟩
  | binary buffer =>
    dsimp only
    rw [hget]
    exact ⟨h, fun _ ↦ rfl, rfl⟩
  | text text =>
    dsimp only
    cases decodeProtoPacket text with
    | err e => exact ⟨h, fun _ ↦ rfl, rfl⟩
    | panic => exact ⟨h, fun _ ↦ rfl, rfl⟩
    | ok packet =>
      cases packet with
      | multipart header =>
        dsimp only
        by_cases hh : header.hasAttachments = true
        · rw [if_pos hh, dif_pos hh, hget]
          exact ⟨h, fun _ ↦ rfl, rfl⟩
        · rw [if_neg hh, dif_neg hh]
          exact ⟨h, fun _ ↦ rfl, rfl⟩
      | plain packet =>
        obtain ⟨hmade, hsame⟩ := handlePacketFromClient_record message h packet
        simp only [recordArrivals]
        cases hconnects : connects shared packet with
        | true =>
          exact ⟨hmade hconnects, fun hnone ↦ absurd hnone (Option.some_ne_none none), trivial⟩
        | false =>
          rw [hsame hconnects]
          exact ⟨h, fun _ ↦ rfl, trivial⟩

theorem deliveries_eq {record : Option (Option Pending)} (h : HasRecord e shared record)
    {arrived : List Message} (hone : ∀ message ∈ arrived, message.connectionId = e) :
    shared.deliveries decodeProtoPacket arrived =
      receivedFrom (connects shared) record (arrived.map (arrivalOf decodeProtoPacket)) := by
  have hrun := Machine.run_simulation (C := Shared.messages decodeProtoPacket)
    (A := (recordArrivals (connects shared)).comap (arrivalOf decodeProtoPacket))
    (R := fun shared' record ↦ HasRecord e shared' record ∧
      (record = none → connects shared' = connects shared))
    (I := fun message ↦ message.connectionId = e) ?_ ⟨h, fun _ ↦ rfl⟩ hone
  · rw [Shared.deliveries, hrun.2, Machine.comap_run, receivedFrom]
  · rintro shared' record message rfl ⟨hrecord, hsame⟩
    cases record with
    | some pending =>
      obtain ⟨hnext, hanswer⟩ := handleNewMessage_simulates rfl hrecord
      exact ⟨⟨hnext, fun hnone ↦ absurd hnone (Option.some_ne_none _)⟩, hanswer⟩
    | none =>
      obtain ⟨hnext, hkept, hanswer⟩ := handleNewMessage_unknown hrecord
      rw [hsame rfl] at hnext hkept hanswer
      exact ⟨⟨hnext, hkept⟩, hanswer⟩

/-- The orders of the images are the images of the orders. -/
theorem exists_perm_map {α β : Type} (f : α → β) {l : List α} {bs : List β}
    (h : bs.Perm (l.map f)) : ∃ l' : List α, l'.Perm l ∧ l'.map f = bs := by
  have hf : List.Forall₂ (fun b a ↦ b = f a) (l.map f) l :=
    List.forall₂_map_left_iff.mpr (List.forall₂_same.mpr (fun _ _ ↦ rfl))
  obtain ⟨l', hmap, hperm⟩ := List.perm_comp_forall₂ h hf
  refine ⟨l', hperm, ?_⟩
  have heq : List.Forall₂ Eq bs (l'.map f) := List.forall₂_map_right_iff.mpr hmap
  rw [List.forall₂_eq_eq_eq] at heq
  exact heq.symm

theorem deliveries_same_iff_received {α : Type} (f : List Delivery → α)
    {record : Option (Option Pending)} (h : HasRecord e shared record)
    {arrived : List Message} (hone : ∀ message ∈ arrived, message.connectionId = e) :
    (∀ arrived', arrived'.Perm arrived → f (shared.deliveries decodeProtoPacket arrived') =
      f (shared.deliveries decodeProtoPacket arrived)) ↔
    ∀ as, as.Perm (arrived.map (arrivalOf decodeProtoPacket)) →
      f (receivedFrom (connects shared) record as) = f (receivedFrom (connects shared) record
        (arrived.map (arrivalOf decodeProtoPacket))) := by
  rw [deliveries_eq h hone]
  constructor
  · intro hsame as hperm
    obtain ⟨arrived', harrived, rfl⟩ := exists_perm_map _ hperm
    have h' := hsame arrived' harrived
    rwa [deliveries_eq h (fun message hm ↦ hone message (harrived.mem_iff.mp hm))] at h'
  · intro hsame arrived' hperm
    rw [deliveries_eq h (fun message hm ↦ hone message (hperm.mem_iff.mp hm))]
    exact hsame _ (hperm.map _)

/-- When the order in which the handlers run makes no difference: to the packets that are
handled, and to those of them that are reassembled. -/
theorem deliveries_same_iff (decodeProtoPacket : Str → Outcome HandleEngineMessageError ProtoPacket)
    (shared : Shared DefaultDecoder) (e : Str) (record : Option (Option Pending))
    (h : shared.decoderOf e = record.map (Option.map Pending.decoder))
    (arrived : List Message) (hone : ∀ message ∈ arrived, message.connectionId = e) :
    let as := arrived.map (arrivalOf decodeProtoPacket)
    ((∀ arrived', arrived'.Perm arrived →
        (shared.deliveries decodeProtoPacket arrived').map Delivery.packet =
          (shared.deliveries decodeProtoPacket arrived).map Delivery.packet) ↔
      NothingNew (connects shared) record as ∧
        ∀ p q, Deliverable record.join as p → Deliverable record.join as q → p = q) ∧
    ((∀ arrived', arrived'.Perm arrived →
        reassembled (shared.deliveries decodeProtoPacket arrived') =
          reassembled (shared.deliveries decodeProtoPacket arrived)) ↔
      NothingNew (connects shared) record as ∧
        ∀ as', as'.Perm as → completed record.join as' = completed record.join as) := by
  intro as
  have hrecord : HasRecord e shared record := h
  constructor
  · rw [deliveries_same_iff_received (List.map Delivery.packet) hrecord hone]
    exact packets_same_iff _ _ _
  · rw [deliveries_same_iff_received reassembled hrecord hone]
    exact reassembled_same_iff _ _ _

end Messages

/-- A server with one connection, `e`. -/
def serverWith (pending : Option Pending) : Shared DefaultDecoder :=
  { (Shared.new : Shared DefaultDecoder) with
    connections := [(['e'], ⟨['e'], [], [], pending.map Pending.decoder⟩)] }

/-- A server whose connection waits for nothing. -/
def connected : Shared DefaultDecoder := serverWith none

/-- A message of the connection `e`. -/
def messageOf (data : EngineIoParser.PacketData) : Message := ⟨.poll, ['e'], data, ⟨[], 0⟩⟩

def readText : Str → Outcome HandleEngineMessageError ProtoPacket :=
  DefaultDecoder.decodeProtoPacket Json.standard .checked

def textThenBinary : List Message := [messageOf (.text "2[\"a\"]".toList), messageOf (.binary [1])]

/-- A packet of which the second of two attachments is missing. -/
def oneMissing : Pending where
  header := ⟨.binaryEvent, none, none, .array [.string ['a']], 2⟩
  received := [[0]]
  incomplete := by decide

theorem deliveries_same_iff_textThenBinary :
    let as := textThenBinary.map (arrivalOf readText)
    let shared := serverWith (some oneMissing)
    ((∀ arrived', arrived'.Perm textThenBinary →
        (shared.deliveries readText arrived').map Delivery.packet =
          (shared.deliveries readText textThenBinary).map Delivery.packet) ↔
      NothingNew (connects shared) (some (some oneMissing)) as ∧
        ∀ p q, Deliverable (some oneMissing) as p → Deliverable (some oneMissing) as q → p = q) ∧
    ((∀ arrived', arrived'.Perm textThenBinary →
        reassembled (shared.deliveries readText arrived') =
          reassembled (shared.deliveries readText textThenBinary)) ↔
      NothingNew (connects shared) (some (some oneMissing)) as ∧
        ∀ as', as'.Perm as →
          completed (some oneMissing) as' = completed (some oneMissing) as) :=
  deliveries_same_iff readText (serverWith (some oneMissing)) ['e'] (some (some oneMissing)) rfl
    textThenBinary (by simp [textThenBinary, messageOf])

/-- Two events swap when their handlers do; an attachment that is handled before its header
is lost. -/
theorem deliveries_swapped :
    ¬ (∀ arrived arrived' : List Message, (∀ message ∈ arrived, message.connectionId = ['e']) →
      arrived'.Perm arrived →
        (connected.deliveries readText arrived').map Delivery.packet =
          (connected.deliveries readText arrived).map Delivery.packet) ∧
    ¬ ∀ decodeProtoPacket (arrived arrived' : List Message),
      (∀ message ∈ arrived, message.connectionId = ['e']) → arrived'.Perm arrived →
        reassembled (connected.deliveries decodeProtoPacket arrived') =
          reassembled (connected.deliveries decodeProtoPacket arrived) := by
  constructor
  · intro h
    have hone (s t : Str) :
        ∀ message ∈ [messageOf (.text s), messageOf (.text t)], message.connectionId = ['e'] := by
      simp [messageOf]
    have ha : arrivalOf readText (messageOf (.text "2[\"a\"]".toList)) =
        .plain ⟨.event, none, ['/'], .array [.string ['a']]⟩ := by rfl
    have hb : arrivalOf readText (messageOf (.text "2[\"b\"]".toList)) =
        .plain ⟨.event, none, ['/'], .array [.string ['b']]⟩ := by rfl
    have hswap := h [messageOf (.text "2[\"a\"]".toList), messageOf (.text "2[\"b\"]".toList)]
      [messageOf (.text "2[\"b\"]".toList), messageOf (.text "2[\"a\"]".toList)]
      (hone _ _) (.swap _ _ _)
    have hrecord : HasRecord ['e'] connected (some none) := rfl
    rw [deliveries_eq hrecord (hone _ _), deliveries_eq hrecord (hone _ _), receivedFrom_some,
      receivedFrom_some] at hswap
    simp only [List.map_cons, List.map_nil, ha, hb] at hswap
    have hheads := congrArg List.head? hswap
    simp [received_cons, arrivals, Delivery.packet] at hheads
  · intro h
    let header : MultipartPacketHeader := ⟨.binaryEvent, none, none, .array [.string ['a']], 1⟩
    have hswap := h (fun _ ↦ ok (.multipart header))
      [messageOf (.text []), messageOf (.binary [1])]
      [messageOf (.binary [1]), messageOf (.text [])] (by simp [messageOf]) (.swap _ _ _)
    have hlen := congrArg List.length hswap
    exact absurd hlen (by decide)

end SocketIoRust.SocketIoServer.HandlerOrder
