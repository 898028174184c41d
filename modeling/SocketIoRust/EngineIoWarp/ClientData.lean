import SocketIoRust.EngineIoParser.BinaryFrames
import SocketIoRust.EngineIoWarp.Polling
import SocketIoRust.EngineIoWarp.Websocket

namespace SocketIoRust.EngineIoWarp.ClientData

open Library Library.Nom Library.Framing EngineIoParser
open EngineIoServer (RequestContext)
open Websocket (Message subscribeToWebsocketMessages)
open Polling.WarpPollingTransport (handleDataRequest)
open Library.Outcome (ok err)

/-- The data of the packets that a transport reads of what a client sends: of the frames of
a websocket, and of the body of a request. -/
inductive FromClient (B : Base64.Codec) (o : Overflow) : PacketData → Prop
  | frames {ε : Type} {results : List (Except ε Message)}
      {packet : Packet} :
      .packet packet ∈ subscribeToWebsocketMessages results → FromClient B o packet.data
  | posted {context context' : RequestContext} {body : Option Bytes}
      {packet : Packet} :
      .packet context' packet ∈ (handleDataRequest B o context body).1 →
      FromClient B o packet.data

/-- The digits in front of a text have been taken for the type of the packet. -/
def Undigited (packet : Packet) : Prop :=
  ∀ text, packet.data = .text text → starts Char.isDigit text = false

theorem starts_of_append {p : Char → Bool} {s rest : Str} (h : starts p (s ++ rest) = false) :
    starts p s = false := by
  cases s with
  | nil => rfl
  | cons c s => exact h

theorem string_undigited {B : Base64.Codec} {o : Overflow} {input : Str} {packets : List Packet}
    (h : StringFormat.decodePayload B o input = ok packets) : ∀ p ∈ packets, Undigited p := by
  rw [StringFormat.decodePayload_eq] at h
  obtain ⟨rest, hr, -⟩ := reads_of_decodeAll (StringFormat.parse_consuming B o) h
  rw [(StringFormat.parse_spec B o).yields_eq] at hr
  refine hr.forall ?_
  intro i p j ha text hdata
  cases ha with
  | text hd hv hn hr ht =>
    cases hdata
    exact starts_of_append hr.stop
  | base64 => cases hdata

theorem binary_undigited {o : Overflow} {input : Bytes} {packets : List Packet}
    (h : BinaryFormat.decodePayload o input = ok packets) : ∀ p ∈ packets, Undigited p := by
  rw [BinaryFormat.decodePayload_eq] at h
  obtain ⟨rest, hr, -⟩ := reads_of_decodeAll (BinaryFormat.parse_consuming o) h
  rw [(BinaryFormat.parse_spec o).yields_eq] at hr
  refine hr.forall ?_
  intro i p j ha text hdata
  cases ha <;> cases hdata

theorem decodePacket_undigited {input : Encoded} {packet : Packet}
    (h : decodePacket input = ok packet) : Undigited packet := by
  cases input with
  | text input =>
    rcases StringFormat.decodePacket_cases input with ⟨es, rest, t, -, hr, hd⟩ | hd
    · rw [decodePacket, hd] at h
      cases h
      intro text hdata
      cases hdata
      exact hr.stop
    · rw [decodePacket, hd] at h
      cases h
  | binary input =>
    rcases BinaryFormat.decodePacket_cases input with ⟨t, d, -, hd⟩ | hd
    · rw [decodePacket, hd] at h
      cases h
      intro text hdata
      cases hdata
    · rw [decodePacket, hd] at h
      cases h

theorem frames_undigited {ε : Type} {results : List (Except ε Message)}
    {packet : Packet} (h : .packet packet ∈ subscribeToWebsocketMessages results) :
    Undigited packet := by
  induction results with
  | nil => simp [subscribeToWebsocketMessages] at h
  | cons result results ih =>
    cases result with
    | error e => simp [subscribeToWebsocketMessages] at h
    | ok message =>
      rw [subscribeToWebsocketMessages] at h
      split at h
      · split at h
        · rename_i hdecode
          rcases List.mem_cons.mp h with he | h
          · cases he
            exact decodePacket_undigited hdecode
          · exact ih h
        · exact ih h
        · cases h
      · split at h
        · simp at h
        · exact ih h

theorem posted_undigited {B : Base64.Codec} {o : Overflow} {context context' : RequestContext}
    {body : Option Bytes} {packet : Packet}
    (h : .packet context' packet ∈ (handleDataRequest B o context body).1) : Undigited packet := by
  have hmem : ∃ packets : List Packet, packet ∈ packets ∧ ∀ p ∈ packets, Undigited p := by
    cases body with
    | none => simp [handleDataRequest] at h
    | some body =>
      simp only [handleDataRequest] at h
      split at h
      · rename_i packets hpackets
        obtain ⟨p, hp, he⟩ := List.mem_map.mp h
        cases he
        refine ⟨packets, hp, ?_⟩
        split at hpackets
        · cases hdecode : BinaryFormat.decodePayload o body with
          | ok ps =>
            rw [hdecode] at hpackets
            cases hpackets
            exact binary_undigited hdecode
          | err e => rw [hdecode] at hpackets; cases hpackets
          | panic => rw [hdecode] at hpackets; cases hpackets
        · split at hpackets
          · cases hpackets
          · rename_i text _
            cases hdecode : StringFormat.decodePayload B o text with
            | ok ps =>
              rw [hdecode] at hpackets
              cases hpackets
              exact string_undigited hdecode
            | err e => rw [hdecode] at hpackets; cases hpackets
            | panic => rw [hdecode] at hpackets; cases hpackets
      · cases h
      · cases h
  obtain ⟨packets, hp, hall⟩ := hmem
  exact hall packet hp

theorem FromClient.undigited {B : Base64.Codec} {o : Overflow} {text : Str}
    (h : FromClient B o (.text text)) : starts Char.isDigit text = false := by
  generalize hdata : PacketData.text text = data at h
  cases h with
  | frames h => exact frames_undigited h text hdata.symm
  | posted h => exact posted_undigited h text hdata.symm

end SocketIoRust.EngineIoWarp.ClientData
