import SocketIoRust.SocketIoServer.Messages
import Mathlib.Data.List.Perm.Basic

namespace SocketIoRust.SocketIoServer.HandlerOrder

open Library Library.Refinement SocketIoParser
open Connection (AnnouncingHeader Pending reassembly assemble)
open Library.Outcome (ok err)

/-- What a message is to the reassembly of its connection. -/
inductive Arrival where
  | header : AnnouncingHeader → Arrival
  | attachment : Bytes → Arrival
  | plain : Packet → Arrival
  | other

/-- One connection's reassembly, with the plain packets that pass by it. -/
def arrivals : Machine (Option Pending) Arrival (Option Delivery) where
  step pending
    | .header header => ((reassembly.step pending (.setDecoder header)).1, none)
    | .attachment buffer =>
      match reassembly.step pending (.decodeBinaryData buffer) with
      | (pending, .decodeBinaryData (ok (.done packet))) => (pending, some (.reassembled packet))
      | (pending, _) => (pending, none)
    | .plain packet => (pending, some (.decoded packet))
    | .other => (pending, none)

def received (pending : Option Pending) (as : List Arrival) : List Delivery :=
  (arrivals.run pending as).2.reduceOption

theorem received_cons (pending : Option Pending) (a : Arrival) (as : List Arrival) :
    received pending (a :: as) =
      (arrivals.step pending a).2.toList ++ received (arrivals.step pending a).1 as := by
  rw [received, Machine.run_cons]
  cases (arrivals.step pending a).2 <;> rfl

theorem received_append (pending : Option Pending) (as bs : List Arrival) :
    received pending (as ++ bs) =
      received pending as ++ received (arrivals.run pending as).1 bs := by
  rw [received, Machine.run_append, List.reduceOption_append]
  rfl

def plainOf : Arrival → Option Packet
  | .plain packet => some packet
  | _ => none

def bufferOf : Arrival → Option Bytes
  | .attachment buffer => some buffer
  | _ => none

def isAttachment (a : Arrival) : Bool := (bufferOf a).isSome

def Delivery.decodedPacket : Delivery → Option Packet
  | .decoded packet => some packet
  | .reassembled _ => none

def Delivery.reassembledPacket : Delivery → Option Packet
  | .decoded _ => none
  | .reassembled packet => some packet

def plains (as : List Arrival) : List Packet := as.filterMap plainOf

def buffers (as : List Arrival) : List Bytes := as.filterMap bufferOf

def reassembled (ds : List Delivery) : List Packet := ds.filterMap Delivery.reassembledPacket

@[simp] theorem reassembled_append (ds ds' : List Delivery) :
    reassembled (ds ++ ds') = reassembled ds ++ reassembled ds' := List.filterMap_append

/-- How many attachments the pending packet still waits for. -/
def missing : Option Pending → ℕ
  | some p => p.header.attachmentsCount.toNat - p.received.length
  | none => 0

theorem missing_pos (p : Pending) : 0 < missing (some p) := Nat.sub_pos_of_lt p.incomplete

/-- Every header announces more attachments than are left for it. -/
def NoneComplete (pending : Option Pending) (as : List Arrival) : Prop :=
  ∀ header, .header header ∈ as →
    (buffers as).length - missing pending < header.val.attachmentsCount.toNat

/-- The packet that is pending, once the attachments that it waits for are there. -/
def completed (pending : Option Pending) (as : List Arrival) : List Packet :=
  match pending with
  | some p =>
    if missing pending ≤ (buffers as).length then
      [assemble p.header (p.received ++ (buffers as).take (missing pending))]
    else []
  | none => []

theorem announced_pos (header : AnnouncingHeader) : 0 < header.val.attachmentsCount.toNat :=
  missing_pos (.start header)

theorem completed_of_lt {pending : Option Pending} {as : List Arrival}
    (h : (buffers as).length < missing pending) : completed pending as = [] := by
  cases pending with
  | none => rfl
  | some p => exact if_neg (Nat.not_le.mpr h)

/-- While the attachments do not suffice, they are collected; the last one completes the
packet. -/
theorem step_attachment (p : Pending) (buffer : Bytes) :
    (∃ p' : Pending, p'.header = p.header ∧ p'.received = p.received ++ [buffer] ∧
        missing (some p) = missing (some p') + 1 ∧
        arrivals.step (some p) (.attachment buffer) = (some p', none)) ∨
      (missing (some p) = 1 ∧ arrivals.step (some p) (.attachment buffer) =
        (none, some (.reassembled (assemble p.header (p.received ++ [buffer]))))) := by
  have hinc := p.incomplete
  have hlen : (p.received ++ [buffer]).length = p.received.length + 1 := List.length_append
  by_cases hnext : (p.received ++ [buffer]).length < p.header.attachmentsCount.toNat
  · refine .inl ⟨⟨p.header, p.received ++ [buffer], hnext⟩, rfl, rfl, ?_, ?_⟩
    · rw [missing, missing]
      dsimp only
      omega
    · simp only [arrivals, reassembly, hnext, dif_pos]
  · refine .inr ⟨?_, ?_⟩
    · rw [missing]
      omega
    · simp only [arrivals, reassembly, hnext, dif_neg, not_false_eq_true]

theorem completed_of_mem {pending : Option Pending} {as : List Arrival} {packet : Packet}
    (h : packet ∈ completed pending as) : completed pending as = [packet] := by
  cases pending with
  | none => cases h
  | some p =>
    rw [completed] at h ⊢
    split at h
    · rename_i hle
      rw [if_pos hle, List.mem_singleton.mp h]
    · cases h

theorem completed_of_nil {pending : Option Pending} {as : List Arrival} (h : buffers as = []) :
    completed pending as = [] := by
  cases pending with
  | none => rfl
  | some p => exact completed_of_lt (by rw [h]; exact missing_pos p)

theorem length_completed {pending : Option Pending} {as as' : List Arrival}
    (h : missing pending ≤ (buffers as').length ↔ missing pending ≤ (buffers as).length) :
    (completed pending as').length = (completed pending as).length := by
  cases pending with
  | none => rfl
  | some p =>
    simp only [completed, h]
    split <;> rfl

/-- Where no header can be followed by all its attachments, nothing is reassembled but the
packet that is pending. -/
theorem reassembled_of_noneComplete {pending : Option Pending} {as : List Arrival}
    (h : NoneComplete pending as) : reassembled (received pending as) = completed pending as := by
  induction as generalizing pending with
  | nil => exact (completed_of_nil rfl).symm
  | cons a as ih =>
    have hlater (header : AnnouncingHeader) (hmem : .header header ∈ as) := h header (.tail _ hmem)
    rw [received_cons, reassembled_append]
    cases a with
    | plain packet => exact ih hlater
    | other => exact ih hlater
    | header header =>
      cases pending with
      | some p => exact ih hlater
      | none =>
        have hlt : (buffers as).length < missing (some (Pending.start header)) :=
          h header (.head _)
        have hnone : NoneComplete (some (Pending.start header)) as := by
          intro other _
          rw [Nat.sub_eq_zero_of_le hlt.le]
          exact announced_pos other
        exact (ih hnone).trans (completed_of_lt hlt)
    | attachment buffer =>
      have hcons : buffers (.attachment buffer :: as) = buffer :: buffers as := rfl
      simp only [hcons, List.length_cons] at hlater
      cases pending with
      | none =>
        have hnone : NoneComplete none as := fun header hmem ↦
          (Nat.le_succ _).trans_lt (hlater header hmem)
        exact ih hnone
      | some p =>
        rcases step_attachment p buffer with
          ⟨p', hheader, hreceived, hmissing, hstep⟩ | ⟨hone, hstep⟩
        · have hnext : NoneComplete (some p') as := fun header hmem ↦ by
            have hlt := hlater header hmem
            rwa [hmissing, Nat.add_sub_add_right] at hlt
          rw [hstep, ih hnext, completed, completed, hcons, hmissing, hheader, hreceived,
            List.length_cons, List.take_succ_cons, List.append_assoc]
          simp only [Nat.add_le_add_iff_right]
          rfl
        · have hnext : NoneComplete none as := fun header hmem ↦ by
            have hlt := hlater header hmem
            rwa [hone, Nat.add_sub_cancel] at hlt
          rw [hstep, ih hnext, completed, hcons, hone, List.length_cons,
            if_pos (Nat.le_add_left 1 _)]
          rfl

theorem NoneComplete.perm {pending : Option Pending} {as as' : List Arrival}
    (h : NoneComplete pending as) (hperm : as'.Perm as) : NoneComplete pending as' := by
  intro header hmem
  rw [buffers, (hperm.filterMap bufferOf).length_eq]
  exact h header (hperm.mem_iff.mp hmem)

theorem length_completed_perm (pending : Option Pending) {as as' : List Arrival}
    (h : as'.Perm as) : (completed pending as').length = (completed pending as).length := by
  refine length_completed ?_
  rw [buffers, (h.filterMap bufferOf).length_eq]
  rfl

theorem buffers_filter (as : List Arrival) : buffers (as.filter isAttachment) = buffers as := by
  rw [buffers, List.filterMap_filter, buffers]
  congr 1
  funext a
  cases a <;> rfl

theorem buffers_filter_not (as : List Arrival) :
    buffers (as.filter fun a ↦ !isAttachment a) = [] := by
  rw [buffers, List.filterMap_eq_nil_iff]
  intro a ha
  simpa [isAttachment] using (List.mem_filter.mp ha).2

theorem buffers_middle {a : Arrival} (h : bufferOf a = none) (before after : List Arrival) :
    buffers (before ++ a :: after) = buffers (before ++ after) := by
  rw [buffers, List.filterMap_append, List.filterMap_cons_none h, ← List.filterMap_append, buffers]

theorem isAttachment_of_mem (as : List Arrival) :
    ∀ a ∈ as.filter isAttachment, isAttachment a = true :=
  fun _ ha ↦ (List.mem_filter.mp ha).2

/-- The same arrivals in another order, with the attachments first. -/
def attachmentsFirst (as : List Arrival) : List Arrival :=
  as.filter isAttachment ++ as.filter fun a ↦ !isAttachment a

theorem attachmentsFirst_perm (as : List Arrival) : (attachmentsFirst as).Perm as :=
  List.filter_append_perm isAttachment as

theorem noneComplete_of_nil {pending : Option Pending} {as : List Arrival} (h : buffers as = []) :
    NoneComplete pending as := by
  intro header _
  rw [h, List.length_nil, Nat.zero_sub]
  exact announced_pos header

theorem completed_congr {pending : Option Pending} {as as' : List Arrival}
    (h : buffers as' = buffers as) : completed pending as' = completed pending as := by
  cases pending with
  | none => rfl
  | some p => rw [completed, completed, h]

section Attachments

variable {pending : Option Pending} {as : List Arrival}

theorem length_buffers (hall : ∀ a ∈ as, isAttachment a = true) :
    (buffers as).length = as.length := by
  rw [buffers, List.length_filterMap_eq_countP, List.countP_eq_length]
  exact hall

theorem reassembled_of_attachments (hall : ∀ a ∈ as, isAttachment a = true) :
    reassembled (received pending as) = completed pending as :=
  reassembled_of_noneComplete fun _ hmem ↦ nomatch hall _ hmem

theorem run_complete (hall : ∀ a ∈ as, isAttachment a = true) (h : as.length = missing pending) :
    (arrivals.run pending as).1 = none := by
  induction as generalizing pending with
  | nil =>
    cases pending with
    | none => rfl
    | some p => exact absurd h (missing_pos p).ne
  | cons a as ih =>
    obtain ⟨ha, has⟩ := List.forall_mem_cons.mp hall
    cases pending with
    | none => cases h
    | some p =>
      cases a with
      | attachment buffer =>
        rw [Machine.run_cons]
        rcases step_attachment p buffer with ⟨p', -, -, hmissing, hstep⟩ | ⟨hone, hstep⟩
        · rw [hstep]
          exact ih has (Nat.succ.inj (h.trans hmissing))
        · rw [hstep]
          exact ih has (Nat.succ.inj (h.trans hone))
      | header | plain | other => cases ha

/-- A header whose attachments are next is completed. -/
theorem reassembled_header {header : AnnouncingHeader} (hall : ∀ a ∈ as, isAttachment a = true)
    (h : header.val.attachmentsCount.toNat ≤ as.length) (later : List Arrival) :
    0 < (reassembled (received none (.header header :: (as ++ later)))).length := by
  have hstep : arrivals.step none (.header header) = (some (Pending.start header), none) := rfl
  have hmissing : missing (some (Pending.start header)) ≤ (buffers as).length := by
    rw [length_buffers hall]
    exact h
  have hfirst : reassembled (received (some (Pending.start header)) as) = _ :=
    (reassembled_of_attachments hall).trans (if_pos hmissing)
  rw [received_cons, hstep, reassembled_append, received_append, reassembled_append, hfirst]
  exact Nat.succ_pos _

end Attachments

/-- With the attachments first, nothing is reassembled but the packet that is pending. -/
theorem reassembled_attachmentsFirst (pending : Option Pending) (as : List Arrival) :
    reassembled (received pending (attachmentsFirst as)) = completed pending as := by
  have hall := isAttachment_of_mem as
  have hnil := buffers_filter_not as
  rw [attachmentsFirst, received_append, reassembled_append, reassembled_of_attachments hall,
    reassembled_of_noneComplete (noneComplete_of_nil hnil), completed_of_nil hnil, List.append_nil,
    completed_congr (buffers_filter as)]

/-- A header whose attachments are there is completed if it comes when the pending packet has
just been. -/
theorem reassembled_header_next {pending : Option Pending} {header : AnnouncingHeader}
    {as : List Arrival}
    (h : header.val.attachmentsCount.toNat ≤ (buffers as).length - missing pending) :
    ∃ as', as'.Perm (.header header :: as) ∧
      (completed pending as).length < (reassembled (received pending as')).length := by
  have hpos := announced_pos header
  have hall := isAttachment_of_mem as
  have hlen : (as.filter isAttachment).length = (buffers as).length := by
    rw [← length_buffers hall, buffers_filter]
  -- the attachments of the pending packet, and those of the header
  let first := (as.filter isAttachment).take (missing pending)
  let next := (as.filter isAttachment).drop (missing pending)
  have hfirst : ∀ a ∈ first, isAttachment a = true := fun a ha ↦ hall a (List.mem_of_mem_take ha)
  have hnext : ∀ a ∈ next, isAttachment a = true := fun a ha ↦ hall a (List.mem_of_mem_drop ha)
  have hlenFirst : first.length = missing pending := by
    rw [List.length_take, hlen]
    omega
  have hlenNext : header.val.attachmentsCount.toNat ≤ next.length := by
    rw [List.length_drop, hlen]
    exact h
  refine ⟨first ++ .header header :: (next ++ as.filter fun a ↦ !isAttachment a), ?_, ?_⟩
  · refine List.perm_middle.trans (.cons _ ?_)
    rw [← List.append_assoc, List.take_append_drop]
    exact attachmentsFirst_perm as
  · have hpending : (completed pending first).length = (completed pending as).length := by
      refine length_completed ?_
      rw [length_buffers hfirst, hlenFirst]
      omega
    have hlater := reassembled_header hnext hlenNext (as.filter fun a ↦ !isAttachment a)
    rw [received_append, run_complete hfirst hlenFirst, reassembled_append,
      reassembled_of_attachments hfirst, List.length_append, hpending]
    omega

/-- If the number of packets that are reassembled is the same in every order, no header can be
followed by all its attachments. -/
theorem noneComplete_of_length {pending : Option Pending} {as : List Arrival} {n : ℕ}
    (h : ∀ as', as'.Perm as → (reassembled (received pending as')).length = n) :
    NoneComplete pending as := by
  intro header hmem
  by_contra hle
  obtain ⟨before, after, rfl⟩ := List.append_of_mem hmem
  have hbuffers : buffers (before ++ .header header :: after) = buffers (before ++ after) :=
    buffers_middle rfl before after
  rw [hbuffers, Nat.not_lt] at hle
  obtain ⟨as', hperm, hlt⟩ := reassembled_header_next hle
  have hfirst := h _ (attachmentsFirst_perm _)
  rw [reassembled_attachmentsFirst, completed_congr hbuffers] at hfirst
  rw [h as' (hperm.trans List.perm_middle.symm), hfirst] at hlt
  exact absurd hlt (Nat.lt_irrefl n)

section Record

variable (connects : Packet → Bool)

/-- A connection of which the server may not have a record yet: it makes one with the first
packet that connects, and drops the headers and the attachments that come before. -/
def recordArrivals : Machine (Option (Option Pending)) Arrival (Option Delivery) where
  step
    | some pending, a => (some (arrivals.step pending a).1, (arrivals.step pending a).2)
    | none, .plain packet => (if connects packet then some none else none, some (.decoded packet))
    | none, _ => (none, none)

def receivedFrom (record : Option (Option Pending)) (as : List Arrival) : List Delivery :=
  ((recordArrivals connects).run record as).2.reduceOption

/-- No header can be followed by all its attachments, or the connection gets no record. -/
def NothingNew (record : Option (Option Pending)) (as : List Arrival) : Prop :=
  NoneComplete record.join as ∨ record = none ∧ ∀ packet ∈ plains as, connects packet = false

variable {connects} {record : Option (Option Pending)}

theorem receivedFrom_cons (record : Option (Option Pending)) (a : Arrival) (as : List Arrival) :
    receivedFrom connects record (a :: as) = ((recordArrivals connects).step record a).2.toList ++
      receivedFrom connects ((recordArrivals connects).step record a).1 as := by
  rw [receivedFrom, Machine.run_cons]
  cases ((recordArrivals connects).step record a).2 <;> rfl

theorem receivedFrom_some (pending : Option Pending) (as : List Arrival) :
    receivedFrom connects (some pending) as = received pending as := by
  induction as generalizing pending with
  | nil => rfl
  | cons a as ih =>
    rw [receivedFrom_cons, received_cons]
    exact congrArg ((arrivals.step pending a).2.toList ++ ·) (ih _)

/-- Plain packets are delivered in the order of their messages, whatever comes in between. -/
theorem received_decoded (pending : Option Pending) (as : List Arrival) :
    (received pending as).filterMap Delivery.decodedPacket = plains as := by
  induction as generalizing pending with
  | nil => rfl
  | cons a as ih =>
    rw [received_cons, List.filterMap_append, ih]
    cases a with
    | header header => rfl
    | plain packet => rfl
    | other => rfl
    | attachment buffer =>
      simp only [arrivals]
      split <;> rfl

theorem receivedFrom_decoded (connects : Packet → Bool) (record : Option (Option Pending))
    (as : List Arrival) :
    (receivedFrom connects record as).filterMap Delivery.decodedPacket = plains as := by
  cases record with
  | some pending => rw [receivedFrom_some, received_decoded]
  | none =>
    induction as with
    | nil => rfl
    | cons a as ih =>
      rw [receivedFrom_cons, List.filterMap_append]
      cases a with
      | header header => exact ih
      | attachment buffer => exact ih
      | other => exact ih
      | plain packet =>
        simp only [recordArrivals]
        cases connects packet with
        | true =>
          rw [if_pos rfl, receivedFrom_some, received_decoded]
          rfl
        | false => exact congrArg (packet :: ·) ih

theorem NoneComplete.tail {a : Arrival} {as : List Arrival} (h : NoneComplete none (a :: as)) :
    NoneComplete none as := by
  intro header hmem
  have hsub : (buffers as).length ≤ (buffers (a :: as)).length :=
    ((List.sublist_cons_self a as).filterMap bufferOf).length_le
  exact hsub.trans_lt (h header (.tail _ hmem))

theorem reassembled_unknown {as : List Arrival}
    (h : NoneComplete none as ∨ ∀ packet ∈ plains as, connects packet = false) :
    reassembled (receivedFrom connects none as) = [] := by
  induction as with
  | nil => rfl
  | cons a as ih =>
    have hlater (hplain : plains (a :: as) = plains as) :
        NoneComplete none as ∨ ∀ packet ∈ plains as, connects packet = false :=
      h.imp NoneComplete.tail (fun hnone ↦ hplain ▸ hnone)
    rw [receivedFrom_cons, reassembled_append]
    cases a with
    | header header => exact ih (hlater rfl)
    | attachment buffer => exact ih (hlater rfl)
    | other => exact ih (hlater rfl)
    | plain packet =>
      have hcons : plains (.plain packet :: as) = packet :: plains as := rfl
      simp only [recordArrivals]
      cases hconnects : connects packet with
      | true =>
        have hcomplete : NoneComplete none as := by
          refine (h.resolve_right ?_).tail
          intro hnone
          rw [hnone packet (hcons ▸ .head _)] at hconnects
          cases hconnects
        rw [if_pos rfl, receivedFrom_some, reassembled_of_noneComplete hcomplete]
        rfl
      | false =>
        refine ih (h.imp NoneComplete.tail fun hnone packet hmem ↦ hnone packet ?_)
        exact hcons ▸ .tail _ hmem

theorem NothingNew.reassembled {as : List Arrival} (h : NothingNew connects record as) :
    reassembled (receivedFrom connects record as) = completed record.join as := by
  cases record with
  | some pending =>
    rw [receivedFrom_some]
    exact reassembled_of_noneComplete (h.resolve_right nofun)
  | none => exact reassembled_unknown (h.imp_right And.right)

theorem NothingNew.perm {as as' : List Arrival} (h : NothingNew connects record as)
    (hperm : as'.Perm as) : NothingNew connects record as' := by
  refine h.imp (fun hnone ↦ hnone.perm hperm) (And.imp_right fun hnone packet hmem ↦ ?_)
  exact hnone packet ((hperm.filterMap plainOf).mem_iff.mp hmem)

theorem nothingNew_of_length {as : List Arrival} {n : ℕ}
    (h : ∀ as', as'.Perm as → (reassembled (receivedFrom connects record as')).length = n) :
    NothingNew connects record as := by
  cases record with
  | some pending =>
    simp only [receivedFrom_some] at h
    exact .inl (noneComplete_of_length h)
  | none =>
    by_cases hnone : ∀ packet ∈ plains as, connects packet = false
    · exact .inr ⟨rfl, hnone⟩
    push Not at hnone
    obtain ⟨packet, hmem, hconnects⟩ := hnone
    obtain ⟨a, ha, hplain⟩ := List.mem_filterMap.mp hmem
    obtain ⟨before, after, rfl⟩ := List.append_of_mem ha
    cases a with
    | plain p =>
      cases hplain
      -- once the connection is known, the others come in any order
      have hrest : NoneComplete none (before ++ after) := by
        refine noneComplete_of_length (n := n) ?_
        intro as' hperm
        have hlen := h (.plain packet :: as') ((hperm.cons _).trans List.perm_middle.symm)
        rw [receivedFrom_cons, reassembled_append] at hlen
        simp only [recordArrivals] at hlen
        rw [if_pos (by simpa using hconnects), receivedFrom_some] at hlen
        exact hlen
      refine .inl fun header hmem ↦ ?_
      rw [buffers_middle rfl before after]
      exact hrest header (by simpa using hmem)
    | header | attachment | other => cases hplain

theorem reassembled_same_iff (connects : Packet → Bool) (record : Option (Option Pending))
    (as : List Arrival) :
    (∀ as', as'.Perm as → reassembled (receivedFrom connects record as') =
        reassembled (receivedFrom connects record as)) ↔
      NothingNew connects record as ∧
        ∀ as', as'.Perm as → completed record.join as' = completed record.join as := by
  constructor
  · intro hsame
    have hnew : NothingNew connects record as :=
      nothingNew_of_length fun as' hperm ↦ congrArg List.length (hsame as' hperm)
    refine ⟨hnew, ?_⟩
    intro as' hperm
    rw [← hnew.reassembled, ← (hnew.perm hperm).reassembled, hsame as' hperm]
  · rintro ⟨hnew, hsame⟩ as' hperm
    rw [hnew.reassembled, (hnew.perm hperm).reassembled, hsame as' hperm]

/-- A packet that can be delivered before all others. -/
def Deliverable (pending : Option Pending) (as : List Arrival) (packet : Packet) : Prop :=
  packet ∈ plains as ∨ ∃ as', as'.Perm as ∧ packet ∈ completed pending as'

theorem length_deliveries (ds : List Delivery) :
    ds.length = (ds.filterMap Delivery.decodedPacket).length + (reassembled ds).length := by
  induction ds with
  | nil => rfl
  | cons d ds ih =>
    cases d with
    | decoded packet =>
      have hd : Delivery.decodedPacket (.decoded packet) = some packet := rfl
      have hr : Delivery.reassembledPacket (.decoded packet) = none := rfl
      rw [reassembled, List.filterMap_cons_some hd, List.filterMap_cons_none hr, List.length_cons,
        List.length_cons, ih, ← reassembled]
      omega
    | reassembled packet =>
      have hd : Delivery.decodedPacket (.reassembled packet) = none := rfl
      have hr : Delivery.reassembledPacket (.reassembled packet) = some packet := rfl
      rw [reassembled, List.filterMap_cons_none hd, List.filterMap_cons_some hr, List.length_cons,
        List.length_cons, ih, ← reassembled]
      omega

theorem length_receivedFrom (record : Option (Option Pending)) (as : List Arrival) :
    (receivedFrom connects record as).length =
      (plains as).length + (reassembled (receivedFrom connects record as)).length := by
  rw [length_deliveries, receivedFrom_decoded]

theorem map_packet_of_reassembled {ds : List Delivery}
    (h : ds.filterMap Delivery.decodedPacket = []) : ds.map Delivery.packet = reassembled ds := by
  induction ds with
  | nil => rfl
  | cons d ds ih =>
    cases d with
    | decoded packet => cases h
    | reassembled packet =>
      rw [List.map_cons, ih h]
      rfl

/-- Every packet that is delivered could be the first one. -/
theorem NothingNew.deliverable {as : List Arrival} (h : NothingNew connects record as)
    {packet : Packet} (hmem : packet ∈ (receivedFrom connects record as).map Delivery.packet) :
    Deliverable record.join as packet := by
  obtain ⟨d, hd, rfl⟩ := List.mem_map.mp hmem
  cases d with
  | decoded packet =>
    refine .inl ?_
    rw [← receivedFrom_decoded connects record as]
    exact List.mem_filterMap.mpr ⟨_, hd, rfl⟩
  | reassembled packet =>
    refine .inr ⟨as, .refl as, ?_⟩
    rw [← h.reassembled]
    exact List.mem_filterMap.mpr ⟨_, hd, rfl⟩

theorem Deliverable.perm {pending : Option Pending} {as as' : List Arrival} {packet : Packet}
    (h : Deliverable pending as packet) (hperm : as.Perm as') : Deliverable pending as' packet := by
  rcases h with hmem | ⟨as'', hperm', hmem⟩
  · exact .inl ((hperm.filterMap plainOf).mem_iff.mp hmem)
  · exact .inr ⟨as'', hperm'.trans hperm, hmem⟩

theorem Deliverable.first (connects : Packet → Bool) {as : List Arrival} {packet : Packet}
    (h : Deliverable record.join as packet) :
    ∃ as', as'.Perm as ∧
      ((receivedFrom connects record as').map Delivery.packet).head? = some packet := by
  rcases h with hmem | ⟨as', hperm, hmem⟩
  · obtain ⟨a, ha, hplain⟩ := List.mem_filterMap.mp hmem
    obtain ⟨before, after, rfl⟩ := List.append_of_mem ha
    refine ⟨a :: (before ++ after), List.perm_middle.symm, ?_⟩
    cases a with
    | plain p =>
      cases hplain
      rw [receivedFrom_cons]
      cases record <;> rfl
    | header | attachment | other => cases hplain
  · obtain ⟨pending, rfl⟩ : ∃ pending, record = some pending := by
      cases record with
      | some pending => exact ⟨pending, rfl⟩
      | none => cases hmem
    refine ⟨attachmentsFirst as', (attachmentsFirst_perm as').trans hperm, ?_⟩
    have hall := isAttachment_of_mem as'
    have hplain : plains (as'.filter isAttachment) = [] := by
      rw [plains, List.filterMap_eq_nil_iff]
      intro a ha
      have hattachment := hall a ha
      cases a with
      | attachment buffer => rfl
      | header | plain | other => cases hattachment
    have hfirst : (received pending (as'.filter isAttachment)).map Delivery.packet =
        completed (some pending).join as' := by
      rw [map_packet_of_reassembled ((received_decoded _ _).trans hplain),
        reassembled_of_attachments hall, completed_congr (buffers_filter as')]
      rfl
    rw [receivedFrom_some, attachmentsFirst, received_append, List.map_append, hfirst,
      completed_of_mem hmem]
    rfl

theorem eq_of_length_of_equal {α : Type} {l l' : List α} (hlen : l'.length = l.length)
    (h : ∀ a ∈ l', ∀ b ∈ l, a = b) : l' = l := by
  induction l generalizing l' with
  | nil => exact List.eq_nil_of_length_eq_zero hlen
  | cons b l ih =>
    cases l' with
    | nil => cases hlen
    | cons a l' =>
      rw [h a (.head _) b (.head _), ih (Nat.succ.inj hlen) fun a ha b hb ↦
        h a (.tail _ ha) b (.tail _ hb)]

/-- All packets are the same in every order only if nothing new is reassembled, and those that
could be the first one are equal. -/
theorem packets_same_iff (connects : Packet → Bool) (record : Option (Option Pending))
    (as : List Arrival) :
    (∀ as', as'.Perm as → (receivedFrom connects record as').map Delivery.packet =
        (receivedFrom connects record as).map Delivery.packet) ↔
      NothingNew connects record as ∧
        ∀ p q, Deliverable record.join as p → Deliverable record.join as q → p = q := by
  constructor
  · intro hsame
    refine ⟨nothingNew_of_length
      (n := (reassembled (receivedFrom connects record as)).length) ?_, ?_⟩
    · intro as' hperm
      have hlen := congrArg List.length (hsame as' hperm)
      rw [List.length_map, List.length_map, length_receivedFrom, length_receivedFrom record as,
        plains, (hperm.filterMap plainOf).length_eq] at hlen
      exact Nat.add_left_cancel hlen
    · intro p q hp hq
      obtain ⟨as₁, hperm₁, hp⟩ := hp.first connects
      obtain ⟨as₂, hperm₂, hq⟩ := hq.first connects
      rw [hsame as₁ hperm₁] at hp
      rw [hsame as₂ hperm₂, hp] at hq
      exact Option.some.inj hq
  · rintro ⟨hnew, hequal⟩ as' hperm
    refine eq_of_length_of_equal ?_ ?_
    · rw [List.length_map, List.length_map, length_receivedFrom, length_receivedFrom record as,
        hnew.reassembled, (hnew.perm hperm).reassembled, length_completed_perm _ hperm, plains,
        (hperm.filterMap plainOf).length_eq]
      rfl
    · intro p hp q hq
      exact hequal p q (((hnew.perm hperm).deliverable hp).perm hperm) (hnew.deliverable hq)

end Record

end SocketIoRust.SocketIoServer.HandlerOrder
