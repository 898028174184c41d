import SocketIoRust.Library.Decimal

namespace SocketIoRust.EngineIoParser

open Library Library.Nom
open Library.Outcome (ok err)

abbrev Str := List Char
abbrev Bytes := List UInt8

inductive PacketType where
  | «open» | close | ping | pong | message | upgrade | noop
deriving DecidableEq, Repr

/-- `packet_type as u8`. -/
def PacketType.toU8 : PacketType → UInt8
  | .open => 0
  | .close => 1
  | .ping => 2
  | .pong => 3
  | .message => 4
  | .upgrade => 5
  | .noop => 6

structure ParsePacketError where
  message : String
deriving DecidableEq, Repr

def PacketType.tryFrom (value : UInt8) : Except ParsePacketError PacketType :=
  match value with
  | 0 => .ok .open
  | 1 => .ok .close
  | 2 => .ok .ping
  | 3 => .ok .pong
  | 4 => .ok .message
  | 5 => .ok .upgrade
  | 6 => .ok .noop
  | _ => .error ⟨"Invalid packet"⟩

def PacketType.parseFromU8 {ι : Type} (value : UInt8) (originalInput : ι) :
    Outcome (Err ι) PacketType :=
  match PacketType.tryFrom value with
  | .ok packetType => ok packetType
  | .error _ => err (.error originalInput .digit)

inductive PacketData where
  | text : Str → PacketData
  | binary : Bytes → PacketData
  | empty : PacketData
deriving DecidableEq, Repr

structure Packet where
  packetType : PacketType
  data : PacketData
deriving DecidableEq, Repr

/-- `From<&[u8]>` and `From<Vec<u8>>`: bytes always become `Binary` data. -/
def PacketData.fromBytes (val : Bytes) : PacketData := .binary val

theorem PacketType.tryFrom_toU8 (t : PacketType) : tryFrom t.toU8 = .ok t := by
  cases t <;> rfl

theorem PacketType.toU8_lt (t : PacketType) : t.toU8.toNat < 7 := by
  cases t <;> decide

theorem PacketType.toU8_injective : Function.Injective toU8 := by
  intro t t' h
  have ht := tryFrom_toU8 t
  rw [h, tryFrom_toU8] at ht
  exact (Except.ok.inj ht).symm

theorem PacketType.tryFrom_eq_ok {v : UInt8} {t : PacketType} (h : tryFrom v = .ok t) :
    v = t.toU8 := by
  unfold tryFrom at h
  split at h <;> cases h <;> rfl

theorem PacketType.parseFromU8_toU8 {ι : Type} (t : PacketType) (i : ι) :
    parseFromU8 t.toU8 i = ok t := by
  rw [parseFromU8, tryFrom_toU8]

/-- An unknown packet type is a recoverable error. -/
theorem PacketType.parseFromU8_cases {ι : Type} (v : UInt8) (i : ι) :
    (∃ t, v = toU8 t ∧ parseFromU8 v i = ok t) ∨ parseFromU8 v i = err (.error i .digit) := by
  unfold parseFromU8
  cases h : tryFrom v with
  | ok t => exact .inl ⟨t, tryFrom_eq_ok h, rfl⟩
  | error e => exact .inr rfl

theorem PacketType.exists_of_toNat_lt {n : ℕ} (h : n < 256) {ι : Type} (i : ι) :
    (∃ t, n = (toU8 t).toNat) ∨ parseFromU8 (UInt8.ofNat n) i = err (.error i .digit) := by
  rcases parseFromU8_cases (UInt8.ofNat n) i with ⟨t, ht, _⟩ | he
  · refine .inl ⟨t, ?_⟩
    rw [← ht, UInt8.toNat_ofNat', Nat.mod_eq_of_lt h]
  · exact .inr he

/-- The digit that stands for a packet type in a text. -/
def PacketType.toChar (t : PacketType) : Char := t.toU8.toNat.digitChar

theorem PacketType.print_toU8 (t : PacketType) : Decimal.print t.toU8.toNat = [t.toChar] :=
  Decimal.print_of_lt_ten (lt_trans t.toU8_lt (by decide))

theorem PacketType.isDigit_toChar (t : PacketType) : t.toChar.isDigit = true :=
  Decimal.isDigit_digitChar (lt_trans t.toU8_lt (by decide))

theorem PacketType.value_toChar_cons (t : PacketType) (ds : Str) :
    Decimal.value (t.toChar :: ds) = t.toU8.toNat * 10 ^ ds.length + Decimal.value ds :=
  Decimal.value_digitChar_cons (lt_trans t.toU8_lt (by decide)) ds

end SocketIoRust.EngineIoParser
