import SocketIoRust.SocketIoParser.Packet
import Mathlib.Logic.Function.Basic

namespace SocketIoRust.SocketIoServer

export EngineIoParser (Str Bytes)

/-- An `Arc<SimpleNamespace<S>>`: its name never changes, the rest is found at its address. -/
structure SimpleNamespace where
  address : ℕ
  name : Str
deriving DecidableEq, Repr

/-- What the holders of a `SimpleNamespace` share: its set of sockets. -/
structure NamespaceState where
  socketIds : List Str
deriving DecidableEq, Repr

/-- The namespaces by their addresses. -/
abbrev Memory := ℕ → NamespaceState

namespace SimpleNamespace

def new (address : ℕ) (name : Str) (memory : Memory) : SimpleNamespace × Memory :=
  (⟨address, name⟩, Function.update memory address ⟨[]⟩)

/-- The room is kept by the storage; the set of sockets does not depend on it. The event is for
whoever has subscribed, and it is ignored if that is nobody. -/
def addSocketToRoom (self : SimpleNamespace) (socketId _room : Str) (memory : Memory) : Memory :=
  let state := memory self.address
  Function.update memory self.address
    ⟨if socketId ∈ state.socketIds then state.socketIds else state.socketIds ++ [socketId]⟩

def addSocket (self : SimpleNamespace) (socketId : Str) (memory : Memory) : Memory :=
  self.addSocketToRoom socketId socketId memory

def removeSocket (self : SimpleNamespace) (socketId : Str) (memory : Memory) : Memory :=
  let state := memory self.address
  Function.update memory self.address ⟨state.socketIds.filter (· ≠ socketId)⟩

theorem addSocket_of_ne {self : SimpleNamespace} {address : ℕ} (h : address ≠ self.address)
    (socketId : Str) (memory : Memory) : self.addSocket socketId memory address = memory address :=
  Function.update_of_ne h _ memory

theorem mem_addSocket {self : SimpleNamespace} {socketId s : Str} {memory : Memory}
    {address : ℕ} : s ∈ (self.addSocket socketId memory address).socketIds ↔
      s ∈ (memory address).socketIds ∨ (address = self.address ∧ s = socketId) := by
  by_cases ha : address = self.address
  · subst ha
    rw [addSocket, addSocketToRoom, Function.update_self]
    dsimp only
    split
    · rename_i hmem
      constructor
      · exact .inl
      · rintro (hs | ⟨-, rfl⟩)
        · exact hs
        · exact hmem
    · simp
  · rw [addSocket_of_ne ha]
    simp [ha]

end SimpleNamespace

end SocketIoRust.SocketIoServer
