import SocketIoRust.SocketIoServer.Messages
import SocketIoRust.EngineIoServer.Socket

namespace SocketIoRust.SocketIoServer

open Library SocketIoParser
open EngineIoServer (RequestContext SocketCloseReason)

/-- A compiled regular expression, as far as it is used. -/
structure Regex where
  isMatch : Str → Bool

inductive NamespaceDescriptor where
  | text : Str → NamespaceDescriptor
  | regex : Regex → NamespaceDescriptor
  | function : DynamicNamespaceNameMatchFn → NamespaceDescriptor

inductive NamespaceKind where
  | simple : SimpleNamespace → NamespaceKind
  | dynamic : DynamicNamespace → NamespaceKind

/-- The events of the engine, `message` with the surroundings in which it is handled. -/
inductive EngineEvent where
  | connection : Str → EngineEvent
  | close : Str → SocketCloseReason → EngineEvent
  | flush : Str → EngineEvent
  | drain : Str → EngineEvent
  | message : Message → EngineEvent
  | error : Str → EngineEvent

def EngineEvent.connectionId : EngineEvent → Str
  | connection connectionId => connectionId
  | close connectionId _ => connectionId
  | flush connectionId => connectionId
  | drain connectionId => connectionId
  | message received => received.connectionId
  | error connectionId => connectionId

namespace Shared

variable {D : Type}

def getNamespace (shared : Shared D) (name : Str) : Shared D × SimpleNamespace :=
  let (shared, ns, _) := shared.getOrCreateNamespace name
  (shared, ns)

def makeDynamicNamespace (shared : Shared D) (namespaceDescriptor : NamespaceDescriptor) :
    Shared D × DynamicNamespace :=
  let matchFn : DynamicNamespaceNameMatchFn := match namespaceDescriptor with
    | .function f => f
    | .regex regex => fun name _auth ↦ regex.isMatch name
    | .text text => fun name _auth ↦ name = text
  let dynamic : DynamicNamespace := ⟨shared.nextAddress⟩
  ({ shared with
      dynamicNamespaces := shared.dynamicNamespaces ++ [(matchFn, dynamic)]
      members := Function.update shared.members dynamic.address []
      nextAddress := shared.nextAddress + 1 }, dynamic)

def of (shared : Shared D) (namespaceDescriptor : NamespaceDescriptor) :
    Shared D × NamespaceKind :=
  match namespaceDescriptor with
  | .text name =>
    let (shared, ns) := shared.getNamespace name
    (shared, .simple ns)
  | _ =>
    let (shared, dynamic) := shared.makeDynamicNamespace namespaceDescriptor
    (shared, .dynamic dynamic)

def handleEngineSocketClose (shared : Shared D) (engineConnectionId : Str) : Shared D :=
  (shared.removeConnection engineConnectionId).1

variable [Connection.Decoder D]
variable (decodeProtoPacket : Str → Outcome HandleEngineMessageError ProtoPacket)

/-- What the task does that `subscribe_to_engine_events` spawns for an event. -/
def handleEngineEvent (shared : Shared D) : EngineEvent → Shared D
  -- the connect timer that is set up here is not written yet
  | .connection _ => shared
  | .close connectionId _ => shared.handleEngineSocketClose connectionId
  | .message message => (shared.handleNewMessage decodeProtoPacket message).1
  -- only the engine's socket is closed
  | .error _ => shared
  | .flush _ => shared
  | .drain _ => shared

end Shared

/-- All that can happen to a server: calls of its owner, requests of clients, events. -/
inductive Operation where
  | getNamespace : Str → Operation
  | of : NamespaceDescriptor → Operation
  | makeDynamicNamespace : NamespaceDescriptor → Operation
  | clientConnect : (context : RequestContext) → (namespaceName engineConnectionId : Str) →
      (auth : PacketDataValue) → Environment → Operation
  | engineEvent : EngineEvent → Operation

namespace Shared

variable {D : Type} [Connection.Decoder D]
variable (decodeProtoPacket : Str → Outcome HandleEngineMessageError ProtoPacket)

def perform (shared : Shared D) : Operation → Shared D
  | .getNamespace name => (shared.getNamespace name).1
  | .of namespaceDescriptor => (shared.of namespaceDescriptor).1
  | .makeDynamicNamespace namespaceDescriptor =>
    (shared.makeDynamicNamespace namespaceDescriptor).1
  | .clientConnect context namespaceName engineConnectionId auth environment =>
    (shared.handleClientConnect context namespaceName engineConnectionId auth environment).1
  | .engineEvent event => shared.handleEngineEvent decodeProtoPacket event

def run (shared : Shared D) (operations : List Operation) : Shared D :=
  operations.foldl (perform decodeProtoPacket) shared

end Shared

end SocketIoRust.SocketIoServer
