import SocketIoRust.SocketIoServer.Connection
import SocketIoRust.SocketIoServer.Namespace
import SocketIoRust.EngineIoServer.Util

namespace SocketIoRust.SocketIoServer

open Library SocketIoParser
open EngineIoServer (RequestContext)

structure Handshake where
  headers : List (Str × Str)
  time : ℤ
  address : Str
  xdomain : Bool
  secure : Bool
  issued : ℤ
  url : Str
  query : List (Str × Str)
  auth : PacketDataValue

/-- What a call asks of its surroundings: the id that `generate_id` would answer with and
the time in nanoseconds. -/
structure Environment where
  generatedId : Str
  now : ℤ

def Handshake.new (context : RequestContext) (auth : PacketDataValue) (environment : Environment) :
    Handshake where
  headers := context.headers
  time := environment.now
  xdomain := context.origin.isSome
  address := context.remoteAddress
  secure := context.secure
  issued := environment.now / 1000000000
  url := context.requestUrl
  query := context.query
  auth := auth

structure Socket where
  id : Str
  namespaceName : Str
  handshake : Handshake

def Socket.new (handshake : Handshake) (namespaceName generatedId : Str) : Socket :=
  ⟨generatedId, namespaceName, handshake⟩

/-- All the sockets of a connection, and its namespaces with the socket that joined each. -/
abbrev ConnectionState (D : Type) :=
  Connection.State (List (Str × Socket)) (List (Str × (Str × SimpleNamespace))) D

structure Connection (D : Type) where
  id : Str
  state : ConnectionState D

inductive AddToNamespaceSuccess where
  | added : Str → AddToNamespaceSuccess
  | alreadyExisting : Str → AddToNamespaceSuccess

def AddToNamespaceSuccess.socketId : AddToNamespaceSuccess → Str
  | added socketId => socketId
  | alreadyExisting socketId => socketId

namespace Connection

variable {D : Type}

def createSocket (state : ConnectionState D) (handshake : Handshake) (ns : SimpleNamespace)
    (generatedId : Str) (memory : Memory) : ConnectionState D × Memory × Str :=
  let socket := Socket.new handshake ns.name generatedId
  ({ state with sockets := IndexMap.insert socket.id socket state.sockets },
    ns.addSocket socket.id memory, socket.id)

def initializeConnection (engineConnectionId : Str) (handshake : Handshake) (ns : SimpleNamespace)
    (generatedId : Str) (memory : Memory) : Connection D × Memory × Str :=
  let (state, memory, socketId) := createSocket ⟨[], [], none⟩ handshake ns generatedId memory
  (⟨engineConnectionId, state⟩, memory, socketId)

def addToNamespace (state : ConnectionState D) (handshake : Handshake) (ns : SimpleNamespace)
    (generatedId : Str) (memory : Memory) : ConnectionState D × Memory × AddToNamespaceSuccess :=
  match IndexMap.get ns.name state.namespaces with
  | some record => (state, memory, .alreadyExisting record.1)
  | none =>
    let (state, memory, socketId) := createSocket state handshake ns generatedId memory
    (state, memory, .added socketId)

def iterSocketIds (connection : Connection D) : List Str := IndexMap.keys connection.state.sockets

/-- The socket that is handed the packet; what it does with it is not written yet. -/
def handlePacket (state : ConnectionState D) (packet : Packet) : Option Socket :=
  match IndexMap.get packet.nsp state.namespaces with
  | some (socketId, _) => IndexMap.get socketId state.sockets
  | none => none

/-- `Drop for State`. -/
def drop (state : ConnectionState D) (memory : Memory) : Memory :=
  state.namespaces.foldl (fun memory e ↦ e.2.2.removeSocket e.2.1 memory) memory

end Connection

inductive ServerEvent where
  | error : Str → ServerEvent
deriving DecidableEq, Repr

inductive GetResult where
  | new | existing
deriving DecidableEq, Repr

/-- An `Arc<DynamicNamespace<S>>`; its members are found at its address. -/
structure DynamicNamespace where
  address : ℕ
deriving DecidableEq, Repr

abbrev DynamicNamespaceNameMatchFn := Str → PacketDataValue → Bool

/-- The state of a server: the maps of `Shared` and what is behind its pointers. -/
structure Shared (D : Type) where
  connections : List (Str × Connection D)
  namespaces : List (Str × SimpleNamespace)
  connectionLookup : List (Str × Str)
  dynamicNamespaces : List (DynamicNamespaceNameMatchFn × DynamicNamespace)
  events : List ServerEvent
  memory : Memory
  members : ℕ → List (Str × SimpleNamespace)
  nextAddress : ℕ

namespace Shared

variable {D : Type}

def new : Shared D := ⟨[], [], [], [], [], fun _ ↦ ⟨[]⟩, fun _ ↦ [], 0⟩

def getOrCreateNamespace (shared : Shared D) (name : Str) :
    Shared D × SimpleNamespace × GetResult :=
  let name := if name.head? = some '/' then name else '/' :: name
  match IndexMap.get name shared.namespaces with
  | some ns => (shared, ns, .existing)
  | none =>
    let (ns, memory) := SimpleNamespace.new shared.nextAddress name shared.memory
    ({ shared with
        namespaces := IndexMap.insert name ns shared.namespaces
        memory := memory
        nextAddress := shared.nextAddress + 1 }, ns, .new)

def namespaceExists (shared : Shared D) (name : Str) : Bool :=
  (IndexMap.get name shared.namespaces).isSome

def insertSimpleNamespace (shared : Shared D) (dynamic : DynamicNamespace) (ns : SimpleNamespace) :
    Shared D :=
  { shared with
    members := Function.update shared.members dynamic.address
      (IndexMap.insert ns.name ns (shared.members dynamic.address)) }

def getMatchingDynamicNamespace (shared : Shared D) (namespaceName : Str)
    (auth : PacketDataValue) : Shared D × Option DynamicNamespace :=
  match shared.dynamicNamespaces.find? (fun dynamic ↦ dynamic.1 namespaceName auth) with
  | some (_, dynamic) =>
    match shared.getOrCreateNamespace namespaceName with
    | (shared, ns, .new) => (shared.insertSimpleNamespace dynamic ns, some dynamic)
    | (shared, _, .existing) => (shared, some dynamic)
  | none => (shared, none)

def addConnection (shared : Shared D) (ns : SimpleNamespace) (engineConnectionId : Str)
    (handshake : Handshake) (generatedId : Str) : Shared D × Str :=
  let (shared, socketId) :=
    match IndexMap.get engineConnectionId shared.connections with
    | some connection =>
      let (state, memory, success) :=
        Connection.addToNamespace connection.state handshake ns generatedId shared.memory
      ({ shared with
          connections := IndexMap.insert engineConnectionId { connection with state := state }
            shared.connections
          memory := memory }, success.socketId)
    | none =>
      let (connection, memory, socketId) :=
        Connection.initializeConnection engineConnectionId handshake ns generatedId shared.memory
      ({ shared with
          connections := IndexMap.insert engineConnectionId connection shared.connections
          memory := memory }, socketId)
  ({ shared with
      connectionLookup := IndexMap.insert socketId engineConnectionId shared.connectionLookup },
    socketId)

def removeConnection (shared : Shared D) (engineConnectionId : Str) : Shared D × Bool :=
  match IndexMap.get engineConnectionId shared.connections with
  | some connection =>
    ({ shared with
        connections := IndexMap.erase engineConnectionId shared.connections
        connectionLookup := connection.iterSocketIds.foldl
          (fun lookup socketId ↦ IndexMap.erase socketId lookup) shared.connectionLookup
        memory := Connection.drop connection.state shared.memory }, true)
  | none => (shared, false)

/-- The connect timer that is cleared first is not written yet. -/
def connectClient (shared : Shared D) (context : RequestContext)
    (namespaceName engineConnectionId : Str) (auth : PacketDataValue) (environment : Environment) :
    Shared D × SimpleNamespace × Str :=
  let (shared, ns, _) := shared.getOrCreateNamespace namespaceName
  let handshake := Handshake.new context auth environment
  let (shared, socketId) :=
    shared.addConnection ns engineConnectionId handshake environment.generatedId
  (shared, ns, socketId)

def handleClientConnect (shared : Shared D) (context : RequestContext)
    (namespaceName engineConnectionId : Str) (auth : PacketDataValue) (environment : Environment) :
    Shared D × Packet :=
  let connected (shared : Shared D) : Shared D × Packet :=
    let (shared, ns, socketId) :=
      shared.connectClient context namespaceName engineConnectionId auth environment
    (shared, ⟨.connect, none, ns.name, .object [("sid".toList, .string socketId)]⟩)
  if shared.namespaceExists namespaceName then connected shared else
  match shared.getMatchingDynamicNamespace namespaceName auth with
  | (shared, some _) => connected shared
  | (shared, none) =>
    (shared, ⟨.connectError, none, namespaceName,
      .object [("message".toList, .string "Invalid namespace".toList)]⟩)

end Shared

end SocketIoRust.SocketIoServer
