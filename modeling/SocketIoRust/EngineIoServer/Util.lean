import SocketIoRust.EngineIoParser.Packet

namespace SocketIoRust.EngineIoServer

export EngineIoParser (Str Bytes)

inductive TransportKind where
  | webSocket | polling
deriving DecidableEq, Repr

inductive HttpMethod where
  | options | get | post | put | delete | head | trace | connect | patch
deriving DecidableEq, Repr

structure SetCookie where
  name : Str
  value : Str
  path : Str
  httpOnly : Bool
  sameSite : Bool
deriving DecidableEq, Repr

structure RequestContext where
  query : List (Str × Str)
  headers : List (Str × Str)
  origin : Option Str
  secure : Bool
  userAgent : Str
  contentType : Str
  transportKind : TransportKind
  httpMethod : HttpMethod
  remoteAddress : Str
  requestUrl : Str
  setCookie : Option SetCookie
deriving DecidableEq, Repr

inductive ServerError where
  | unknownTransport | unknownSid | badHandshakeMethod | badRequest | forbidden | unknown
  | shuttingDown
deriving DecidableEq, Repr

/-- A poll without query, headers or cookies. -/
def RequestContext.poll : RequestContext :=
  ⟨[], [], none, false, [], [], .polling, .get, [], [], none⟩

end SocketIoRust.EngineIoServer
