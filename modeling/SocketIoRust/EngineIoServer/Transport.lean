import SocketIoRust.EngineIoServer.Util
import SocketIoRust.Library.Utf8

namespace SocketIoRust.EngineIoServer

open Library EngineIoParser

/-- A sender of a broadcast channel, which is the only thing that tells senders apart. -/
structure Sender where
  channel : ℕ
deriving DecidableEq, Repr

/-- A receiver of a broadcast channel. -/
structure Receiver where
  channel : ℕ
deriving DecidableEq, Repr

inductive TransportError where
  | packetParseError | otherError
deriving DecidableEq, Repr

inductive TransportCmd where
  | send : List Packet → TransportCmd
deriving DecidableEq, Repr

def TransportCmd.packets : TransportCmd → List Packet
  | send packets => packets

inductive TransportEvent where
  | error : TransportError → TransportEvent
  | packet : RequestContext → Packet → TransportEvent
  | drain
  | close
deriving DecidableEq, Repr

inductive RequestReply (ρ : Type) where
  | action : TransportEvent → RequestReply ρ
  | response : ρ → RequestReply ρ
deriving DecidableEq, Repr

inductive ResponseBodyData where
  | plaintext : Str → ResponseBodyData
  | binary : Bytes → ResponseBodyData
deriving DecidableEq, Repr

def ResponseBodyData.intoBytes : ResponseBodyData → Bytes
  | plaintext text => Utf8.asBytes text
  | binary bytes => bytes

def contains (text pattern : Str) : Bool := text.tails.any pattern.isPrefixOf

def getCommonPollingResponseHeaders (requestContext : RequestContext) (xhr : Bool) :
    List (Str × Str) :=
  let userAgent := requestContext.userAgent
  let headers :=
    if contains userAgent ";MSIE".toList || contains userAgent "Trident/".toList then
      [("X-XSS-Protection".toList, "0".toList)]
    else []
  if xhr then
    match requestContext.origin with
    | some origin =>
      headers ++ [("Access-Control-Allow-Credentials".toList, "true".toList),
        ("Access-Control-Allow_origin".toList, origin)]
    | none => headers ++ [("Access-Control-Allow-Origin".toList, "*".toList)]
  else headers

structure WebsocketTransportOptions where
  perMessageDeflate : Bool
  supportsBinary : Bool
deriving DecidableEq, Repr

structure HttpCompressionOptions where
  threshold : ℕ
deriving DecidableEq, Repr

structure PollingTransportOptions where
  maxHttpBufferSize : ℕ
  httpCompression : Option HttpCompressionOptions
  jsonp : Bool
deriving DecidableEq, Repr

/-- The trait `Adapter` and those of its two transports, as far as sockets use them. A
request is answered with the events that the transport sends meanwhile. -/
class Adapter (A : Type) where
  WebSocket : Type
  Polling : Type
  Response : Type
  Body : Type
  WsHandle : Type
  newWebSocket : WebsocketTransportOptions → Sender → WsHandle → RequestContext → Receiver → WebSocket
  webSocketIsWritable : WebSocket → Bool
  newPolling : PollingTransportOptions → Sender → Receiver → Polling
  pollingIsWritable : Polling → Bool
  respondWithPackets : Polling → RequestContext → List Packet → Outcome ServerError Response
  handleRequest : Polling → RequestContext → Option Body →
    List TransportEvent × Outcome ServerError (RequestReply Response)

variable {A : Type} [Adapter A]

variable (A) in
inductive Transport where
  | webSocket : Adapter.WebSocket A → Transport
  | polling : Adapter.Polling A → Transport

variable (A) in
inductive TransportCreateData where
  | polling : (jsonp : Bool) → TransportCreateData
  | webSocket : (supportsBinary : Bool) → Adapter.WsHandle A → TransportCreateData

namespace Transport

def supportsFraming : Transport A → Bool
  | webSocket _ => true
  | polling _ => false

def asPollingOrFail : Transport A → Except ServerError (Adapter.Polling A)
  | webSocket _ => .error .badRequest
  | polling transport => .ok transport

def getTransportKind : Transport A → TransportKind
  | webSocket _ => .webSocket
  | polling _ => .polling

def isWritable : Transport A → Bool
  | webSocket transport => Adapter.webSocketIsWritable transport
  | polling transport => Adapter.pollingIsWritable transport

/-- The events of the transport go to a channel of its own, `eventChannel`. -/
def create (context : RequestContext) (transportCreateData : TransportCreateData A)
    (transportCmdReceiver : Receiver) (eventChannel : ℕ) : Transport A :=
  let transportEventSender : Sender := ⟨eventChannel⟩
  match transportCreateData with
  | .webSocket supportsBinary socket =>
    webSocket (Adapter.newWebSocket ⟨true, supportsBinary⟩ transportEventSender socket context
      transportCmdReceiver)
  | .polling jsonp =>
    polling (Adapter.newPolling ⟨1024, none, jsonp⟩ transportEventSender transportCmdReceiver)

end Transport

end SocketIoRust.EngineIoServer
