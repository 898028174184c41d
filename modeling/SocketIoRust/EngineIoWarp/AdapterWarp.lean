import SocketIoRust.EngineIoServer.Lifecycle
import SocketIoRust.EngineIoWarp.Polling
import SocketIoRust.EngineIoWarp.Websocket
import SocketIoRust.Library.JsonText

namespace SocketIoRust.EngineIoWarp

open Library EngineIoParser EngineIoServer

/-- Both halves of the websocket of a client. -/
structure AdapterWsHandle where
  connection : ℕ
deriving DecidableEq, Repr

/-- The task of a websocket transport that gets the commands of its socket. -/
structure CommandTask where
  cmdReceiver : Receiver
  websocketSender : AdapterWsHandle
  options : EngineIoServer.WebsocketTransportOptions
deriving DecidableEq, Repr

structure WarpWebsocketTransport where
  eventSender : Sender
  options : EngineIoServer.WebsocketTransportOptions
  commandTask : CommandTask
deriving DecidableEq, Repr

namespace WarpWebsocketTransport

def new (options : EngineIoServer.WebsocketTransportOptions) (eventSender : Sender)
    (socketHandle : AdapterWsHandle) (_upgradeRequestContext : RequestContext)
    (cmdReceiver : Receiver) : WarpWebsocketTransport :=
  ⟨eventSender, options, ⟨cmdReceiver, socketHandle, options⟩⟩

def isWritable (_transport : WarpWebsocketTransport) : Bool := true

end WarpWebsocketTransport

/-- The adapter, for a base64 codec and a way to treat overflows. -/
structure StandaloneAdapter (B : Base64.Codec) (o : Overflow) where

instance (B : Base64.Codec) (o : Overflow) : Adapter (StandaloneAdapter B o) where
  WebSocket := WarpWebsocketTransport
  Polling := Polling.WarpPollingTransport
  Response := Polling.AdapterResponse
  Body := Bytes
  WsHandle := AdapterWsHandle
  newWebSocket := WarpWebsocketTransport.new
  webSocketIsWritable := WarpWebsocketTransport.isWritable
  newPolling := Polling.WarpPollingTransport.new
  pollingIsWritable := Polling.WarpPollingTransport.isWritable
  respondWithPackets := Polling.WarpPollingTransport.respondWithPackets B
  handleRequest := Polling.WarpPollingTransport.handleRequest B o

/-- A socket that has just been opened, with the defaults of a server. -/
def opened (B : Base64.Codec) (o : Overflow) (κ : Type)
    (transportCreateData : TransportCreateData (StandaloneAdapter B o)) :
    Socket (StandaloneAdapter B o) κ :=
  Lifecycle.opened κ Json.standard ⟨5000, 25000⟩ "a".toList .poll transportCreateData 0

end SocketIoRust.EngineIoWarp
