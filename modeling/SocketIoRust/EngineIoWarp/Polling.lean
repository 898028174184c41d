import SocketIoRust.EngineIoParser.BinaryFormat
import SocketIoRust.EngineIoParser.StringFormat
import SocketIoRust.EngineIoServer.Transport
import SocketIoRust.Library.IndexMap

namespace SocketIoRust.EngineIoWarp.Polling

open Library EngineIoParser EngineIoServer

inductive Mode where
  | xhr | jsonp
deriving DecidableEq, Repr

structure WarpPollingTransport where
  mode : Mode
  eventSender : Sender
  writable : Bool
  options : PollingTransportOptions
deriving DecidableEq, Repr

/-- A response, with the headers as they were written. -/
structure AdapterResponse where
  status : ℕ
  headers : List (Str × Str)
  body : Bytes
deriving DecidableEq, Repr

/-- The bytes that a header may have. -/
def isHeaderValue (value : Str) : Bool :=
  (Utf8.asBytes value).all (fun b ↦ (32 ≤ b ∧ b ≠ 127) ∨ b = 9)

/-- The text of a cookie is not written yet: the task panics. -/
def cookieText (_setCookie : SetCookie) : Outcome ServerError Str := .panic

/-- A header that is none makes the builder fail, and its `unwrap` panics. -/
def respond (content : ResponseBodyData) (context : RequestContext) (mode : Mode)
    (_compress : Bool) : Outcome ServerError AdapterResponse :=
  let contentType := match content with
    | .plaintext _ => "text/plain; charset=UTF-8".toList
    | .binary _ => "application/octet-stream".toList
  let commonHeaders := getCommonPollingResponseHeaders context (mode = .xhr)
  if commonHeaders.all (fun kv ↦ isHeaderValue kv.2) then do
    let headers := IndexMap.insert "content-type".toList contentType commonHeaders
    match context.setCookie with
    | some setCookie =>
      let cookieStr ← cookieText setCookie
      if isHeaderValue cookieStr then
        .ok ⟨200, IndexMap.insert "set-cookie".toList cookieStr headers, content.intoBytes⟩
      else .panic
    | none => .ok ⟨200, headers, content.intoBytes⟩
  else .panic

namespace WarpPollingTransport

def new (options : PollingTransportOptions) (eventSender : Sender)
    (_transportCmdReceiver : Receiver) : WarpPollingTransport :=
  let mode := if options.jsonp then .jsonp else .xhr
  ⟨mode, eventSender, false, options⟩

/-- A polling transport is never writable: the packets wait for a poll. -/
def isWritable (_transport : WarpPollingTransport) : Bool := false

def respondWithPackets (B : Base64.Codec) (transport : WarpPollingTransport)
    (requestContext : RequestContext) (packets : List Packet) :
    Outcome ServerError AdapterResponse :=
  let content := ResponseBodyData.plaintext (StringFormat.encodePayload B packets)
  respond content requestContext transport.mode transport.options.httpCompression.isSome

def handlePollRequest : Outcome ServerError (RequestReply AdapterResponse) :=
  .ok (.action .drain)

def handleDataRequest (B : Base64.Codec) (o : Overflow) (requestContext : RequestContext)
    (body : Option Bytes) :
    List TransportEvent × Outcome ServerError (RequestReply AdapterResponse) :=
  let isBinary := requestContext.contentType = "application/octet-stream".toList
  let packets : Outcome ServerError (List Packet) :=
    match body with
    | none => .err .badRequest
    | some body =>
      if isBinary then (BinaryFormat.decodePayload o body).mapErr (fun _ ↦ .badRequest)
      else
        match Utf8.fromUtf8 body with
        | none => .err .badRequest
        | some text => (StringFormat.decodePayload B o text).mapErr (fun _ ↦ .badRequest)
  match packets with
  | .ok packets =>
    (packets.map (fun packet ↦ .packet requestContext packet),
      .ok (.response ⟨200, [("content-type".toList, "text/html".toList)],
        Utf8.asBytes "ok".toList⟩))
  | .err e => ([], .err e)
  | .panic => ([], .panic)

def handleOptionsRequest : Outcome ServerError (RequestReply AdapterResponse) :=
  .ok (.response ⟨200, [("access-control-allow-headers".toList, "Content-Type".toList)], []⟩)

def respondWithStatusCodeOnly (statusCode : ℕ) :
    Outcome ServerError (RequestReply AdapterResponse) :=
  .ok (.response ⟨statusCode, [], []⟩)

def handleRequest (B : Base64.Codec) (o : Overflow) (transport : WarpPollingTransport)
    (requestContext : RequestContext) (body : Option Bytes) :
    List TransportEvent × Outcome ServerError (RequestReply AdapterResponse) :=
  match requestContext.httpMethod, transport.mode with
  | .get, _ => ([], handlePollRequest)
  | .post, _ => handleDataRequest B o requestContext body
  | .options, .xhr => ([], handleOptionsRequest)
  | _, _ => ([], respondWithStatusCodeOnly 500)

/-- The packets of a text body are emitted one by one. -/
theorem handleDataRequest_asBytes (B : Base64.Codec) (o : Overflow) {context : RequestContext}
    {text : Str} {packets : List Packet}
    (hc : context.contentType ≠ "application/octet-stream".toList)
    (h : StringFormat.decodePayload B o text = .ok packets) :
    (handleDataRequest B o context (some (Utf8.asBytes text))).1 =
      packets.map (fun packet ↦ .packet context packet) := by
  rw [handleDataRequest]
  simp only [hc, if_false, Utf8.fromUtf8_asBytes, h, Outcome.mapErr]

end WarpPollingTransport

end SocketIoRust.EngineIoWarp.Polling
