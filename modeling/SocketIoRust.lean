import SocketIoRust.Library.Outcome
import SocketIoRust.Library.Nom
import SocketIoRust.Library.Decimal
import SocketIoRust.Library.Base64
import SocketIoRust.Library.Utf8
import SocketIoRust.Library.Framing
import SocketIoRust.Library.PrefixCode
import SocketIoRust.Library.Refinement
import SocketIoRust.Library.Sessions
import SocketIoRust.Library.Threads
import SocketIoRust.Library.GetOrCreate
import SocketIoRust.Library.Notify
import SocketIoRust.Library.Annotation
import SocketIoRust.Library.RwLock
import SocketIoRust.Library.Broadcast
import SocketIoRust.Library.Runs
import SocketIoRust.Library.IndexMap
import SocketIoRust.Library.Json
import SocketIoRust.Library.JsonText
import SocketIoRust.Library.Serde
import SocketIoRust.EngineIoParser.Packet
import SocketIoRust.EngineIoParser.StringFormat
import SocketIoRust.EngineIoParser.StringReading
import SocketIoRust.EngineIoParser.StringFrames
import SocketIoRust.EngineIoParser.StringRoundTrip
import SocketIoRust.EngineIoParser.BinaryFormat
import SocketIoRust.EngineIoParser.BinaryLength
import SocketIoRust.EngineIoParser.BinaryReading
import SocketIoRust.EngineIoParser.BinaryFrames
import SocketIoRust.EngineIoParser.BinaryRoundTrip
import SocketIoRust.EngineIoParser.NormalForm
import SocketIoRust.EngineIoParser.PayloadGrammar
import SocketIoRust.EngineIoParser.PayloadPrefix
import SocketIoRust.EngineIoParser.EmptyData
import SocketIoRust.EngineIoParser.SinglePacket
import SocketIoRust.EngineIoParser.LengthOverflow
import SocketIoRust.EngineIoParser.Amplification
import SocketIoRust.SocketIoParser.Packet
import SocketIoRust.SocketIoParser.Encoder
import SocketIoRust.SocketIoParser.Decoder
import SocketIoRust.SocketIoParser.PacketData
import SocketIoRust.SocketIoParser.PlainPacket
import SocketIoRust.SocketIoParser.PlainText
import SocketIoRust.SocketIoParser.MultipartPacket
import SocketIoRust.SocketIoParser.Placeholders
import SocketIoRust.SocketIoParser.Reconstruction
import SocketIoRust.SocketIoParser.DataRoundTrip
import SocketIoRust.SocketIoParser.DecodedPacket
import SocketIoRust.SocketIoParser.Grammar
import SocketIoRust.SocketIoParser.Digits
import SocketIoRust.SocketIoParser.Ser
import SocketIoRust.SocketIoParser.SerOutcome
import SocketIoRust.EngineIoServer.Util
import SocketIoRust.EngineIoServer.Transport
import SocketIoRust.EngineIoServer.Socket
import SocketIoRust.EngineIoWarp.Websocket
import SocketIoRust.EngineIoWarp.Wires
import SocketIoRust.EngineIoWarp.Polling
import SocketIoRust.EngineIoWarp.AdapterWarp
import SocketIoRust.EngineIoServer.Lifecycle
import SocketIoRust.EngineIoServer.Interleaving
import SocketIoRust.EngineIoServer.Locking
import SocketIoRust.EngineIoServer.Conservation
import SocketIoRust.EngineIoServer.SendOrder
import SocketIoRust.EngineIoServer.CallbackOrder
import SocketIoRust.EngineIoWarp.PollRuns
import SocketIoRust.EngineIoWarp.TransportEvents
import SocketIoRust.EngineIoWarp.TransportTasks
import SocketIoRust.EngineIoWarp.ClientData
import SocketIoRust.EngineIoServer.CommandLog
import SocketIoRust.EngineIoServer.Server
import SocketIoRust.EngineIoServer.Evolution
import SocketIoRust.EngineIoServer.Node
import SocketIoRust.EngineIoServer.MessageFlow
import SocketIoRust.EngineIoServer.CloseRace
import SocketIoRust.EngineIoWarp.Callbacks
import SocketIoRust.EngineIoWarp.WebsocketCommands
import SocketIoRust.SocketIoServer.Connection
import SocketIoRust.SocketIoServer.Namespace
import SocketIoRust.SocketIoServer.Shared
import SocketIoRust.SocketIoServer.FilteredNamespace
import SocketIoRust.SocketIoServer.Attachments
import SocketIoRust.SocketIoServer.Lookup
import SocketIoRust.SocketIoServer.Messages
import SocketIoRust.SocketIoServer.Decoders
import SocketIoRust.SocketIoServer.Server
import SocketIoRust.SocketIoServer.Requests
import SocketIoRust.SocketIoServer.Moves
import SocketIoRust.SocketIoServer.Directory
import SocketIoRust.SocketIoServer.Registry
import SocketIoRust.SocketIoServer.NamespaceRace
import SocketIoRust.SocketIoServer.Children
import SocketIoRust.SocketIoServer.NamespaceBroadcast
import SocketIoRust.SocketIoServer.ConnectionRace
import SocketIoRust.SocketIoServer.ClientConnect
import SocketIoRust.SocketIoServer.Joins
import SocketIoRust.SocketIoServer.Leaving
import SocketIoRust.SocketIoServer.Members
import SocketIoRust.SocketIoServer.CloseOrder
import SocketIoRust.SocketIoServer.DeliveredPackets
import SocketIoRust.SocketIoServer.HandlerOrder
import SocketIoRust.SocketIoServer.Sessions
import SocketIoRust.SocketIoServer.Stack
import SocketIoRust.SocketIoServer.Responses
