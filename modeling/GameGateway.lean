import GameGateway.Bytes
import GameGateway.Numeral
import GameGateway.Bytes.Hex
import GameGateway.Decoder
import GameGateway.Text
import GameGateway.Buffer
import GameGateway.Checksum
import GameGateway.Endpoint
import GameGateway.Endpoint.Parser
import GameGateway.Packet.Basic
import GameGateway.Packet.Record
import GameGateway.Buffer.Storage
import GameGateway.Packet.Leaf
import GameGateway.Packet.Bundle
import GameGateway.Packet.Fragment
import GameGateway.Packet.Filter
import GameGateway.Message
import GameGateway.Deflate.Bits
import GameGateway.Deflate.Huffman
import GameGateway.Deflate.Tables
import GameGateway.Deflate.Inflate
import GameGateway.Deflate.Compress
import GameGateway.Deflate.Zlib
import GameGateway.Config.Protocol
import GameGateway.Session.Sequence
import GameGateway.Session.Sender
import GameGateway.Session.Receiver
import GameGateway.Session.Handshake
import GameGateway.Session
import GameGateway.Server.Table
import GameGateway.Server
import GameGateway.Server.Dispatch
import GameGateway.Config
import GameGateway.Service.Realm
import GameGateway.Service
import GameGateway.Service.Ping
import GameGateway.Yaml.Place
import GameGateway.Yaml.Token
import GameGateway.Yaml.Scalar.Flow
import GameGateway.Yaml.Scalar.Block
import GameGateway.Yaml.Token.Name
import GameGateway.Yaml.Token.Lexer
import GameGateway.Yaml.Node
import GameGateway.Yaml.Node.Parser
import GameGateway.Yaml.Scalar.Typed
import GameGateway.Yaml.Scalar.Printer
import GameGateway.Config.Parser
import GameGateway.Config.Printer
import GameGateway.Command
import GameGateway.Gateway
import GameGateway.Main
import GameGateway.Proofs.Stream
import GameGateway.Proofs.Fragment
import GameGateway.Proofs.Bundle
import GameGateway.Proofs.Flush
import GameGateway.Proofs.Framing
import GameGateway.Proofs.History
import GameGateway.Proofs.Conservation
import GameGateway.Proofs.Unbounded
import GameGateway.Proofs.Wrapping
import GameGateway.Proofs.Plain
import GameGateway.Proofs.Simulation
import GameGateway.Proofs.Peers
import GameGateway.Proofs.Link
import GameGateway.Proofs.Progress
import GameGateway.Proofs.Exchange
import GameGateway.Proofs.Filtering
import GameGateway.Proofs.Identity
import GameGateway.Proofs.Acts
import GameGateway.Proofs.Roster
import GameGateway.Proofs.Players
import GameGateway.Proofs.Authentication
import GameGateway.Proofs.Games
import GameGateway.Proofs.Leaks
import GameGateway.Proofs.Replacement
import GameGateway.Proofs.Operations
import GameGateway.Proofs.Removal
import GameGateway.Proofs.Occupancy
import GameGateway.Proofs.Isolation
import GameGateway.Proofs.SizeLimit
import GameGateway.Proofs.Lossless
import GameGateway.Proofs.Container
import GameGateway.Proofs.Upkeep
import GameGateway.Proofs.Held
import GameGateway.Proofs.Flight
import GameGateway.Proofs.Lifecycle
import GameGateway.Proofs.Silence
import GameGateway.Proofs.Numbering
import GameGateway.Proofs.Retransmission
import GameGateway.Proofs.Patience
import GameGateway.Proofs.Reordering
import GameGateway.Proofs.Reassembly
import GameGateway.Proofs.Forms
import GameGateway.Proofs.Records
import GameGateway.Proofs.Text
import GameGateway.Proofs.Values
import GameGateway.Proofs.Cursor
import GameGateway.Proofs.Storage
import GameGateway.Proofs.Message
import GameGateway.Proofs.Checksum
import GameGateway.Proofs.BitSerial
import GameGateway.Proofs.Activity
import GameGateway.Proofs.Handshake
import GameGateway.Proofs.Dispatching
