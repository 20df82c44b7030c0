import GameGateway.Bytes.Hex
import GameGateway.Command
import GameGateway.Config.Parser
import GameGateway.Endpoint.Parser
import GameGateway.Gateway

/-!
# The program

Runs a gateway over standard input and output. A line holds the service that a datagram is for, `connection`
or `ping`, its sender, and its bytes in hexadecimal; answers are lines of the same form with the receiver.
-/

namespace GameGateway.Program

/-- Reads a line. -/
def arrival? (line : String) : Option Arrival :=
  match piecesBetween ' ' (line.toList.filter fun c => c ≠ '\n' && c ≠ '\r') with
  | [service, sender, digits] => do
    let sender ← Endpoint.parse? (String.ofList sender)
    let bytes ← Bytes.ofHex? digits
    match String.ofList service with
    | "connection" => return .datagram sender bytes
    | "ping" => return .ping sender bytes
    | _ => none
  | _ => none

/-- Writes the datagrams of a service. -/
def send (output : IO.FS.Stream) (service : String) (sent : List (Endpoint × Bytes)) : IO Unit := do
  for (receiver, bytes) in sent do
    output.putStrLn (service ++ " " ++ receiver.text ++ " " ++ bytes.hex)
  output.flush

/-- The service that an arrival is for. -/
def serviceName : Arrival → String
  | .datagram .. => "connection"
  | .ping .. => "ping"

/-- Serves until the input ends. -/
partial def serve (input output : IO.FS.Stream) (gateway : Gateway) : IO Unit := do
  let line ← input.getLine
  let now ← IO.monoMsNow
  let (sent, gateway) := gateway.tick now
  send output "connection" sent
  if line.isEmpty then send output "connection" gateway.stop
  else
    match arrival? line with
    | none => serve input output gateway
    | some arrival =>
      let seed ← IO.rand 0 (UInt32.size - 1)
      let (sent, gateway) := gateway.receive now (UInt32.ofNat seed) arrival
      send output (serviceName arrival) sent
      serve input output gateway

/-- Loads the configuration of a file. -/
def load (path : String) : IO (Except ConfigError ServerConfig) := do
  let contents ← (IO.FS.readBinFile path).toBaseIO
  return ServerConfig.ofFile path (contents.toOption.map fun bytes => bytes.data.toList)

/-- Does what the command says; answers the exit code. -/
def run : Command → IO UInt32
  | .help => do
    IO.println Command.usage
    return 0
  | .missingFile => do
    IO.eprintln Command.missingFileText
    return 0
  | .serve path => do
    match ← load path with
    | .error e =>
      IO.eprintln (Command.loadFailure path e.message)
      return 1
    | .ok config =>
      serve (← IO.getStdin) (← IO.getStdout) (Gateway.ofConfig config)
      return 0

end GameGateway.Program

/-- Runs the program. -/
def main (args : List String) : IO UInt32 := GameGateway.Program.run (GameGateway.Command.ofArgs args)
