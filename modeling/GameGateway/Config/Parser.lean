import GameGateway.Config
import GameGateway.Text
import GameGateway.Yaml.Node.Parser
import GameGateway.Yaml.Scalar.Typed

/-!
# Reading configurations

A configuration is a YAML mapping. Only the address to listen on has to be given, and for each development account
all but its number of characters; what is not known is passed over. A known key may not be given twice.
-/

namespace GameGateway

/-- Why a configuration was not loaded or saved. -/
inductive ConfigError where
  | unreadable (path : String)
  /-- Not a configuration; the path is that of the file it comes from. -/
  | malformed (path : Option String)
  | invalid (fault : ServerConfig.Fault)
  | unwritable (path : String)
  deriving DecidableEq, Repr

/-- The text of an error. -/
def ConfigError.message : ConfigError → String
  | unreadable path => "Failed to read config file: " ++ path
  | malformed none => "Failed to parse YAML"
  | malformed (some path) => "Failed to parse YAML in " ++ path
  | invalid fault => fault.message
  | unwritable path => "Failed to write config to " ++ path

open Yaml (Document Node)

/-- The entries of a mapping by key. -/
abbrev Entries := List (String × Node)

namespace Entries

/-- The entries of a mapping, all of whose keys are scalars. -/
def ofNode? (document : Document) (node : Node) : Option Entries := do
  (← document.pairs? node).mapM fun (key, value) => do return (← document.text? key, value)

/-- The value of a key that may be given once; the default stands for a key that is not given. -/
def get? {α : Type} (entries : Entries) (key : String) (read : Node → Option α) (default : Option α) :
    Option α :=
  match entries.filter (·.1 = key) with
  | [] => default
  | [(_, node)] => read node
  | _ => none

end Entries

namespace ServerConfig

/-- Reads a word that is not negative. -/
def word? (α : Type) [Fixed α] (document : Document) (node : Node) : Option α := do
  let value ← Yaml.Scalar.natural? (← document.typedText? Yaml.Scalar.integerTag node)
  if value < Bytes.words (Fixed.width α) then some (Fixed.ofNat value) else none

/-- Reads a truth value. -/
def boolean? (document : Document) (node : Node) : Option Bool := do
  Yaml.Scalar.boolean? (← document.typedText? Yaml.Scalar.booleanTag node)

/-- Reads the settings of the transport. -/
def protocol? (document : Document) (node : Node) : Option ProtocolConfig := do
  let entries ← Entries.ofNode? document node
  let default : ProtocolConfig := {}
  return {
    maxUdpSize := ← entries.get? "max_udp_size" (word? UInt32 document) default.maxUdpSize
    crcLength := ← entries.get? "crc_length" (word? UInt8 document) default.crcLength
    compression := ← entries.get? "compression" (boolean? document) default.compression
    compressionThreshold :=
      ← entries.get? "compression_threshold" (word? UInt64 document) default.compressionThreshold
    updateIntervalMs := ← entries.get? "update_interval_ms" (word? UInt64 document) default.updateIntervalMs
    resendDelayMs := ← entries.get? "resend_delay_ms" (word? UInt64 document) default.resendDelayMs
    maxResends := ← entries.get? "max_resends" (word? UInt32 document) default.maxResends
    timeoutSecs := ← entries.get? "timeout_secs" (word? UInt64 document) default.timeoutSecs
    windowSize := ← entries.get? "window_size" (word? UInt16 document) default.windowSize }

/-- Reads a development account. -/
def devAccount? (document : Document) (node : Node) : Option DevAccount := do
  let entries ← Entries.ofNode? document node
  let sessionKey ← entries.get? "session_key" document.text? none
  let accountId ← entries.get? "account_id" (word? UInt32 document) none
  let playerId ← entries.get? "player_id" (word? UInt64 document) none
  let default : DevAccount := { sessionKey, accountId, playerId }
  let maxCharacters ← entries.get? "max_characters" (word? UInt32 document) default.maxCharacters
  return { default with maxCharacters }

/-- Reads a configuration, valid or not. -/
def ofDocument? (document : Document) : Option ServerConfig := do
  let entries ← Entries.ofNode? document document.root
  let address ← entries.get? "listen_address" document.text? none
  let default : ServerConfig := { listenAddress := address }
  return {
    listenAddress := address
    listenPort := ← entries.get? "listen_port" (word? UInt16 document) default.listenPort
    pingPort := ← entries.get? "ping_port" (word? UInt16 document) default.pingPort
    maxSessions := ← entries.get? "max_sessions" (word? UInt64 document) default.maxSessions
    galaxyStatus := ← entries.get? "galaxy_status" (word? UInt8 document) default.galaxyStatus
    protocol := ← entries.get? "protocol" (protocol? document) default.protocol
    devAccounts :=
      ← entries.get? "dev_accounts" (fun node => do (← document.items? node).mapM (devAccount? document))
        default.devAccounts }

/-- Reads a valid configuration from a text, which comes from a file if a path is given. -/
def ofText (path : Option String) (text : String) : Except ConfigError ServerConfig :=
  match (Document.ofText? text).bind ofDocument? with
  | none => .error (.malformed path)
  | some config =>
    match config.fault? with
    | some fault => .error (.invalid fault)
    | none => .ok config

/-- Reads a valid configuration from a file, given what the file holds, if anything. -/
def ofFile (path : String) (contents : Option Bytes) : Except ConfigError ServerConfig :=
  match contents.bind Utf8.decode? with
  | none => .error (.unreadable path)
  | some text => ofText (some path) text

end ServerConfig

end GameGateway
