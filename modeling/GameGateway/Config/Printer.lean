import GameGateway.Config
import GameGateway.Yaml.Scalar.Printer

/-!
# Writing configurations

A configuration is written as a YAML mapping with all its fields, in the order of their declaration.
-/

namespace GameGateway

namespace ServerConfig

/-- A line with a number. -/
def numberLine (key : String) (value : Nat) : String := key ++ ": " ++ toString value ++ "\n"

/-- The lines of the transport settings. -/
def protocolLines (config : ProtocolConfig) : List String :=
  [numberLine "max_udp_size" config.maxUdpSize.toNat,
    numberLine "crc_length" config.crcLength.toNat,
    "compression: " ++ (if config.compression then "true" else "false") ++ "\n",
    numberLine "compression_threshold" config.compressionThreshold.toNat,
    numberLine "update_interval_ms" config.updateIntervalMs.toNat,
    numberLine "resend_delay_ms" config.resendDelayMs.toNat,
    numberLine "max_resends" config.maxResends.toNat,
    numberLine "timeout_secs" config.timeoutSecs.toNat,
    numberLine "window_size" config.windowSize.toNat]

/-- The entry of a development account. -/
def renderAccount (account : DevAccount) : String :=
  "- session_key: " ++ Yaml.Scalar.renderLine 4 account.sessionKey ++
    "  " ++ numberLine "account_id" account.accountId.toNat ++
    "  " ++ numberLine "player_id" account.playerId.toNat ++
    "  " ++ numberLine "max_characters" account.maxCharacters.toNat

/-- The text of a configuration. -/
def render (config : ServerConfig) : String :=
  "listen_address: " ++ Yaml.Scalar.renderLine 2 config.listenAddress ++
    numberLine "listen_port" config.listenPort.toNat ++
    numberLine "ping_port" config.pingPort.toNat ++
    numberLine "max_sessions" config.maxSessions.toNat ++
    numberLine "galaxy_status" config.galaxyStatus.toNat ++
    "protocol:\n" ++ String.join ((protocolLines config.protocol).map ("  " ++ ·)) ++
    (if config.devAccounts.isEmpty then "dev_accounts: []\n"
      else "dev_accounts:\n" ++ String.join (config.devAccounts.map renderAccount))

end ServerConfig

end GameGateway
