/-!
# Transport settings

The tunables of the reliable transport and their bounds. A session takes any values; only
`ProtocolConfig.fault?` knows the bounds.
-/

namespace GameGateway

/-- Settings of the reliable transport. -/
structure ProtocolConfig where
  /-- Largest datagram that either side sends. -/
  maxUdpSize : UInt32 := 496
  /-- Bytes of the checksum footer, 0 for none. -/
  crcLength : UInt8 := 2
  /-- Whether bodies may be compressed. -/
  compression : Bool := true
  /-- Bodies shorter than this are never compressed. -/
  compressionThreshold : UInt64 := 32
  /-- Milliseconds between maintenance passes. -/
  updateIntervalMs : UInt64 := 5
  /-- Milliseconds after which an unacknowledged packet is sent again. -/
  resendDelayMs : UInt64 := 1000
  /-- How often a packet is sent again before the session is given up. -/
  maxResends : UInt32 := 30
  /-- Seconds of silence after which a session is given up. -/
  timeoutSecs : UInt64 := 60
  /-- Sequence numbers accepted ahead of the expected one, and packets allowed in flight. -/
  windowSize : UInt16 := 128
  deriving DecidableEq, Repr, Inhabited

/-- The smallest datagram size that leaves room for headers, filter and a fragment's total. -/
def minUdpSize : UInt32 := 64

/-- The longest footer. -/
def maxCrcLength : UInt8 := 4

/-- The widest window for which sequence numbers compare unambiguously. -/
def maxWindowSize : UInt16 := 0x7FFF

namespace ProtocolConfig

/-- Settings that a server does not start with. -/
inductive Fault where
  | udpSizeTooSmall (size : UInt32)
  | crcTooLong (length : UInt8)
  | noUpdateInterval
  | noTimeout
  | windowOutOfRange (size : UInt16)
  deriving DecidableEq, Repr

/-- The text of a fault. -/
def Fault.message : Fault → String
  | udpSizeTooSmall size =>
    "max_udp_size too small: " ++ toString size.toNat ++ " (min " ++ toString minUdpSize.toNat ++ ")"
  | crcTooLong length =>
    "crc_length too large: " ++ toString length.toNat ++ " (max " ++ toString maxCrcLength.toNat ++ ")"
  | noUpdateInterval => "update_interval_ms cannot be 0"
  | noTimeout => "timeout_secs cannot be 0"
  | windowOutOfRange size =>
    "window_size out of range: " ++ toString size.toNat ++ " (1..=" ++
      toString maxWindowSize.toNat ++ ")"

/-- The first fault, if there is one. -/
def fault? (config : ProtocolConfig) : Option Fault :=
  if config.maxUdpSize < minUdpSize then some (.udpSizeTooSmall config.maxUdpSize)
  else if maxCrcLength < config.crcLength then some (.crcTooLong config.crcLength)
  else if config.updateIntervalMs = 0 then some .noUpdateInterval
  else if config.timeoutSecs = 0 then some .noTimeout
  else if config.windowSize = 0 ∨ maxWindowSize < config.windowSize then
    some (.windowOutOfRange config.windowSize)
  else none

/-- Milliseconds of silence that a session survives. -/
def timeoutMs (config : ProtocolConfig) : Nat := config.timeoutSecs.toNat * 1000

end ProtocolConfig

end GameGateway
