import GameGateway.Checksum
import GameGateway.Text

/-!
# Endpoints

An endpoint is an IP address and a UDP port; it is the identity of a peer. Its text is `1.2.3.4:5` or
`[2001:db8::1]:443`. An IPv6 address is written in lower case without leading zeros, its first longest
run of two or more zero groups as `::`, and an IPv4-mapped one with a dotted end.
-/

namespace GameGateway

/-- An IP address. The scope of an IPv6 address is a local interface number, 0 for none. -/
inductive Address where
  | v4 (a b c d : UInt8)
  | v6 (groups : Vector UInt16 8) (scope : UInt32)
  deriving DecidableEq, Repr

/-- Where a peer's datagrams come from and go to. -/
structure Endpoint where
  address : Address
  port : UInt16
  deriving DecidableEq, Repr

namespace Address

/-- Four octets, dotted. -/
def dotted (a b c d : UInt8) : String :=
  ".".intercalate ([a, b, c, d].map fun octet => toString octet.toNat)

/-- Groups in hexadecimal, separated by colons. -/
def colons (groups : List UInt16) : String :=
  ":".intercalate (groups.map fun group => String.ofList (Nat.toDigits 16 group.toNat))

/-- The start and length of the first longest run of zero groups, given the position of the next
group, the run that ends there and the best run so far. -/
def zeroRunFrom (position : Nat) (current best : Nat × Nat) : List UInt16 → Nat × Nat
  | [] => best
  | group :: rest =>
    if group = 0 then
      let current := if current.2 = 0 then (position, 1) else (current.1, current.2 + 1)
      zeroRunFrom (position + 1) current (if best.2 < current.2 then current else best) rest
    else zeroRunFrom (position + 1) (0, 0) best rest

/-- The start and length of the first longest run of zero groups. -/
def zeroRun (groups : List UInt16) : Nat × Nat := zeroRunFrom 0 (0, 0) (0, 0) groups

/-- The text of an address, without its scope. -/
def text : Address → String
  | v4 a b c d => dotted a b c d
  | v6 groups _ =>
    match groups.toList with
    | [0, 0, 0, 0, 0, 0xFFFF, high, low] =>
      "::ffff:" ++ dotted (high >>> 8).toUInt8 high.toUInt8 (low >>> 8).toUInt8 low.toUInt8
    | groups =>
      let (start, length) := zeroRun groups
      if 1 < length then
        colons (groups.take start) ++ "::" ++ colons (groups.drop (start + length))
      else colons groups

end Address

namespace Endpoint

/-- The text of an endpoint. -/
def text (endpoint : Endpoint) : String :=
  let port := ":" ++ toString endpoint.port.toNat
  match endpoint.address with
  | .v4 .. => endpoint.address.text ++ port
  | .v6 _ scope =>
    let scope := if scope = 0 then "" else "%" ++ toString scope.toNat
    "[" ++ endpoint.address.text ++ scope ++ "]" ++ port

/-- The checksum of address and port, without brackets and scope. It is a short key for logs and no
identity: two endpoints may share it. -/
def hash (endpoint : Endpoint) : UInt32 :=
  Checksum.forward (Utf8.encode (endpoint.address.text ++ ":" ++ toString endpoint.port.toNat))

end Endpoint

end GameGateway
