import GameGateway.Packet.Record

/-!
# Fragments of oversized messages

A message that exceeds a packet is cut into fragments: the first opens with the message's size as a
32-bit big-endian number, and all but the last are full. The receiver collects fragments until it has
that many bytes; a fragment that brings more is a violation of the protocol.
-/

namespace GameGateway

/-- What a peer may not do. -/
inductive Violation where
  /-- A first fragment has no room for the total. -/
  | shortFirstFragment
  /-- A first fragment announces an empty message. -/
  | emptyTotal
  /-- Fragments bring more than was announced. -/
  | overfull (carried total : Nat)
  deriving DecidableEq, Repr

/-- The text of a violation. -/
def Violation.reason : Violation → String
  | shortFirstFragment => "first fragment shorter than its size prefix"
  | emptyTotal => "fragment total size is zero"
  | overfull carried total =>
    "fragments carry " ++ toString carried ++ " bytes for a " ++ toString total ++ " byte message"

/-- The text of a violation by a peer. -/
def Violation.message (endpointText : String) (v : Violation) : String :=
  "Protocol violation from " ++ endpointText ++ ": " ++ v.reason

namespace Fragment

/-- Bytes of the total at the front of the first fragment. -/
def totalLength : Nat := 4

/-- The pieces of `size` bytes of a byte string, the last one as long as it comes. -/
def chunks (size : Nat) : Bytes → List Bytes
  | [] => []
  | b :: bs => (b :: bs.take (size - 1)) :: chunks size (bs.drop (size - 1))
termination_by bytes => bytes.length
decreasing_by simp only [List.length_cons, List.length_drop]; omega

/-- The fragments of a message, each of at most `limit` bytes. -/
def split (message : Bytes) (limit : Nat) : Except FramingError (List Bytes) :=
  let size := message.length
  if size ≤ limit then .error (.notOversized size limit)
  else if limit ≤ totalLength then .error (.noRoom limit)
  else if 4294967296 ≤ size then .error (.exceedsTotal size)
  else
    let first := limit - totalLength
    .ok ((Fixed.encode .big (UInt32.ofNat size) ++ message.take first) ::
      chunks limit (message.drop first))

/-- A message of which some fragments have arrived. -/
structure Assembly where
  /-- The announced size. -/
  total : Nat
  /-- What has arrived. -/
  data : Bytes
  deriving DecidableEq, Repr

/-- The assembly that a first fragment starts. -/
def start (payload : Bytes) : Except Violation Assembly :=
  match (Decoder.fixed UInt32 .big).run payload with
  | (.ok total, data) => if total = 0 then .error .emptyTotal else .ok ⟨total.toNat, data⟩
  | (.error _, _) => .error .shortFirstFragment

/-- Takes the next fragment: the assembly goes on, or the message is complete and none is left. -/
def accept (assembly : Option Assembly) (payload : Bytes) :
    Except Violation (Option Assembly × Option Bytes) := do
  let current ← match assembly with
    | some a => .ok { a with data := a.data ++ payload }
    | none => start payload
  if current.total < current.data.length then
    throw (.overfull current.data.length current.total)
  else if current.data.length = current.total then return (none, some current.data)
  else return (some current, none)

end Fragment

end GameGateway
