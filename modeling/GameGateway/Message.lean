import GameGateway.Text

/-!
# Application messages

A message is a 16-bit operand count, a 32-bit opcode and a body, all little-endian. The opcode tells the
kind; the count is fixed for each kind, and readers do not check it.

## Implementation notes

`Message.Kind.Body` makes the type of a body depend on the kind, so that a handler for one kind gets
exactly that body and one statement covers the codecs of all kinds.
-/

namespace GameGateway

/-- Proof of login: the session key that the login server issued, and the client's version. -/
structure ClientId where
  gameBits : UInt32 := 0
  sessionKey : String := ""
  version : String := ""
  deriving DecidableEq, Repr, Inhabited

/-- What an accepted client may do. -/
structure ClientPermissions where
  galaxyAvailable : UInt8 := 0
  availableCharacterSlots : UInt8 := 0
  unlimitedCharacters : UInt8 := 0
  deriving DecidableEq, Repr, Inhabited

namespace Message

/-- The kinds of messages. -/
inductive Kind where
  /-- The first message of a client. -/
  | clientId
  /-- The answer to an accepted `clientId`. -/
  | clientPermissions
  /-- The client has loaded the scene; the server says it back. -/
  | sceneReady
  /-- A sign of life. -/
  | heartBeat
  deriving DecidableEq, Repr

namespace Kind

/-- The body of a message of this kind. -/
abbrev Body : Kind → Type
  | clientId => ClientId
  | clientPermissions => ClientPermissions
  | sceneReady | heartBeat => Unit

/-- The operand count in the header. -/
def operandCount : Kind → UInt16
  | clientId => 3
  | clientPermissions => 4
  | sceneReady | heartBeat => 1

/-- The opcode in the header. -/
def opcode : Kind → UInt32
  | clientId => 0xD5899226
  | clientPermissions => 0xE00730E5
  | sceneReady => 0x43FD1C22
  | heartBeat => 0xA16CF9AF

/-- The wire form of a body. The key's count has 32 bits and the version is a narrow text. -/
def encodeBody : (kind : Kind) → kind.Body → Bytes
  | clientId, body =>
    let key := Utf8.encode body.sessionKey
    Fixed.encode .little body.gameBits ++ Fixed.encode .little (UInt32.ofNat key.length) ++ key ++
      Text.encodeNarrow body.version
  | clientPermissions, body =>
    [body.galaxyAvailable, body.availableCharacterSlots, body.unlimitedCharacters]
  | sceneReady, _ | heartBeat, _ => []

/-- Reads a body. -/
def decodeBody : (kind : Kind) → Decoder kind.Body
  | clientId => do
    let gameBits ← Decoder.fixed UInt32 .little
    let count ← Decoder.fixed UInt32 .little
    let sessionKey ← Text.decodeUtf8 count.toNat
    let version ← Text.decodeNarrow
    return { gameBits, sessionKey, version }
  | clientPermissions => do
    let galaxyAvailable ← Decoder.fixed UInt8 .little
    let availableCharacterSlots ← Decoder.fixed UInt8 .little
    let unlimitedCharacters ← Decoder.fixed UInt8 .little
    return { galaxyAvailable, availableCharacterSlots, unlimitedCharacters }
  | sceneReady | heartBeat => return ()

end Kind

/-- Reads the operand count and the opcode. -/
def decodeHeader : Decoder (UInt16 × UInt32) := do
  let count ← Decoder.fixed UInt16 .little
  let opcode ← Decoder.fixed UInt32 .little
  return (count, opcode)

/-- The wire form of a message. -/
def encode (kind : Kind) (body : kind.Body) : Bytes :=
  Fixed.encode .little kind.operandCount ++ Fixed.encode .little kind.opcode ++ kind.encodeBody body

/-- Reads a message as one of the given kind; the header is passed over unchecked. -/
def decode (kind : Kind) : Decoder kind.Body := do
  let _ ← decodeHeader
  kind.decodeBody

end Message

end GameGateway
