import GameGateway.Packet.Record

/-!
# Bundles of messages

A data payload is one message, or the pair `00 19` and a record for each of several. Every message
opens with a small little-endian count, so that no single message opens with this pair.
-/

namespace GameGateway.Bundle

/-- One payload for a list of messages. -/
def pack : List Bytes → Except FramingError Bytes
  | [message] => .ok message
  | messages => do
    let records ← messages.mapM Record.encode
    return Opcode.bytes Opcode.multiMessage ++ records.flatten

/-- The messages of a payload. -/
def unpack (payload : Bytes) : Except ReadError (List Bytes) :=
  match payload with
  | 0x00 :: 0x19 :: body =>
    match Record.all body with
    | (messages, none) => .ok messages
    | (_, some e) => .error e
  | _ => .ok [payload]

/-- Bytes that a message takes inside a bundle. -/
def cost (message : Bytes) : Nat := SizePrefix.length message.length + message.length

/-- Bytes of a bundle. -/
def size (messages : List Bytes) : Nat := messages.foldl (fun size message => size + cost message) 2

@[simp] theorem size_nil : size [] = 2 := rfl

@[simp] theorem size_concat (messages : List Bytes) (message : Bytes) :
    size (messages ++ [message]) = size messages + cost message := by
  simp [size]

end GameGateway.Bundle
