import GameGateway.Message
import GameGateway.Proofs.Text

/-!
# Messages say where they end

Each kind of message is read from exactly the bytes it is written as, and a message that is cut anywhere, be it inside a
count or inside a character, is an underflow: `Message.decode_encoded_or_cut`.
-/

namespace GameGateway

namespace Message

namespace Kind

variable {kind : Kind} {body : kind.Body}

/-- The counts in the body can say how long its texts are. -/
def Fits : (kind : Kind) → kind.Body → Prop
  | clientId, body => body.sessionKey.utf8ByteSize < 2 ^ 32 ∧ body.version.utf8ByteSize ≤ 65535
  | clientPermissions, _ | sceneReady, _ | heartBeat, _ => True

theorem reads_clientId {body : ClientId} (h : clientId.Fits body) :
    clientId.decodeBody.Reads (clientId.encodeBody body) body := by
  obtain ⟨hkey, hversion⟩ := h
  have hcount : (UInt32.ofNat body.sessionKey.utf8ByteSize).toNat = body.sessionKey.utf8ByteSize :=
    UInt32.toNat_ofNat_of_lt hkey
  have hreadsKey := Text.Width.reads_utf8 body.sessionKey
  rw [← hcount] at hreadsKey
  have hreadsVersion : Text.decodeNarrow.Reads (Text.encodeNarrow body.version) body.version :=
    Text.Width.reads (w := .narrow) hversion
  have h : clientId.decodeBody.Reads
      (Fixed.encode .little body.gameBits ++ (Fixed.encode .little (UInt32.ofNat body.sessionKey.utf8ByteSize) ++
        (Utf8.encode body.sessionKey ++ (Text.encodeNarrow body.version ++ [])))) body :=
    .bind (.fixed .little body.gameBits) (.bind (.fixed .little _) (.bind hreadsKey (.bind hreadsVersion (.pure body))))
  simpa [encodeBody] using h

theorem reads_clientPermissions (body : ClientPermissions) :
    clientPermissions.decodeBody.Reads (clientPermissions.encodeBody body) body := by
  have h : clientPermissions.decodeBody.Reads
      (Fixed.encode .little body.galaxyAvailable ++ (Fixed.encode .little body.availableCharacterSlots ++
        (Fixed.encode .little body.unlimitedCharacters ++ []))) body :=
    .bind (.fixed .little _) (.bind (.fixed .little _) (.bind (.fixed .little _) (.pure body)))
  simp only [Fixed.encode_uint8] at h
  exact h

theorem reads_body (h : kind.Fits body) : kind.decodeBody.Reads (kind.encodeBody body) body := by
  cases kind with
  | clientId => exact reads_clientId h
  | clientPermissions => exact reads_clientPermissions body
  | sceneReady => exact .pure ()
  | heartBeat => exact .pure ()

end Kind

theorem reads_header (count : UInt16) (opcode : UInt32) :
    decodeHeader.Reads (Fixed.encode .little count ++ Fixed.encode .little opcode) (count, opcode) := by
  have h : decodeHeader.Reads (Fixed.encode .little count ++ (Fixed.encode .little opcode ++ [])) (count, opcode) :=
    .bind (.fixed .little count) (.bind (.fixed .little opcode) (.pure _))
  rwa [List.append_nil] at h

theorem reads {kind : Kind} {body : kind.Body} (h : kind.Fits body) : (decode kind).Reads (encode kind body) body :=
  (reads_header kind.operandCount kind.opcode).bind (Kind.reads_body h)

/-- A message of any kind, with whatever bytes behind it, is read as itself, and these bytes are left. No matter where it
is cut, what is left of it is an underflow and neither a message nor an invalid text. -/
theorem decode_encoded_or_cut (kind : Kind) (body : kind.Body) (h : kind.Fits body) :
    (∀ rest, (decode kind).run (encode kind body ++ rest) = (.ok body, rest)) ∧
      ∀ front, front <+: encode kind body → front ≠ encode kind body →
        ∃ requested available, available < requested ∧
          (decode kind).value front = .error (.underflow requested available) := by
  refine ⟨(reads h).run_append, fun front hfront hne => ?_⟩
  obtain ⟨_, rest, ⟨requested, available, hlt, rfl⟩, hrun⟩ := (reads h).underflow front hfront hne
  exact ⟨requested, available, hlt, congrArg Prod.fst hrun⟩

/-- A login of two texts beyond ASCII, with a byte behind it, and cut inside a character of each text. -/
theorem decode_encoded_or_cut_multibyte :
    let body : ClientId := { gameBits := 7, sessionKey := "é", version := "😀" }
    let bytes : Bytes := [3, 0, 0x26, 0x92, 0x89, 0xD5, 7, 0, 0, 0, 2, 0, 0, 0, 0xC3, 0xA9, 4, 0, 0xF0, 0x9F, 0x98, 0x80]
    Kind.clientId.Fits body ∧ encode .clientId body = bytes ∧
      (decode .clientId).run (bytes ++ [0xFF]) = (.ok body, [0xFF]) ∧
      ∀ cut ∈ [15, 21], bytes.take cut <+: bytes ∧ bytes.take cut ≠ bytes ∧
        ∃ requested available, available < requested ∧
          (decode .clientId).value (bytes.take cut) = .error (.underflow requested available) := by
  intro body bytes
  have hfits : Kind.clientId.Fits body := by
    constructor <;> decide
  have hbytes : encode .clientId body = bytes := by decide +kernel
  have hmessage := decode_encoded_or_cut .clientId body hfits
  rw [hbytes] at hmessage
  refine ⟨hfits, hbytes, hmessage.1 [0xFF], fun cut hcut => ?_⟩
  have hfront : bytes.take cut <+: bytes := List.take_prefix cut bytes
  have hne : bytes.take cut ≠ bytes := by
    revert cut
    decide
  exact ⟨hfront, hne, hmessage.2 _ hfront hne⟩

end Message

end GameGateway
