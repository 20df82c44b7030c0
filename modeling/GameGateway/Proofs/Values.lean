import GameGateway.Proofs.Text

/-!
# Values of many types in one buffer

A buffer holds words of ten fixed-width types in both byte orders and texts of two widths (`ValueType`). Each of them is
read from exactly the bytes it was written as, whatever was written behind it (`ValueType.reads`), and so is a list of
them, whatever types it mixes: `Buffer.readAll_writeAll`.
-/

namespace GameGateway

/-- The types of values in buffers. -/
inductive ValueType where
  | scalar (type : ScalarType) (order : ByteOrder)
  | text (width : Text.Width)
  deriving DecidableEq, Repr

namespace ValueType

/-- The values of a type. -/
abbrev Value : ValueType → Type
  | scalar type _ => type.Value
  | text _ => String

/-- Words always fit, texts if their count can say how long they are. -/
def Fits : (t : ValueType) → t.Value → Prop
  | scalar _ _, _ => True
  | text width, value => width.Fits value

instance (t : ValueType) (value : t.Value) : Decidable (t.Fits value) :=
  match t with
  | scalar _ _ => inferInstanceAs (Decidable True)
  | text width => inferInstanceAs (Decidable (width.Fits value))

/-- The bytes a value is written as. -/
def encode : (t : ValueType) → t.Value → Bytes
  | scalar _ order, value => Fixed.encode order value
  | text width, value => width.encode value

/-- Reads a value. -/
def decode : (t : ValueType) → Decoder t.Value
  | scalar type order => Decoder.fixed type.Value order
  | text width => width.decode

theorem reads {t : ValueType} {value : t.Value} (h : t.Fits value) : t.decode.Reads (t.encode value) value := by
  cases t with
  | scalar type order => exact .fixed order value
  | text width => exact Text.Width.reads h

end ValueType

namespace Buffer

/-- A value with its type. -/
abbrev Entry : Type := (t : ValueType) × t.Value

/-- Writes values, in order. -/
def writeAll (b : Buffer) (entries : List Entry) : Buffer :=
  entries.foldl (fun b entry => b.write (entry.1.encode entry.2)) b

/-- Reads values of the given types, in order, up to the first that cannot be read. -/
def readAll (b : Buffer) : List ValueType → Except ReadError (List Entry) × Buffer
  | [] => (.ok [], b)
  | t :: types =>
    match b.read t.decode with
    | (.ok value, b') =>
      match b'.readAll types with
      | (.ok entries, b'') => (.ok (⟨t, value⟩ :: entries), b'')
      | (.error e, b'') => (.error e, b'')
    | (.error e, b') => (.error e, b')

/-- The bytes that values are written as. -/
def bytesOf (entries : List Entry) : Bytes := entries.flatMap fun entry => entry.1.encode entry.2

variable {b b' : Buffer} {entries : List Entry}

theorem writeAll_eq (b : Buffer) (entries : List Entry) : b.writeAll entries = b.write (bytesOf entries) := by
  induction entries generalizing b with
  | nil => simp [writeAll, bytesOf, write]
  | cons entry entries ih =>
    have hstep : b.writeAll (entry :: entries) = (b.write (entry.1.encode entry.2)).writeAll entries := rfl
    rw [hstep, ih]
    simp [write, bytesOf]

/-- Values are read from the bytes they are written as. -/
theorem Consumes.readAll (h : b.Consumes (bytesOf entries) b') (hfits : ∀ entry ∈ entries, entry.1.Fits entry.2) :
    b.readAll (entries.map Sigma.fst) = (.ok entries, b') := by
  induction entries generalizing b with
  | nil =>
    obtain rfl := h.eq_of_nil
    rfl
  | cons entry entries ih =>
    obtain ⟨hfirst, hrest⟩ := List.forall_mem_cons.1 hfits
    have hboth : b.Consumes (entry.1.encode entry.2 ++ bytesOf entries) b' := h
    obtain ⟨b₁, hvalue, hentries⟩ := hboth.split
    have hread : b.read entry.1.decode = (.ok entry.2, b₁) := by
      refine hvalue.read ?_
      rw [hvalue.unread, (ValueType.reads hfirst).run_append]
    rw [List.map_cons, Buffer.readAll, hread]
    simp only [ih hentries hrest]

/-- Once what was unread before is consumed, be it before or after values are written, reading their types gives the
values and leaves nothing. -/
theorem readAll_writeAll (b : Buffer) (entries : List Entry) (hfits : ∀ entry ∈ entries, entry.1.Fits entry.2) :
    ((b.read Decoder.takeAll).2.writeAll entries).readAll (entries.map Sigma.fst) =
        (.ok entries, ⟨(b.writeAll entries).written, []⟩) ∧
      ((b.writeAll entries).read (Decoder.take b.size)).2.readAll (entries.map Sigma.fst) =
        (.ok entries, ⟨(b.writeAll entries).written, []⟩) := by
  have hdrained : b.read Decoder.takeAll = (.ok b.unread, ⟨b.written, []⟩) :=
    Consumes.read ⟨rfl, (List.append_nil _).symm⟩ rfl
  have htaken : (b.writeAll entries).read (Decoder.take b.size) = (.ok b.unread, ⟨b.written, bytesOf entries⟩) := by
    rw [writeAll_eq]
    exact Consumes.read ⟨rfl, rfl⟩ (Decoder.run_take_append b.unread (bytesOf entries))
  have hwritten : (b.writeAll entries).written = b.written ++ bytesOf entries := by
    rw [writeAll_eq, written_write]
  constructor
  · rw [hdrained, writeAll_eq, hwritten]
    exact Consumes.readAll ⟨rfl, (List.append_nil _).symm⟩ hfits
  · rw [htaken, hwritten]
    exact Consumes.readAll ⟨rfl, (List.append_nil _).symm⟩ hfits

/-- Words of both signs in both orders, a bit pattern that is no number and texts beyond ASCII and beyond the basic plane,
behind one byte that was read and one that was not. -/
theorem readAll_writeAll_mixed :
    let b : Buffer := ⟨[1], [2]⟩
    let entries : List Entry := [⟨.scalar .i16 .big, -2⟩, ⟨.scalar .u32 .little, 0xDEADBEEF⟩,
      ⟨.scalar .f32 .big, 0x7FC00001⟩, ⟨.text .narrow, "é"⟩, ⟨.text .wide, "a😀"⟩]
    let written : Bytes := [1, 2, 0xFF, 0xFE, 0xEF, 0xBE, 0xAD, 0xDE, 0x7F, 0xC0, 0, 1, 2, 0, 0xC3, 0xA9,
      3, 0, 0, 0, 0x61, 0, 0x3D, 0xD8, 0, 0xDE]
    (∀ entry ∈ entries, entry.1.Fits entry.2) ∧ (b.writeAll entries).written = written ∧
      ((b.read Decoder.takeAll).2.writeAll entries).readAll (entries.map Sigma.fst) = (.ok entries, ⟨written, []⟩) ∧
      ((b.writeAll entries).read (Decoder.take b.size)).2.readAll (entries.map Sigma.fst) =
        (.ok entries, ⟨written, []⟩) := by
  intro b entries written
  have hfits : ∀ entry ∈ entries, entry.1.Fits entry.2 := by decide +kernel
  have hwritten : (b.writeAll entries).written = written := by decide +kernel
  rw [← hwritten]
  exact ⟨hfits, rfl, readAll_writeAll b entries hfits⟩

end Buffer

end GameGateway
