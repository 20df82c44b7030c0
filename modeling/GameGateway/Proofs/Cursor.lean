import GameGateway.Buffer.Storage
import GameGateway.Message
import GameGateway.Proofs.Values

/-!
# Reads part by part

A read takes its parts one after the other, and how long a part is may depend on the parts before it
(`Reading.next?`): the count of a text announces its body, the first byte of a size says whether two more follow. A read
has all its parts and comes to what they say (`Reading.result`), or the next part asks for more than there is. In both
cases the cursor has moved over exactly the parts that were there: `Reading.run_eq_iff`.

Storage with a cursor is a buffer, and what is done to the one comes to the same as what is done to the other:
`Storage.buffer_write`, `Storage.buffer_append`, `Storage.read_buffer`.

## Implementation notes

`Reading.Continues` follows a reader from any of its parts on, so that each reader is compared with its parts in the
order in which it asks for them.
-/

namespace GameGateway

theorem Fixed.toNat_decode {α : Type} [Fixed α] (order : ByteOrder) {bytes : Bytes} (h : bytes.length = width α) :
    toNat (decode α order bytes) = Bytes.toNat order bytes :=
  toNat_ofNat _ (h ▸ Bytes.toNat_lt order bytes)

/-! ## The cursor -/

namespace Storage

variable {s s' s'' : Storage} {bytes more : Bytes}

/-- The cursor stands in the storage or right behind it. -/
def InBounds (s : Storage) : Prop := s.readPosition ≤ s.writePosition

@[simp] theorem length_unread (s : Storage) : s.unread.length = s.size := List.length_drop

theorem consumed_append_unread (s : Storage) : s.consumed ++ s.unread = s.written := List.take_append_drop ..

theorem InBounds.length_consumed (h : s.InBounds) : s.consumed.length = s.readPosition := List.length_take_of_le h

theorem InBounds.write (hs : s.InBounds) (bytes : Bytes) : (s.write bytes).InBounds := by
  rw [InBounds, writePosition, Storage.write, List.length_append]
  exact Nat.le_add_right_of_le hs

theorem unread_write (hs : s.InBounds) (bytes : Bytes) : (s.write bytes).unread = s.unread ++ bytes :=
  List.drop_append_of_le_length hs

theorem consumed_write (hs : s.InBounds) (bytes : Bytes) : (s.write bytes).consumed = s.consumed :=
  List.take_append_of_le_length hs

/-- Taking the other's storage over and writing its bytes come to the same. -/
theorem append_eq_write (hs : s.InBounds) (other : Storage) : s.append other = s.write other.unread := by
  obtain ⟨written, readPosition⟩ := s
  cases written with
  | nil =>
    -- The cursor starts again at 0, and in empty storage it was nowhere else.
    obtain rfl : readPosition = 0 := Nat.le_zero.1 hs
    rfl
  | cons byte written => rfl

/-- The cursor moves over these bytes, and nothing else happens. -/
structure Passes (s : Storage) (bytes : Bytes) (s' : Storage) : Prop where
  moved : s' = { s with readPosition := s.readPosition + bytes.length }
  front : bytes <+: s.unread

theorem Passes.refl (s : Storage) : s.Passes [] s := ⟨rfl, List.nil_prefix⟩

theorem Passes.eq_of_nil (h : s.Passes [] s') : s' = s := h.moved

theorem Passes.unread_eq (h : s.Passes bytes s') : s.unread = bytes ++ s'.unread := by
  obtain ⟨rfl, hfront⟩ := h
  have hrest : ({ s with readPosition := s.readPosition + bytes.length } : Storage).unread =
      s.unread.drop bytes.length := List.drop_drop.symm
  rw [hrest]
  exact (List.prefix_iff_eq_append.1 hfront).symm

theorem Passes.trans (h : s.Passes bytes s') (h' : s'.Passes more s'') : s.Passes (bytes ++ more) s'' where
  moved := by rw [h'.moved, h.moved, List.length_append, Nat.add_assoc]
  front := by
    rw [h.unread_eq]
    exact (List.prefix_append_right_inj bytes).2 h'.front

theorem Passes.size_eq (h : s.Passes bytes s') : s.size = bytes.length + s'.size := by
  calc
    s.size = s.unread.length := s.length_unread.symm
    _ = bytes.length + s'.unread.length := by rw [h.unread_eq, List.length_append]
    _ = bytes.length + s'.size := by rw [length_unread]

theorem Passes.readPosition_eq (h : s.Passes bytes s') : s'.readPosition = s.readPosition + bytes.length := by
  rw [h.moved]

theorem Passes.consumed_eq (h : s.Passes bytes s') : s'.consumed = s.consumed ++ bytes := by
  have hbytes : bytes = s.unread.take bytes.length := List.prefix_iff_eq_take.1 h.front
  calc
    s'.consumed = s.written.take (s.readPosition + bytes.length) := by rw [h.moved, consumed]
    _ = s.consumed ++ s.unread.take bytes.length := List.take_add
    _ = s.consumed ++ bytes := by rw [← hbytes]

theorem Passes.inBounds (h : s.Passes bytes s') (hs : s.InBounds) : s'.InBounds := by
  have hfit : bytes.length ≤ s.size := by
    rw [h.size_eq]
    exact Nat.le_add_right ..
  obtain ⟨rfl, -⟩ := h
  exact Nat.add_le_of_le_sub' hs hfit

theorem passes_take {n : Nat} (h : n ≤ s.size) :
    s.Passes (s.unread.take n) { s with readPosition := s.readPosition + n } where
  moved := by rw [List.length_take_of_le (by rwa [length_unread])]
  front := List.take_prefix n s.unread

theorem passes_remaining (hs : s.InBounds) : s.Passes s.unread { s with readPosition := s.writePosition } where
  moved := by rw [length_unread, size, Nat.add_sub_cancel' hs]
  front := List.prefix_refl _

end Storage

/-! ## The parts of a read -/

/-- A way of reading. -/
inductive Reading where
  | value (type : ValueType)
  | bytes (count : Nat)
  | skip (count : Nat)
  | remaining
  | header
  | sizePrefix
  deriving DecidableEq, Repr

namespace Reading

/-- What a read answers. -/
abbrev Value : Reading → Type
  | value type => type.Value
  | bytes _ => Bytes
  | skip _ => Unit
  | remaining => Bytes
  | header => UInt16 × UInt32
  | sizePrefix => Nat

/-- Reads through the cursor. -/
def reader : (r : Reading) → Reader r.Value
  | value (.scalar type order) => Reader.fixed type.Value order
  | value (.text .narrow) => Reader.narrow
  | value (.text .wide) => Reader.wide
  | bytes count => Reader.take count
  | skip count => Reader.skip count
  | remaining => Reader.remaining
  | header => Reader.header
  | sizePrefix => Reader.sizePrefix

/-- Reads from the front of a byte string. -/
def decoder : (r : Reading) → Decoder r.Value
  | value type => type.decode
  | bytes count => Decoder.take count
  | skip count => do
    let _ ← Decoder.take count
    return ()
  | remaining => Decoder.takeAll
  | header => Message.decodeHeader
  | sizePrefix => SizePrefix.decode

/-- How many bytes the next part takes, if there is one. The parts before it are known, and so is how many bytes were
unread before the first. -/
def next? (available : Nat) : Reading → List Bytes → Option Nat
  | value (.scalar type _), [] => some (Fixed.width type.Value)
  | value (.text width), [] => some width.countBytes
  | value (.text width), [count] => some (Bytes.toNat .little count * width.unitBytes)
  | bytes count, [] => some count
  | skip count, [] => some count
  | remaining, [] => some available
  | header, [] => some 2
  | header, [_] => some 4
  | sizePrefix, [] => some 1
  | sizePrefix, [short] => if Bytes.toNat .big short = SizePrefix.sentinel then some 2 else none
  | _, _ => none

/-- What a read comes to once it has all its parts. -/
def result : (r : Reading) → List Bytes → Except ReadError r.Value
  | value (.scalar type order), parts => .ok (Fixed.decode type.Value order parts.flatten)
  | value (.text width), parts =>
    match width.text? (parts.drop 1).flatten with
    | some text => .ok text
    | none => .error (width.invalid (Bytes.toNat .little (parts.take 1).flatten))
  | bytes _, parts => .ok parts.flatten
  | skip _, _ => .ok ()
  | remaining, parts => .ok parts.flatten
  | header, parts =>
    .ok (Fixed.decode UInt16 .little (parts.take 1).flatten, Fixed.decode UInt32 .little (parts.drop 1).flatten)
  | sizePrefix, parts => .ok (Bytes.toNat .big (parts.getLastD []))

/-- Whether a read may have taken a part when it fails. -/
def isComposite : Reading → Bool
  | value (.scalar _ _) | bytes _ | skip _ | remaining => false
  | value (.text _) | header | sizePrefix => true

/-- Parts that follow each other, each as long as those before it say. -/
inductive Taken (r : Reading) (available : Nat) : List Bytes → Prop
  | nil : Taken r available []
  | concat {parts : List Bytes} {part : Bytes} (h : Taken r available parts)
      (asks : r.next? available parts = some part.length) : Taken r available (parts ++ [part])

/-- What a read comes to, and where it leaves the cursor: behind all its parts, or behind those before the first that is
not there in full. -/
inductive Outcome (r : Reading) (s : Storage) : Except ReadError r.Value → Storage → Prop
  | whole {parts : List Bytes} {result : Except ReadError r.Value} {s' : Storage} (taken : r.Taken s.size parts)
      (complete : r.next? s.size parts = none) (comes : r.result parts = result) (h : s.Passes parts.flatten s') :
      Outcome r s result s'
  | short {parts : List Bytes} {s' : Storage} {n : Nat} (taken : r.Taken s.size parts)
      (asks : r.next? s.size parts = some n) (h : s.Passes parts.flatten s') (missing : s'.size < n) :
      Outcome r s (.error (.underflow n s'.size)) s'

variable {r : Reading} {s s' : Storage} {parts : List Bytes} {n : Nat}

theorem taken_concat_iff {available : Nat} {part : Bytes} :
    r.Taken available (parts ++ [part]) ↔
      r.Taken available parts ∧ r.next? available parts = some part.length := by
  constructor
  · intro h
    generalize hall : parts ++ [part] = all at h
    cases h with
    | nil => exact absurd hall (List.concat_ne_nil part parts)
    | concat h asks =>
      obtain ⟨rfl, rfl⟩ := List.concat_inj.1 (by simpa using hall)
      exact ⟨h, asks⟩
  · rintro ⟨h, asks⟩
    exact h.concat asks

theorem Taken.next?_eq {available : Nat} {part : Bytes} {later : List Bytes}
    (h : r.Taken available (parts ++ part :: later)) : r.next? available parts = some part.length := by
  induction later using List.reverseRecOn with
  | nil => exact (taken_concat_iff.1 h).2
  | append_singleton later last ih =>
    rw [← List.cons_append, ← List.append_assoc] at h
    exact ih (taken_concat_iff.1 h).1

/-- Once no further part is there in full, all parts that can be taken were taken. -/
theorem Taken.isPrefix_of_ended {available : Nat} {bytes : Bytes} {parts' : List Bytes}
    (hall : bytes.length = available) (h : r.Taken available parts) (hfront : parts.flatten <+: bytes)
    (ended : ∀ n, r.next? available parts = some n → available < parts.flatten.length + n)
    (h' : r.Taken available parts') (hfront' : parts'.flatten <+: bytes) : parts' <+: parts := by
  -- The chain that may be unfinished is compared part by part: where the ended one ends, no part fits; before that,
  -- both ask for equally many bytes of the same place.
  induction h' with
  | nil => exact List.nil_prefix
  | @concat earlier part _ asks ih =>
    rw [List.flatten_concat] at hfront'
    obtain ⟨later, rfl⟩ := ih ((List.prefix_append ..).trans hfront')
    cases later with
    | nil =>
      rw [List.append_nil] at ended
      have hlong := hfront'.length_le
      rw [hall, List.length_append] at hlong
      exact absurd (ended part.length asks) (Nat.not_lt.2 hlong)
    | cons next later =>
      have hlength : next.length = part.length := Option.some.inj (h.next?_eq.symm.trans asks)
      rw [List.flatten_append, List.flatten_cons, ← List.append_assoc] at hfront
      have hnext : earlier.flatten ++ next <+: bytes := (List.prefix_append ..).trans hfront
      have hsame : earlier.flatten ++ next = earlier.flatten ++ part := by
        refine (List.prefix_of_prefix_length_le hnext hfront' ?_).eq_of_length ?_
        · simp only [List.length_append, hlength, Nat.le_refl]
        · simp only [List.length_append, hlength]
      rw [List.append_cancel_left hsame]
      exact (List.prefix_append_right_inj earlier).2 (List.prefix_append [part] later)

/-- The parts behind which a read leaves the cursor. -/
theorem Outcome.exists_parts {result : Except ReadError r.Value} (h : r.Outcome s result s') :
    ∃ parts, r.Taken s.size parts ∧ s.Passes parts.flatten s' ∧
      (∀ n, r.next? s.size parts = some n → s.size < parts.flatten.length + n) ∧
      result =
        match r.next? s.size parts with
        | none => r.result parts
        | some n => .error (.underflow n s'.size) := by
  cases h with
  | whole taken complete comes h =>
    refine ⟨_, taken, h, ?_, ?_⟩
    · rw [complete]
      exact nofun
    · rw [complete, comes]
  | @short parts _ n taken asks h missing =>
    refine ⟨parts, taken, h, ?_, ?_⟩
    · intro m hm
      obtain rfl := Option.some.inj (asks.symm.trans hm)
      rw [h.size_eq]
      exact Nat.add_lt_add_left missing _
    · rw [asks]

/-- No read comes to two outcomes. -/
theorem Outcome.unique {s'' : Storage} {result result' : Except ReadError r.Value} (h : r.Outcome s result s')
    (h' : r.Outcome s result' s'') : result' = result ∧ s'' = s' := by
  obtain ⟨parts, htaken, hpasses, hended, rfl⟩ := h.exists_parts
  obtain ⟨parts', htaken', hpasses', hended', rfl⟩ := h'.exists_parts
  have hall := s.length_unread
  have hsub := htaken.isPrefix_of_ended hall hpasses.front hended htaken' hpasses'.front
  have hsup := htaken'.isPrefix_of_ended hall hpasses'.front hended' htaken hpasses.front
  obtain rfl : parts' = parts := hsub.eq_of_length_le hsup.length_le
  obtain rfl : s'' = s' := hpasses'.moved.trans hpasses.moved.symm
  exact ⟨rfl, rfl⟩

theorem result_ne_error (hsimple : r.isComposite = false) (e : ReadError) : r.result parts ≠ .error e := by
  match r, hsimple with
  | value (.scalar _ _), _ | bytes _, _ | skip _, _ | remaining, _ => exact nofun

theorem next?_cons (hsimple : r.isComposite = false) (available : Nat) (part : Bytes) :
    r.next? available (part :: parts) = none := by
  match r, hsimple with
  | value (.scalar _ _), _ | bytes _, _ | skip _, _ | remaining, _ => rfl

/-- A read of one part fails exactly if the part is not there in full, and consumes nothing then. -/
theorem outcome_error_iff {e : ReadError} (hsimple : r.isComposite = false) :
    r.Outcome s (.error e) s' ↔
      s' = s ∧ ∃ n, r.next? s.size [] = some n ∧ s.size < n ∧ e = .underflow n s.size := by
  constructor
  · intro h
    cases h with
    | whole _ _ comes _ => exact absurd comes (result_ne_error hsimple e)
    | @short parts _ n _ asks h missing =>
      cases parts with
      | nil =>
        obtain rfl := h.eq_of_nil
        exact ⟨rfl, n, asks, missing, rfl⟩
      | cons part parts =>
        rw [next?_cons hsimple] at asks
        cases asks
  · rintro ⟨rfl, n, asks, missing, rfl⟩
    exact .short .nil asks (Storage.Passes.refl s') missing

/-! ## From parts to outcomes -/

/-- Behind these parts the reader goes on to an outcome. -/
def Continues (r : Reading) (s : Storage) (parts : List Bytes) (reader : Reader r.Value) : Prop :=
  ∀ s', r.Taken s.size parts → s.Passes parts.flatten s' → r.Outcome s (reader.run s').1 (reader.run s').2

theorem Continues.done {reader : Reader r.Value} (complete : r.next? s.size parts = none)
    (hrun : ∀ s', reader.run s' = (r.result parts, s')) : r.Continues s parts reader := by
  intro s' htaken hpasses
  rw [hrun]
  exact .whole htaken complete rfl hpasses

theorem Continues.take {f : Bytes → Reader r.Value} (asks : r.next? s.size parts = some n)
    (hrest : ∀ part : Bytes, part.length = n → r.Continues s (parts ++ [part]) (f part)) :
    r.Continues s parts (Reader.take n >>= f) := by
  intro s' htaken hpasses
  have hrun := Reader.run_take n s'
  by_cases hmissing : s'.size < n
  · rw [if_pos hmissing] at hrun
    rw [Reader.run_bind_error hrun]
    exact .short htaken asks hpasses hmissing
  · rw [if_neg hmissing] at hrun
    rw [Reader.run_bind_ok hrun]
    have hle : n ≤ s'.size := Nat.le_of_not_lt hmissing
    have hlength : (s'.unread.take n).length = n := List.length_take_of_le (by rwa [Storage.length_unread])
    refine hrest _ hlength _ (htaken.concat (by rw [asks, hlength])) ?_
    rw [List.flatten_concat]
    exact hpasses.trans (Storage.passes_take hle)

theorem fixed_bind {α β : Type} [Fixed α] (order : ByteOrder) (f : α → Reader β) :
    Reader.fixed α order >>= f = Reader.take (Fixed.width α) >>= fun bytes => f (Fixed.decode α order bytes) :=
  bind_map_left _ _ _

theorem result_text (width : Text.Width) (count body : Bytes) :
    (value (.text width)).result [count, body] =
      match width.text? body with
      | some text => .ok text
      | none => .error (width.invalid (Bytes.toNat .little count)) := by
  simp only [result, List.drop_one, List.tail_cons, List.take_succ_cons, List.take_zero, List.flatten_singleton]

theorem continues_body {width : Text.Width} {count : Bytes} {f : Bytes → Reader String}
    (hf : ∀ body s', (f body).run s' = ((value (.text width)).result [count, body], s')) :
    (value (.text width)).Continues s [count]
      (Reader.take (Bytes.toNat .little count * width.unitBytes) >>= f) :=
  .take rfl fun body _ => .done rfl (hf body)

/-- Every read asks for its parts one by one. -/
theorem continues_reader (r : Reading) (hs : s.InBounds) : r.Continues s [] r.reader := by
  cases r with
  | value type =>
    cases type with
    | scalar type order =>
      rw [reader, Reader.fixed, map_eq_pure_bind]
      refine .take rfl fun part _ => .done rfl fun s' => ?_
      rw [List.nil_append, result, List.flatten_singleton, Reader.run_pure]
    | text width =>
      cases width with
      | narrow =>
        rw [reader, Reader.narrow, fixed_bind]
        refine .take rfl fun count hcount => ?_
        have hn : (Fixed.decode UInt16 .little count).toNat = Bytes.toNat .little count * 1 :=
          (Fixed.toNat_decode .little hcount).trans (Nat.mul_one _).symm
        rw [hn]
        refine continues_body fun body s' => ?_
        rw [result_text, Text.Width.text?, Nat.mul_one]
        cases Utf8.decode? body with
        | none => rfl
        | some text => rfl
      | wide =>
        rw [reader, Reader.wide, fixed_bind]
        refine .take rfl fun count hcount => ?_
        have hn : (Fixed.decode UInt32 .little count).toNat = Bytes.toNat .little count :=
          Fixed.toNat_decode .little hcount
        rw [hn]
        refine continues_body fun body s' => ?_
        rw [result_text, Text.Width.text?]
        cases Utf16.decode? (Text.units body) with
        | none => rfl
        | some text => rfl
  | bytes count =>
    have htake : Reader.take count = Reader.take count >>= pure := (bind_pure _).symm
    rw [reader, htake]
    refine .take rfl fun part _ => .done rfl fun s' => ?_
    rw [List.nil_append, result, List.flatten_singleton, Reader.run_pure]
  | skip count =>
    rw [reader, Reader.skip, map_eq_pure_bind]
    exact .take rfl fun part _ => .done rfl fun s' => rfl
  | remaining =>
    intro s' htaken hpasses
    obtain rfl := hpasses.eq_of_nil
    refine .whole (htaken.concat (congrArg some (Storage.length_unread s').symm)) rfl ?_ ?_
    · rw [List.nil_append, result, List.flatten_singleton]
      rfl
    · rw [List.nil_append, List.flatten_singleton]
      exact Storage.passes_remaining hs
  | header =>
    rw [reader, Reader.header, fixed_bind]
    refine .take rfl fun count _ => ?_
    rw [fixed_bind]
    refine .take rfl fun opcode _ => .done rfl fun s' => ?_
    simp [result]
  | sizePrefix =>
    rw [reader, Reader.sizePrefix, fixed_bind]
    refine .take rfl fun short hshort => ?_
    have hn : (Fixed.decode UInt8 .little short).toNat = Bytes.toNat .big short := by
      -- A single byte is the same number in both orders.
      obtain ⟨byte, rfl⟩ := List.length_eq_one_iff.1 hshort
      exact Fixed.toNat_decode .little hshort
    rw [hn]
    by_cases hsentinel : Bytes.toNat .big short = SizePrefix.sentinel
    · rw [if_pos hsentinel, fixed_bind]
      refine .take (if_pos hsentinel) fun long hlong => .done rfl fun s' => ?_
      have hsize : (Fixed.decode UInt16 .big long).toNat = Bytes.toNat .big long := Fixed.toNat_decode .big hlong
      rw [Reader.run_pure, hsize]
      rfl
    · rw [if_neg hsentinel]
      exact .done (if_neg hsentinel) fun s' => rfl

/-- The outcome of a read, with the storage behind it. -/
def run (r : Reading) (s : Storage) : Except ReadError r.Value × Storage := r.reader.run s

/-- A peek answers what the read would. -/
theorem peek_eq (type : ScalarType) (s : Storage) :
    s.peek type.Value = ((value (.scalar type .big)).run s).1 := by
  rw [run, reader, Reader.fixed, map_eq_pure_bind, Reader.run_bind, Reader.run_take, Storage.peek]
  split
  · rfl
  · rfl

theorem outcome_run (r : Reading) (hs : s.InBounds) : r.Outcome s (r.run s).1 (r.run s).2 :=
  r.continues_reader hs s .nil (Storage.Passes.refl s)

theorem run_eq_iff (hs : s.InBounds) {result : Except ReadError r.Value} :
    r.run s = (result, s') ↔ r.Outcome s result s' := by
  constructor
  · intro hrun
    have houtcome := r.outcome_run hs
    rwa [hrun] at houtcome
  · intro houtcome
    obtain ⟨hresult, hstorage⟩ := houtcome.unique (r.outcome_run hs)
    exact Prod.ext hresult hstorage

/-- A read moves the cursor and does nothing else, whatever comes of it. -/
theorem exists_passes_run (r : Reading) (hs : s.InBounds) : ∃ bytes, s.Passes bytes (r.run s).2 := by
  obtain ⟨_, -, hpasses, -⟩ := (r.outcome_run hs).exists_parts
  exact ⟨_, hpasses⟩

end Reading

/-! ## Storage is a buffer -/

namespace Reader

variable {α β : Type}

/-- The reader does through the cursor what the decoder does with what is unread. -/
def Follows (reader : Reader α) (d : Decoder α) : Prop :=
  ∀ s, d.run s.unread = ((reader.run s).1, (reader.run s).2.unread)

namespace Follows

variable {reader : Reader α} {d : Decoder α} {f : α → Reader β} {g : α → Decoder β}

theorem pure (a : α) : (Pure.pure a : Reader α).Follows (Pure.pure a) := fun _ => rfl

theorem fail (e : ReadError) : (throw e : Reader α).Follows (Decoder.fail e) := fun _ => rfl

theorem bind (h : reader.Follows d) (hf : ∀ a, (f a).Follows (g a)) : (reader >>= f).Follows (d >>= g) := by
  intro s
  rw [Decoder.run_bind, run_bind, h s]
  rcases reader.run s with ⟨_ | a, s'⟩
  · rfl
  · exact hf a s'

theorem map (h : reader.Follows d) (f : α → β) : (f <$> reader).Follows (d >>= fun a => Pure.pure (f a)) := by
  rw [map_eq_pure_bind]
  exact h.bind fun a => pure (f a)

theorem take (n : Nat) : (Reader.take n).Follows (Decoder.take n) := by
  intro s
  rw [Decoder.run_take, run_take, Storage.length_unread]
  by_cases h : s.size < n
  · rw [if_neg (Nat.not_le.2 h), if_pos h]
  · rw [if_pos (Nat.le_of_not_lt h), if_neg h]
    exact congrArg (Prod.mk _) List.drop_drop

theorem fixed (α : Type) [Fixed α] (order : ByteOrder) : (Reader.fixed α order).Follows (Decoder.fixed α order) :=
  (take _).map _

end Follows

end Reader

theorem Reading.follows (r : Reading) : r.reader.Follows r.decoder := by
  cases r with
  | value type =>
    cases type with
    | scalar type order => exact .fixed _ order
    | text width =>
      cases width with
      | narrow =>
        refine .bind (.fixed UInt16 .little) fun count => .bind (.take _) fun body => ?_
        cases Utf8.decode? body with
        | none => exact .fail _
        | some text => exact .pure text
      | wide =>
        refine .bind (.fixed UInt32 .little) fun count => .bind (.take _) fun body => ?_
        cases Utf16.decode? (Text.units body) with
        | none => exact .fail _
        | some text => exact .pure _
  | bytes count => exact .take count
  | skip count => exact (Reader.Follows.take count).map _
  | remaining =>
    intro s
    have hrest : s.written.drop s.writePosition = [] := List.drop_length
    rw [reader, Reader.run_remaining, Storage.unread, Storage.unread, hrest]
    rfl
  | header => exact .bind (.fixed UInt16 .little) fun count => .bind (.fixed UInt32 .little) fun opcode => .pure _
  | sizePrefix =>
    refine .bind (.fixed UInt8 .little) fun short => ?_
    by_cases hsentinel : short.toNat = SizePrefix.sentinel
    · rw [if_pos hsentinel, if_pos hsentinel]
      exact .bind (.fixed UInt16 .big) fun long => .pure _
    · rw [if_neg hsentinel, if_neg hsentinel]
      exact .pure _

namespace Storage

variable {s s' : Storage} {bytes : Bytes}

theorem Passes.consumes (h : s.Passes bytes s') : s.buffer.Consumes bytes s'.buffer := ⟨h.consumed_eq, h.unread_eq⟩

theorem buffer_write (hs : s.InBounds) (bytes : Bytes) : (s.write bytes).buffer = s.buffer.write bytes := by
  rw [buffer, consumed_write hs, unread_write hs]
  rfl

theorem buffer_append (hs : s.InBounds) (other : Storage) : (s.append other).buffer = s.buffer.append other.buffer := by
  rw [append_eq_write hs, buffer_write hs]
  rfl

theorem read_buffer (hs : s.InBounds) (r : Reading) : s.buffer.read r.decoder = ((r.run s).1, (r.run s).2.buffer) := by
  obtain ⟨bytes, hpasses⟩ := r.exists_passes_run hs
  exact hpasses.consumes.read (r.follows s)

end Storage

end GameGateway
