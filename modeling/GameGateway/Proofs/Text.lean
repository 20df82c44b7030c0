import GameGateway.Proofs.Forms
import Mathlib

/-!
# One form for each text

UTF-8 and UTF-16 are read exactly where they were written: `Utf8.decode?_eq_some_iff`, `Utf16.decode?_eq_some_iff`. On
both rest the narrow and the wide form of a text, which differ in the width of their counts and of what they count
(`Text.Width`). Reading one comes to one of four outcomes (`Text.Width.Outcome`), and what it consumed says to which:
`Buffer.read_text`. In particular a text is read from no bytes but those it is written as.

## Implementation notes

`Text.Width.body` spells the bytes of a text character by character; the readers are compared with it and not with each
other.
-/

namespace GameGateway

/-! ## UTF-8 -/

namespace Utf8

variable {bytes : Bytes} {text : String}

theorem encode_eq_flatMap (text : String) : encode text = text.toList.flatMap String.utf8EncodeChar := by
  rw [encode, ← String.utf8Encode_toList]
  simp [List.utf8Encode]

@[simp] theorem length_encode (text : String) : (encode text).length = text.utf8ByteSize := rfl

theorem decode?_eq_some_iff : decode? bytes = some text ↔ encode text = bytes := by
  rw [decode?, encode, String.fromUTF8?]
  split
  · rename_i hvalid
    constructor
    · intro h
      cases h
      rfl
    · rintro rfl
      rfl
  · rename_i hinvalid
    constructor
    · nofun
    · rintro rfl
      exact absurd text.isValidUTF8 hinvalid

end Utf8

/-! ## UTF-16 -/

namespace Utf16

variable {u v : UInt16} {units : List UInt16} {text : List Char} {c : Char} {k n : Nat}

/-- A high and a low surrogate, and which character beyond the basic plane they stand for. -/
structure Pair (u v : UInt16) (k : Nat) : Prop where
  high : u.toNat = 0xD800 + k / 0x400
  low : v.toNat = 0xDC00 + k % 0x400
  lt : k < 0x100000

theorem toNat_ofNat_char (h : n.isValidChar) : (Char.ofNat n).toNat = n := by
  rw [Char.toNat_ofNat, if_pos h]

theorem encodeChar_of_lt (h : c.toNat < 0x10000) : encodeChar c = [UInt16.ofNat c.toNat] := if_pos h

theorem encodeChar_of_eq (h : c.toNat = 0x10000 + k) :
    encodeChar c = [UInt16.ofNat (0xD800 + k / 0x400), UInt16.ofNat (0xDC00 + k % 0x400)] := by
  have hbeyond : ¬ 0x10000 + k < 0x10000 := by omega
  simp only [encodeChar, h, if_neg hbeyond, Nat.add_sub_cancel_left]

/-- A unit that is no surrogate is a character. -/
theorem encodeChar_unit (h : ¬ (0xD800 ≤ u.toNat ∧ u.toNat < 0xE000)) : encodeChar (Char.ofNat u.toNat) = [u] := by
  have hlt : u.toNat < 0x10000 := u.toNat_lt
  have hvalid : u.toNat.isValidChar := by
    rw [Nat.isValidChar]
    omega
  have hcode : (Char.ofNat u.toNat).toNat = u.toNat := toNat_ofNat_char hvalid
  have hu : UInt16.ofNat u.toNat = u := UInt16.ofNat_toNat
  rw [encodeChar_of_lt (hcode.symm ▸ hlt), hcode, hu]

theorem Pair.encodeChar (h : Pair u v k) : encodeChar (Char.ofNat (0x10000 + k)) = [u, v] := by
  have hlt := h.lt
  have hvalid : (0x10000 + k).isValidChar := Or.inr (by omega)
  have hu : UInt16.ofNat u.toNat = u := UInt16.ofNat_toNat
  have hv : UInt16.ofNat v.toNat = v := UInt16.ofNat_toNat
  rw [encodeChar_of_eq (toNat_ofNat_char hvalid), ← h.high, ← h.low, hu, hv]

theorem decode?_unit (h : ¬ (0xD800 ≤ u.toNat ∧ u.toNat < 0xE000)) (rest : List UInt16) :
    decode? (u :: rest) = (decode? rest).map (Char.ofNat u.toNat :: ·) := by
  cases rest with
  | nil =>
    rw [decode?, decode?, if_neg h]
    rfl
  | cons v rest => rw [decode?, if_neg (by omega), if_neg (by omega)]

theorem Pair.decode? (h : Pair u v k) (rest : List UInt16) :
    decode? (u :: v :: rest) = (Utf16.decode? rest).map (Char.ofNat (0x10000 + k) :: ·) := by
  obtain ⟨hhigh, hlow, hlt⟩ := h
  have hcode : 0x10000 + (u.toNat - 0xD800) * 0x400 + (v.toNat - 0xDC00) = 0x10000 + k := by omega
  rw [Utf16.decode?, if_pos (by omega), if_pos (by omega), hcode]

theorem decode?_encodeChar_append (c : Char) (rest : List UInt16) :
    decode? (encodeChar c ++ rest) = (decode? rest).map (c :: ·) := by
  have hvalid : c.toNat.isValidChar := c.valid
  rw [Nat.isValidChar] at hvalid
  by_cases hbasic : c.toNat < 0x10000
  · have hu : (UInt16.ofNat c.toNat).toNat = c.toNat := UInt16.toNat_ofNat_of_lt hbasic
    rw [encodeChar_of_lt hbasic, List.singleton_append, decode?_unit (by omega), hu, Char.ofNat_toNat]
  · obtain ⟨k, hk⟩ : ∃ k, c.toNat = 0x10000 + k := Nat.exists_eq_add_of_le (Nat.le_of_not_lt hbasic)
    have hhigh : 0xD800 + k / 0x400 < 65536 := by omega
    have hlow : 0xDC00 + k % 0x400 < 65536 := by omega
    have hpair : Pair (UInt16.ofNat (0xD800 + k / 0x400)) (UInt16.ofNat (0xDC00 + k % 0x400)) k :=
      ⟨UInt16.toNat_ofNat_of_lt hhigh, UInt16.toNat_ofNat_of_lt hlow, by omega⟩
    rw [encodeChar_of_eq hk, List.cons_append, List.singleton_append, hpair.decode?, ← hk, Char.ofNat_toNat]

@[simp] theorem decode?_encode (text : List Char) : decode? (encode text) = some text := by
  induction text with
  | nil => rfl
  | cons c text ih =>
    have hencode : encode (c :: text) = encodeChar c ++ encode text := List.flatMap_cons
    rw [hencode, decode?_encodeChar_append, ih]
    rfl

theorem encode_of_decode? (h : decode? units = some text) : encode text = units := by
  fun_induction Utf16.decode? units generalizing text with
  | case1 =>
    cases h
    rfl
  | case2 u hsurrogate => cases h
  | case3 u hunit =>
    cases h
    rw [encode, List.flatMap_singleton, encodeChar_unit hunit]
  | case4 u v rest hhigh hlow ih =>
    obtain ⟨tail, htail, rfl⟩ := Option.map_eq_some_iff.1 h
    have hpair : Pair u v ((u.toNat - 0xD800) * 0x400 + (v.toNat - 0xDC00)) := by
      constructor <;> omega
    rw [encode, List.flatMap_cons, Nat.add_assoc, hpair.encodeChar, ← encode, ih htail]
    rfl
  | case5 u v rest hhigh hlow => cases h
  | case6 u v rest hhigh hlow => cases h
  | case7 u v rest hhigh hlow ih =>
    obtain ⟨tail, htail, rfl⟩ := Option.map_eq_some_iff.1 h
    rw [encode, List.flatMap_cons, encodeChar_unit (by omega), ← encode, ih htail]
    rfl

theorem decode?_eq_some_iff : decode? units = some text ↔ encode text = units :=
  ⟨encode_of_decode?, fun h => h ▸ decode?_encode text⟩

end Utf16

namespace Text

variable {text : String} {bytes : Bytes} {n : Nat}

/-! ## Code units -/

theorem encode_unit (u : UInt16) : ∃ a b, Fixed.encode .little u = [a, b] := ⟨_, _, rfl⟩

theorem units_flatMap (units : List UInt16) : Text.units (units.flatMap (Fixed.encode .little)) = units := by
  induction units with
  | nil => rfl
  | cons u units ih =>
    obtain ⟨a, b, hu⟩ := encode_unit u
    rw [List.flatMap_cons, hu, List.cons_append, List.singleton_append, Text.units, ih, ← hu, Fixed.decode_encode]

/-- Byte strings of even length consist of code units. -/
theorem flatMap_units (h : bytes.length = n * 2) : (units bytes).flatMap (Fixed.encode .little) = bytes := by
  fun_induction units bytes generalizing n with
  | case1 a b rest ih =>
    have hrest : rest.length = (n - 1) * 2 := by
      simp only [List.length_cons] at h
      omega
    rw [List.flatMap_cons, ih hrest, Fixed.encode_decode .little rfl]
    rfl
  | case2 bytes hshort =>
    match bytes, h, hshort with
    | [], _, _ => rfl
    | [_], h, _ => simp only [List.length_singleton] at h; omega
    | a :: b :: rest, _, hshort => exact absurd rfl (hshort a b rest)

theorem decode?_units_eq_some_iff (h : bytes.length = n * 2) {text : List Char} :
    Utf16.decode? (units bytes) = some text ↔ (Utf16.encode text).flatMap (Fixed.encode .little) = bytes := by
  rw [Utf16.decode?_eq_some_iff]
  constructor
  · intro hunits
    rw [hunits, flatMap_units h]
  · intro hbytes
    rw [← hbytes, units_flatMap]

/-! ## The two forms -/

/-- How wide a text is written. -/
inductive Width where
  /-- UTF-8 behind a 16-bit count of bytes. -/
  | narrow
  /-- UTF-16 behind a 32-bit count of code units. -/
  | wide
  deriving DecidableEq, Repr

namespace Width

/-- Bytes of the count. -/
def countBytes : Width → Nat
  | narrow => 2
  | wide => 4

/-- Bytes of what is counted. -/
def unitBytes : Width → Nat
  | narrow => 1
  | wide => 2

/-- A count. -/
def count (w : Width) (n : Nat) : Bytes := Bytes.ofNat .little w.countBytes n

/-- The bytes of a text, character by character. -/
def body (w : Width) (text : String) : Bytes :=
  match w with
  | narrow => text.toList.flatMap String.utf8EncodeChar
  | wide => (Utf16.encode text.toList).flatMap (Fixed.encode .little)

/-- How much of what is counted a text has. -/
def units (w : Width) (text : String) : Nat :=
  match w with
  | narrow => text.utf8ByteSize
  | wide => (Utf16.encode text.toList).length

/-- A count can say how long the text is. -/
def Fits (w : Width) (text : String) : Prop :=
  match w with
  | narrow => text.utf8ByteSize ≤ 65535
  | wide => (Utf16.encode text.toList).length < 2 ^ 32

instance (w : Width) (text : String) : Decidable (w.Fits text) :=
  match w with
  | narrow => inferInstanceAs (Decidable (text.utf8ByteSize ≤ 65535))
  | wide => inferInstanceAs (Decidable ((Utf16.encode text.toList).length < 2 ^ 32))

/-- The written form. -/
def encode (w : Width) (text : String) : Bytes :=
  match w with
  | narrow => encodeNarrow text
  | wide => encodeWide text

/-- Reads a text of this width. -/
def decode (w : Width) : Decoder String :=
  match w with
  | narrow => decodeNarrow
  | wide => decodeWide

/-- The error that names a body that is no text. -/
def invalid (w : Width) (n : Nat) : ReadError :=
  match w with
  | narrow => .invalidText n
  | wide => .invalidWideText n

variable {w : Width} {bytes rest : Bytes} {text : String} {n : Nat}

theorem fits_iff : w.Fits text ↔ w.units text < Bytes.words w.countBytes := by
  cases w with
  | narrow => exact Nat.lt_succ_iff.symm
  | wide => exact Iff.rfl

@[simp] theorem length_count (w : Width) (n : Nat) : (w.count n).length = w.countBytes := Bytes.length_ofNat ..

theorem count_eq_encode (α : Type) [Fixed α] (hwidth : w.countBytes = Fixed.width α)
    (hn : n < Bytes.words w.countBytes) : w.count n = Fixed.encode .little (Fixed.ofNat n : α) := by
  rw [hwidth] at hn
  rw [count, hwidth, Fixed.encode, Fixed.toNat_ofNat n hn]

theorem body_narrow (text : String) : narrow.body text = Utf8.encode text := (Utf8.encode_eq_flatMap text).symm

theorem length_body (w : Width) (text : String) : (w.body text).length = w.units text * w.unitBytes := by
  cases w with
  | narrow =>
    rw [body_narrow]
    exact (Nat.mul_one _).symm
  | wide =>
    rw [body, List.length_flatMap, List.map_congr_left fun u _ => Fixed.length_encode .little u, List.map_const',
      List.sum_replicate_nat]
    rfl

theorem encode_of_fits (h : w.Fits text) : w.encode text = w.count (w.units text) ++ w.body text := by
  have hunits := fits_iff.1 h
  cases w with
  | narrow =>
    have hwhole : (Utf8.encode text).take maxNarrow = Utf8.encode text := List.take_of_length_le h
    rw [count_eq_encode UInt16 rfl hunits, body_narrow, encode, encodeNarrow, hwhole]
    rfl
  | wide =>
    rw [count_eq_encode UInt32 rfl hunits]
    rfl

/-! ## Reading a text -/

/-- The text of a body. -/
def text? (w : Width) (body : Bytes) : Option String :=
  match w with
  | narrow => Utf8.decode? body
  | wide => (Utf16.decode? (Text.units body)).map String.ofList

theorem text?_eq_some_iff (h : bytes.length = n * w.unitBytes) : w.text? bytes = some text ↔ w.body text = bytes := by
  cases w with
  | narrow => rw [body_narrow, text?, Utf8.decode?_eq_some_iff]
  | wide =>
    rw [text?, Option.map_eq_some_iff, body, ← decode?_units_eq_some_iff h]
    constructor
    · rintro ⟨characters, hcharacters, rfl⟩
      rwa [String.toList_ofList]
    · intro htext
      exact ⟨text.toList, htext, String.ofList_toList⟩

/-- Reads what a count announces. -/
def decodeBody (w : Width) (n : Nat) : Decoder String := do
  let body ← Decoder.take (n * w.unitBytes)
  match w.text? body with
  | some text => return text
  | none => Decoder.fail (w.invalid n)

theorem decodeBody_narrow (n : Nat) : narrow.decodeBody n = decodeUtf8 n := by
  rw [decodeBody, unitBytes, Nat.mul_one]
  rfl

theorem run_decode_count (hn : n < Bytes.words w.countBytes) (rest : Bytes) :
    w.decode.run (w.count n ++ rest) = (w.decodeBody n).run rest := by
  cases w with
  | narrow =>
    obtain ⟨size, rfl⟩ : ∃ size : UInt16, size.toNat = n := ⟨_, UInt16.toNat_ofNat_of_lt hn⟩
    have hcount : narrow.count size.toNat = Fixed.encode .little size := rfl
    rw [hcount, decode, decodeNarrow, Decoder.run_bind_ok (Decoder.run_fixed_encode ..), decodeBody_narrow]
  | wide =>
    obtain ⟨size, rfl⟩ : ∃ size : UInt32, size.toNat = n := ⟨_, UInt32.toNat_ofNat_of_lt hn⟩
    have hcount : wide.count size.toNat = Fixed.encode .little size := rfl
    rw [hcount, decode, decodeWide, Decoder.run_bind_ok (Decoder.run_fixed_encode ..)]
    refine congrArg (fun f => (Decoder.take (size.toNat * 2) >>= f).run rest) (funext fun body => ?_)
    rw [text?]
    cases Utf16.decode? (Text.units body) with
    | none => rfl
    | some characters => rfl

theorem run_decode_short (h : bytes.length < w.countBytes) :
    w.decode.run bytes = (.error (.underflow w.countBytes bytes.length), bytes) := by
  cases w with
  | narrow => exact Decoder.run_bind_error (Decoder.run_fixed_short h)
  | wide => exact Decoder.run_bind_error (Decoder.run_fixed_short h)

theorem run_decodeBody_short (h : rest.length < n * w.unitBytes) :
    (w.decodeBody n).run rest = (.error (.underflow (n * w.unitBytes) rest.length), rest) := by
  rw [decodeBody, Decoder.run_bind, Decoder.run_take, if_neg (Nat.not_le.2 h)]

theorem run_decodeBody_invalid (h : bytes.length = n * w.unitBytes) (hnone : w.text? bytes = none) (rest : Bytes) :
    (w.decodeBody n).run (bytes ++ rest) = (.error (w.invalid n), rest) := by
  rw [decodeBody, ← h, Decoder.run_bind_ok (Decoder.run_take_append bytes rest), hnone]
  rfl

/-- What is behind the count is read as a text, however long it is. -/
theorem reads_body (w : Width) (text : String) : (w.decodeBody (w.units text)).Reads (w.body text) text := by
  have hsome : w.text? (w.body text) = some text := (text?_eq_some_iff (length_body w text)).2 rfl
  have h : (w.decodeBody (w.units text)).Reads (w.body text ++ []) text := by
    rw [decodeBody, ← length_body]
    refine (Decoder.Reads.take (w.body text)).bind ?_
    rw [hsome]
    exact .pure text
  rwa [List.append_nil] at h

theorem reads_utf8 (text : String) : (decodeUtf8 text.utf8ByteSize).Reads (Utf8.encode text) text := by
  rw [← decodeBody_narrow, ← body_narrow]
  exact reads_body narrow text

/-- A text is read from its form, and its form can be cut nowhere. -/
theorem reads (h : w.Fits text) : w.decode.Reads (w.encode text) text where
  run_append rest := by
    rw [encode_of_fits h, List.append_assoc, run_decode_count (fits_iff.1 h), (reads_body w text).run_append]
  underflow front hfront hne := by
    rw [encode_of_fits h] at hfront hne
    rcases Decoder.cut_append_cases hfront hne with ⟨hcount, hne'⟩ | ⟨more, rfl, hbody, hne'⟩
    · have hlt : front.length < w.countBytes := by
        rw [← length_count w (w.units text)]
        exact Decoder.length_lt_of_cut hcount hne'
      exact ⟨_, front, ⟨_, _, hlt, rfl⟩, run_decode_short hlt⟩
    · obtain ⟨e, rest, he, hrun⟩ := (reads_body w text).underflow more hbody hne'
      exact ⟨e, rest, he, by rw [run_decode_count (fits_iff.1 h), hrun]⟩

/-- What reading a text from a buffer comes to. -/
inductive Outcome (w : Width) (b : Buffer) : Except ReadError String → Buffer → Prop
  | short (h : b.size < w.countBytes) : Outcome w b (.error (.underflow w.countBytes b.size)) b
  | cut {n : Nat} {b' : Buffer} (announced : n < Bytes.words w.countBytes) (h : b.Consumes (w.count n) b')
      (missing : b'.size < n * w.unitBytes) : Outcome w b (.error (.underflow (n * w.unitBytes) b'.size)) b'
  | invalid {n : Nat} {body : Bytes} {b' : Buffer} (announced : n < Bytes.words w.countBytes)
      (h : b.Consumes (w.count n ++ body) b') (whole : body.length = n * w.unitBytes)
      (noText : ∀ text, w.body text ≠ body) : Outcome w b (.error (w.invalid n)) b'
  | text {text : String} {b' : Buffer} (fits : w.Fits text) (h : b.Consumes (w.encode text) b') :
      Outcome w b (.ok text) b'

variable {b b' : Buffer} {result : Except ReadError String} {e : ReadError}

theorem Outcome.read (h : w.Outcome b result b') : b.read w.decode = (result, b') := by
  cases h with
  | short h => exact (Buffer.Consumes.refl b).read (run_decode_short h)
  | cut announced h missing =>
    refine h.read ?_
    rw [h.unread, run_decode_count announced, run_decodeBody_short missing]
    rfl
  | @invalid n body b' announced h whole noText =>
    refine h.read ?_
    have hnone : w.text? body = none := by
      apply Option.eq_none_iff_forall_ne_some.2
      intro text htext
      exact noText text ((text?_eq_some_iff whole).1 htext)
    rw [h.unread, List.append_assoc, run_decode_count announced, run_decodeBody_invalid whole hnone]
  | @text text b' fits h =>
    refine h.read ?_
    rw [h.unread, (reads fits).run_append]

/-- As many bytes as a count has are a count. -/
theorem exists_count (h : bytes.length = w.countBytes) : ∃ n < Bytes.words w.countBytes, w.count n = bytes :=
  ⟨bytes.toNat .little, h ▸ bytes.toNat_lt .little, by rw [count, ← h, Bytes.ofNat_toNat]⟩

theorem units_eq_of_body (h : (w.body text).length = n * w.unitBytes) : w.units text = n := by
  rw [length_body] at h
  refine Nat.eq_of_mul_eq_mul_right ?_ h
  cases w <;> decide

/-- Whatever is unread, reading a text comes to one of the outcomes. -/
theorem exists_outcome (w : Width) (b : Buffer) : ∃ result b', w.Outcome b result b' := by
  by_cases hshort : b.size < w.countBytes
  · exact ⟨_, _, .short hshort⟩
  · obtain ⟨front, b₁, hfront, hcount⟩ := Buffer.exists_consumes (Nat.le_of_not_lt hshort)
    obtain ⟨n, hn, rfl⟩ := exists_count hfront
    by_cases hcut : b₁.size < n * w.unitBytes
    · exact ⟨_, _, .cut hn hcount hcut⟩
    · obtain ⟨body, b₂, hwhole, hbody⟩ := Buffer.exists_consumes (Nat.le_of_not_lt hcut)
      by_cases htext : ∃ text, w.body text = body
      · obtain ⟨text, rfl⟩ := htext
        have hunits : w.units text = n := units_eq_of_body hwhole
        have hfits : w.Fits text := fits_iff.2 (hunits ▸ hn)
        have hencode : w.encode text = w.count n ++ w.body text := by rw [encode_of_fits hfits, hunits]
        exact ⟨_, _, .text hfits (hencode ▸ hcount.trans hbody)⟩
      · exact ⟨_, _, .invalid hn (hcount.trans hbody) hwhole (not_exists.1 htext)⟩

theorem read_eq_iff : b.read w.decode = (result, b') ↔ w.Outcome b result b' := by
  constructor
  · intro h
    obtain ⟨_, _, houtcome⟩ := exists_outcome w b
    rw [houtcome.read] at h
    cases h
    exact houtcome
  · exact Outcome.read

theorem invalid_injective (w : Width) : Function.Injective w.invalid := by
  intro n m h
  cases w with
  | narrow => exact ReadError.invalidText.inj h
  | wide => exact ReadError.invalidWideText.inj h

theorem invalid_ne_underflow {requested available : Nat} : w.invalid n ≠ .underflow requested available := by
  cases w <;> exact nofun

-- `w.invalid n` is a constructor only once the width is known, so the two lemmas below take the error by an equation.
theorem Outcome.of_invalid (h : w.Outcome b (.error e) b') (he : e = w.invalid n) :
    n < Bytes.words w.countBytes ∧
      ∃ body, b.Consumes (w.count n ++ body) b' ∧ body.length = n * w.unitBytes ∧ ∀ text, w.body text ≠ body := by
  cases h with
  | short _ => exact absurd he.symm invalid_ne_underflow
  | cut _ _ _ => exact absurd he.symm invalid_ne_underflow
  | invalid announced h whole noText =>
    obtain rfl := w.invalid_injective he
    exact ⟨announced, _, h, whole, noText⟩

theorem Outcome.of_underflow {requested available : Nat} (h : w.Outcome b (.error e) b')
    (he : e = .underflow requested available) :
    (b' = b ∧ requested = w.countBytes ∧ available = b.size ∧ b.size < requested) ∨
      ∃ n < Bytes.words w.countBytes, b.Consumes (w.count n) b' ∧
        requested = n * w.unitBytes ∧ available = b'.size ∧ b'.size < requested := by
  cases h with
  | short h =>
    cases he
    exact Or.inl ⟨rfl, rfl, rfl, h⟩
  | cut announced h missing =>
    cases he
    exact Or.inr ⟨_, announced, h, rfl, rfl, missing⟩
  | invalid _ _ _ _ => exact absurd he invalid_ne_underflow

theorem Outcome.error_cases (h : w.Outcome b (.error e) b') : e.IsUnderflow ∨ ∃ n, e = w.invalid n := by
  cases h with
  | short h => exact Or.inl ⟨_, _, h, rfl⟩
  | cut _ _ missing => exact Or.inl ⟨_, _, missing, rfl⟩
  | invalid _ _ _ _ => exact Or.inr ⟨_, rfl⟩

end Width

end Text

/-- A text is read exactly where it was written, from the bytes that writing it gives. A body is refused exactly if it is
there in full and spells no text, and it is consumed then. Bytes are missed exactly in the count, of which nothing is
consumed then, or behind it. -/
theorem Buffer.read_text (w : Text.Width) (b b' : Buffer) :
    (∀ text, b.read w.decode = (.ok text, b') ↔ w.Fits text ∧ b.Consumes (w.encode text) b') ∧
      (∀ n, b.read w.decode = (.error (w.invalid n), b') ↔
        n < Bytes.words w.countBytes ∧ ∃ body, b.Consumes (w.count n ++ body) b' ∧
          body.length = n * w.unitBytes ∧ ∀ text, w.body text ≠ body) ∧
      (∀ requested available, b.read w.decode = (.error (.underflow requested available), b') ↔
        (b' = b ∧ requested = w.countBytes ∧ available = b.size ∧ b.size < requested) ∨
          ∃ n < Bytes.words w.countBytes, b.Consumes (w.count n) b' ∧
            requested = n * w.unitBytes ∧ available = b'.size ∧ b'.size < requested) ∧
      ∀ e, b.read w.decode = (.error e, b') → e.IsUnderflow ∨ ∃ n, e = w.invalid n := by
  simp only [Text.Width.read_eq_iff]
  refine ⟨fun text => ⟨?_, ?_⟩, fun n => ⟨(·.of_invalid rfl), ?_⟩,
    fun requested available => ⟨(·.of_underflow rfl), ?_⟩, fun e => (·.error_cases)⟩
  · rintro (_ | _ | _ | ⟨fits, h⟩)
    exact ⟨fits, h⟩
  · rintro ⟨fits, h⟩
    exact .text fits h
  · rintro ⟨hn, body, h, hwhole, hnoText⟩
    exact .invalid hn h hwhole hnoText
  · rintro (⟨rfl, rfl, rfl, hshort⟩ | ⟨n, hn, h, rfl, rfl, hcut⟩)
    · exact .short hshort
    · exact .cut hn h hcut

/-- A surrogate in UTF-8 is no text. -/
example : (Buffer.ofBytes [3, 0, 0xED, 0xA0, 0x80, 7]).read Text.decodeNarrow =
    (.error (.invalidText 3), ⟨[3, 0, 0xED, 0xA0, 0x80], [7]⟩) := by decide +kernel

/-- Surrogates in the wrong order are no text. -/
example : (Buffer.ofBytes [2, 0, 0, 0, 0x00, 0xDC, 0x00, 0xD8, 7]).read Text.decodeWide =
    (.error (.invalidWideText 2), ⟨[2, 0, 0, 0, 0x00, 0xDC, 0x00, 0xD8], [7]⟩) := by decide +kernel

end GameGateway
