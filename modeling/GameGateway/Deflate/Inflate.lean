import GameGateway.Deflate.Tables

/-!
# Inflating

A stream is a sequence of blocks, each stored, with the fixed codes or with codes of its own. A copy
that reaches before the start of the output finds zeros there.

Every loop ends because reading a symbol makes the stream shorter (`Code.size_symbol?`); the lemmas here
carry that through to whole blocks.
-/

namespace GameGateway.Deflate

/-- Output so far. -/
abbrev Output := Array UInt8

/-- Appends `length` bytes, each the one `distance` before the end at that time. -/
def copy (distance : Nat) : (length : Nat) → Output → Output
  | 0, out => out
  | length + 1, out =>
    let byte := if distance ≤ out.size then (out[out.size - distance]?).getD 0 else 0
    copy distance length (out.push byte)

/-- Reads length and distance of the copy that a symbol announces. -/
def copyOf? (distances : Code) (symbol : Nat) (s : BitStream) : Option (Token × BitStream) := do
  let (base, extra) ← lengthTable[symbol - 257]?
  let (n, s) ← s.take? extra
  let (code, s) ← distances.symbol? s
  let (far, width) ← distanceTable[code]?
  let (m, s) ← s.take? width
  return (.copy (base + n) (far + m), s)

/-- Reads a step of a body; at the end of the block there is none. -/
def token? (literals distances : Code) (s : BitStream) : Option (Option Token × BitStream) := do
  let (symbol, s) ← literals.symbol? s
  if symbol < endOfBlock then return (some (.literal (UInt8.ofNat symbol)), s)
  else if symbol = endOfBlock then return (none, s)
  else
    let (token, s) ← copyOf? distances symbol s
    return (some token, s)

theorem size_copyOf? {distances : Code} {symbol : Nat} {token : Token} {s t : BitStream}
    (h : copyOf? distances symbol s = some (token, t)) : t.size ≤ s.size := by
  simp only [copyOf?, bind, Option.bind_eq_some_iff, pure, Option.some.injEq, Prod.mk.injEq] at h
  obtain ⟨⟨base, extra⟩, -, ⟨n, u⟩, hu, ⟨code, v⟩, hv, ⟨far, width⟩, -, ⟨m, w⟩, hw, -, rfl⟩ := h
  have h1 := BitStream.size_take? hu
  have h2 := Code.size_symbol? hv
  have h3 := BitStream.size_take? hw
  dsimp only at h1 h2 h3 ⊢
  omega

theorem size_token? {literals distances : Code} {token : Option Token} {s t : BitStream}
    (h : token? literals distances s = some (token, t)) : t.size < s.size := by
  simp only [token?, bind, Option.bind_eq_some_iff, pure] at h
  obtain ⟨⟨symbol, u⟩, hu, h⟩ := h
  have hlt := Code.size_symbol? hu
  dsimp only at h
  split at h
  · simp only [Option.some.injEq, Prod.mk.injEq] at h
    rw [← h.2]
    exact hlt
  · split at h
    · simp only [Option.some.injEq, Prod.mk.injEq] at h
      rw [← h.2]
      exact hlt
    · simp only [Option.bind_eq_some_iff, Option.some.injEq, Prod.mk.injEq] at h
      obtain ⟨⟨copied, v⟩, hv, -, rfl⟩ := h
      exact Nat.lt_of_le_of_lt (size_copyOf? hv) hlt

/-- Reads steps up to the end of the block, or until there are `most` bytes. -/
def tokens? (literals distances : Code) (most : Nat) (s : BitStream) (out : Output) :
    Option (Output × BitStream) :=
  if most ≤ out.size then some (out, s)
  else
    match h : token? literals distances s with
    | none => none
    | some (none, t) => some (out, t)
    | some (some (.literal byte), t) =>
      have : t.size < s.size := size_token? h
      tokens? literals distances most t (out.push byte)
    | some (some (.copy length distance), t) =>
      have : t.size < s.size := size_token? h
      tokens? literals distances most t (copy distance length out)
termination_by s.size

theorem size_tokens? {literals distances : Code} {most : Nat} {s t : BitStream} {out out' : Output}
    (h : tokens? literals distances most s out = some (out', t)) : t.size ≤ s.size := by
  fun_induction tokens? literals distances most s out with
  | case1 =>
    simp only [Option.some.injEq, Prod.mk.injEq] at h
    exact h.2 ▸ Nat.le_refl _
  | case2 => cases h
  | case3 s out hm u hu =>
    simp only [Option.some.injEq, Prod.mk.injEq] at h
    rw [← h.2]
    exact Nat.le_of_lt (size_token? hu)
  | case4 s out hm byte u hu hlt ih => exact Nat.le_of_lt (Nat.lt_of_le_of_lt (ih h) hlt)
  | case5 s out hm length distance u hu hlt ih =>
    exact Nat.le_of_lt (Nat.lt_of_le_of_lt (ih h) hlt)

/-- Reads a stored block: a byte count, its complement, and that many bytes, all whole bytes. -/
def stored? (s : BitStream) (out : Output) : Option (Output × BitStream) :=
  match s.bytes with
  | a :: b :: c :: d :: rest =>
    let count := Fixed.decode UInt16 .little [a, b]
    let check := Fixed.decode UInt16 .little [c, d]
    let body := rest.take count.toNat
    if check = ~~~ count ∧ body.length = count.toNat then
      some (out ++ body, ⟨[], rest.drop count.toNat⟩)
    else none
  | _ => none

theorem size_stored? {s t : BitStream} {out out' : Output}
    (h : stored? s out = some (out', t)) : t.size ≤ s.size := by
  rw [stored?] at h
  split at h
  · rename_i a b c d rest hs
    dsimp only at h
    split at h
    · simp only [Option.some.injEq, Prod.mk.injEq] at h
      rw [← h.2]
      simp only [BitStream.size, hs, List.length_nil, List.length_cons, List.length_drop]
      omega
    · cases h
  · cases h

/-- Reads word lengths, most recent first, until there are `count`. Symbol 16 repeats the last length,
17 and 18 repeat zero. -/
def lengths? (code : Code) (count : Nat) (s : BitStream) (lengths : List Nat) :
    Option (List Nat × BitStream) :=
  if count < lengths.length then none
  else if lengths.length = count then some (lengths.reverse, s)
  else
    match h : code.symbol? s with
    | none => none
    | some (symbol, t) =>
      have : t.size < s.size := Code.size_symbol? h
      if symbol < 16 then lengths? code count t (symbol :: lengths)
      else
        let (width, least) := if symbol = 16 then (2, 3) else if symbol = 17 then (3, 3) else (7, 11)
        match lengths.head?, symbol with
        | none, 16 => none
        | last, _ =>
          match h' : t.take? width with
          | none => none
          | some (n, u) =>
            have : u.size + width = t.size := BitStream.size_take? h'
            let length := if symbol = 16 then last.getD 0 else 0
            lengths? code count u (List.replicate (least + n) length ++ lengths)
termination_by s.size

/-- Reads the lengths of `count` words of the code for lengths, three bits each. -/
def shortLengths? : (count : Nat) → BitStream → Option (List Nat × BitStream)
  | 0, s => some ([], s)
  | count + 1, s =>
    match s.take? 3 with
    | none => none
    | some (n, s) => (shortLengths? count s).map fun (ns, s) => (n :: ns, s)

/-- The lengths of the code for lengths by symbol, from the order of their sending. -/
def placeLengths (sent : List Nat) : List Nat :=
  (List.range 19).map fun symbol => ((lengthOrder.zip sent).lookup symbol).getD 0

/-- Reads the two codes of a block. -/
def codes? (s : BitStream) : Option ((Code × Code) × BitStream) := do
  let (literalCount, s) ← s.take? 5
  let (distanceCount, s) ← s.take? 5
  let (shortCount, s) ← s.take? 4
  let literalCount := literalCount + 257
  let distanceCount := distanceCount + 1
  guard (literalCount ≤ 286 ∧ distanceCount ≤ 30)
  let (sent, s) ← shortLengths? (shortCount + 4) s
  let short := Code.ofLengths (placeLengths sent)
  guard short.isComplete
  let (lengths, s) ← lengths? short (literalCount + distanceCount) s []
  let literals := Code.ofLengths (lengths.take literalCount)
  let distances := Code.ofLengths (lengths.drop literalCount)
  guard (literals.isUsable ∧ distances.isUsable)
  return ((literals, distances), s)

theorem size_lengths? {code : Code} {count : Nat} {s t : BitStream} {lengths all : List Nat}
    (h : lengths? code count s lengths = some (all, t)) : t.size ≤ s.size := by
  fun_induction lengths? code count s lengths with
  | case1 => cases h
  | case2 =>
    simp only [Option.some.injEq, Prod.mk.injEq] at h
    exact h.2 ▸ Nat.le_refl _
  | case3 => cases h
  | case4 _ _ _ _ _ _ _ hlt _ ih =>
    have := ih h
    omega
  | case5 => cases h
  | case6 => cases h
  | case7 =>
    rename_i ih
    have := ih h
    omega

theorem size_shortLengths? {count : Nat} {s t : BitStream} {lengths : List Nat}
    (h : shortLengths? count s = some (lengths, t)) : t.size ≤ s.size := by
  induction count generalizing s lengths with
  | zero =>
    simp only [shortLengths?, Option.some.injEq, Prod.mk.injEq] at h
    exact h.2 ▸ Nat.le_refl _
  | succ count ih =>
    rw [shortLengths?] at h
    split at h
    · cases h
    · rename_i n u hu
      obtain ⟨⟨ns, v⟩, hv, hmap⟩ := Option.map_eq_some_iff.1 h
      simp only [Prod.mk.injEq] at hmap
      obtain ⟨-, rfl⟩ := hmap
      have h1 := BitStream.size_take? hu
      have h2 := ih hv
      omega

theorem size_codes? {s t : BitStream} {codes : Code × Code} (h : codes? s = some (codes, t)) :
    t.size ≤ s.size := by
  obtain ⟨⟨a, s1⟩, h1, h⟩ := Option.bind_eq_some_iff.1 h
  obtain ⟨⟨b, s2⟩, h2, h⟩ := Option.bind_eq_some_iff.1 h
  obtain ⟨⟨c, s3⟩, h3, h⟩ := Option.bind_eq_some_iff.1 h
  obtain ⟨-, -, h⟩ := Option.bind_eq_some_iff.1 h
  obtain ⟨⟨sent, s4⟩, h4, h⟩ := Option.bind_eq_some_iff.1 h
  obtain ⟨-, -, h⟩ := Option.bind_eq_some_iff.1 h
  obtain ⟨⟨all, s5⟩, h5, h⟩ := Option.bind_eq_some_iff.1 h
  obtain ⟨-, -, h⟩ := Option.bind_eq_some_iff.1 h
  obtain rfl : s5 = t := congrArg Prod.snd (Option.some.inj h)
  have e1 := BitStream.size_take? h1
  have e2 := BitStream.size_take? h2
  have e3 := BitStream.size_take? h3
  have e4 := size_shortLengths? h4
  have e5 := size_lengths? h5
  dsimp only at *
  omega

/-- Reads the body of a block of the given type. -/
def block? (type most : Nat) (s : BitStream) (out : Output) : Option (Output × BitStream) :=
  match type with
  | 0 => stored? s out
  | 1 => tokens? fixedCode fixedDistanceCode most s out
  | 2 => do
    let ((literals, distances), s) ← codes? s
    tokens? literals distances most s out
  | _ => none

theorem size_block? {type most : Nat} {s t : BitStream} {out out' : Output}
    (h : block? type most s out = some (out', t)) : t.size ≤ s.size := by
  unfold block? at h
  split at h
  · exact size_stored? h
  · exact size_tokens? h
  · dsimp only at h
    simp only [bind, Option.bind_eq_some_iff] at h
    obtain ⟨⟨⟨literals, distances⟩, u⟩, hu, h⟩ := h
    exact Nat.le_trans (size_tokens? h) (size_codes? hu)
  · cases h

/-- Reads blocks up to the last one, or until there are `most` bytes. -/
def blocks? (most : Nat) (s : BitStream) (out : Output) : Option (Output × BitStream) :=
  if most ≤ out.size then some (out, s)
  else
    match h₁ : s.next? with
    | none => none
    | some (last, s₁) =>
      match h₂ : s₁.take? 2 with
      | none => none
      | some (type, s₂) =>
        match h₃ : block? type most s₂ out with
        | none => none
        | some (out, s₃) =>
          have : s₃.size < s.size := by
            have e₁ := BitStream.size_next? h₁
            have e₂ := BitStream.size_take? h₂
            have e₃ := size_block? h₃
            omega
          if last then some (out, s₃) else blocks? most s₃ out
termination_by s.size

/-- Inflates a stream: the output, of which bytes after the first `most` count for nothing, and the
bytes behind the stream. -/
def inflate? (most : Nat) (bytes : Bytes) : Option (Output × Bytes) :=
  (blocks? most (BitStream.ofBytes bytes) #[]).map fun (out, s) => (out, s.bytes)

end GameGateway.Deflate
