import GameGateway.Buffer

/-!
# Values and their forms

A byte string is the form of a value for a decoder if the decoder, whatever stands behind the form, takes exactly the
form for the value, and if a form that is cut short is an underflow: `Decoder.Reads`. Forms follow each other as decoders
do (`Decoder.Reads.bind`), so that no decoder put together from others has to be cut at every byte again.

What a buffer has given away is told apart from how it was read: `Buffer.Consumes`.
-/

namespace GameGateway

/-- More bytes were asked for than there are. -/
def ReadError.IsUnderflow (e : ReadError) : Prop :=
  ∃ requested available, available < requested ∧ e = .underflow requested available

/-! ## Forms -/

namespace Decoder

variable {α β : Type} {d : Decoder α} {f : α → Decoder β} {a : α} {b : β} {form tail : Bytes}

/-- The decoder takes exactly this form for this value. -/
structure Reads (d : Decoder α) (form : Bytes) (a : α) : Prop where
  run_append : ∀ rest, d.run (form ++ rest) = (.ok a, rest)
  underflow : ∀ front, front <+: form → front ≠ form → ∃ e rest, e.IsUnderflow ∧ d.run front = (.error e, rest)

theorem run_fixed_short {α : Type} [Fixed α] {order : ByteOrder} {bytes : Bytes} (h : bytes.length < Fixed.width α) :
    (fixed α order).run bytes = (.error (.underflow (Fixed.width α) bytes.length), bytes) := by
  rw [run_fixed, if_neg (Nat.not_le.2 h)]

theorem length_lt_of_cut {front : Bytes} (h : front <+: form) (hne : front ≠ form) : front.length < form.length :=
  Nat.lt_of_not_le fun hle => hne (h.eq_of_length_le hle)

/-- A cut through two forms is a cut through the first, or it leaves the first whole and goes through the second. -/
theorem cut_append_cases {front : Bytes} (h : front <+: form ++ tail) (hne : front ≠ form ++ tail) :
    (front <+: form ∧ front ≠ form) ∨ ∃ more, front = form ++ more ∧ more <+: tail ∧ more ≠ tail := by
  by_cases hwhole : form <+: front
  · obtain ⟨more, rfl⟩ := hwhole
    exact Or.inr ⟨more, rfl, (List.prefix_append_right_inj form).1 h, fun heq => hne (by rw [heq])⟩
  · have hcut : front <+: form := (List.prefix_or_prefix_of_prefix h (List.prefix_append form tail)).resolve_right hwhole
    exact Or.inl ⟨hcut, fun heq => hwhole (heq ▸ List.prefix_refl _)⟩

namespace Reads

theorem pure (a : α) : (Pure.pure a : Decoder α).Reads [] a where
  run_append rest := run_pure a rest
  underflow _ h hne := absurd (List.prefix_nil.1 h) hne

theorem take (form : Bytes) : (Decoder.take form.length).Reads form form where
  run_append rest := run_take_append form rest
  underflow front h hne := by
    have hlt := length_lt_of_cut h hne
    refine ⟨_, front, ⟨form.length, front.length, hlt, rfl⟩, ?_⟩
    rw [run_take, if_neg (Nat.not_le.2 hlt)]

theorem bind (hd : d.Reads form a) (hf : (f a).Reads tail b) : (d >>= f).Reads (form ++ tail) b where
  run_append rest := by rw [List.append_assoc, run_bind_ok (hd.run_append _), hf.run_append]
  underflow front h hne := by
    rcases cut_append_cases h hne with ⟨hfirst, hne'⟩ | ⟨more, rfl, hsecond, hne'⟩
    · obtain ⟨e, rest, he, hrun⟩ := hd.underflow front hfirst hne'
      exact ⟨e, rest, he, run_bind_error hrun⟩
    · obtain ⟨e, rest, he, hrun⟩ := hf.underflow more hsecond hne'
      exact ⟨e, rest, he, by rw [run_bind_ok (hd.run_append more), hrun]⟩

theorem fixed [Fixed α] (order : ByteOrder) (a : α) : (Decoder.fixed α order).Reads (Fixed.encode order a) a := by
  have h := (take (Fixed.encode order a)).bind (pure (Fixed.decode α order (Fixed.encode order a)))
    (f := fun bytes => Pure.pure (Fixed.decode α order bytes))
  rwa [Fixed.length_encode, List.append_nil, Fixed.decode_encode] at h

end Reads

end Decoder

/-! ## What buffers give away -/

namespace Buffer

variable {α : Type} {b b' b'' : Buffer} {bytes more : Bytes}

/-- The second buffer is the first one after it has given away these bytes. -/
structure Consumes (b : Buffer) (bytes : Bytes) (b' : Buffer) : Prop where
  consumed : b'.consumed = b.consumed ++ bytes
  unread : b.unread = bytes ++ b'.unread

theorem Consumes.refl (b : Buffer) : b.Consumes [] b := ⟨(List.append_nil _).symm, rfl⟩

theorem Consumes.trans (h : b.Consumes bytes b') (h' : b'.Consumes more b'') : b.Consumes (bytes ++ more) b'' where
  consumed := by rw [h'.consumed, h.consumed, List.append_assoc]
  unread := by rw [h.unread, h'.unread, List.append_assoc]

theorem Consumes.eq_of_nil (h : b.Consumes [] b') : b' = b := by
  obtain ⟨hconsumed, hunread⟩ := h
  cases b
  cases b'
  simp_all

theorem Consumes.split (h : b.Consumes (bytes ++ more) b'') : ∃ b', b.Consumes bytes b' ∧ b'.Consumes more b'' :=
  ⟨⟨b.consumed ++ bytes, more ++ b''.unread⟩, ⟨rfl, by rw [h.unread, List.append_assoc]⟩,
    ⟨by rw [h.consumed, List.append_assoc], rfl⟩⟩

/-- A buffer can give away as many bytes as it has. -/
theorem exists_consumes {n : Nat} (h : n ≤ b.size) : ∃ bytes b', bytes.length = n ∧ b.Consumes bytes b' :=
  ⟨b.unread.take n, ⟨b.consumed ++ b.unread.take n, b.unread.drop n⟩, List.length_take_of_le h, rfl,
    (List.take_append_drop n b.unread).symm⟩

/-- A read gives away what its decoder does not leave. -/
theorem Consumes.read (h : b.Consumes bytes b') {d : Decoder α} {result : Except ReadError α}
    (hrun : d.run b.unread = (result, b'.unread)) : b.read d = (result, b') := by
  have hlength : b.unread.length - b'.unread.length = bytes.length := by
    rw [h.unread, List.length_append, Nat.add_sub_cancel]
  have hfront : b.unread.take bytes.length = bytes := by
    rw [h.unread]
    exact List.take_left
  simp only [Buffer.read, hrun, hlength, hfront, ← h.consumed]

end Buffer

end GameGateway
