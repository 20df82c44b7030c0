import GameGateway.Proofs.SizeLimit

/-!
# The filter and back

What passes the filter on both sides comes out as it went in, unless its body goes out compressed and is larger than
what a receiver inflates: `Filter.decode_encode_packet`. The two directions decide on their own whether there is a flag
and how long the footer is.

## Implementation notes

Of a compression nothing is assumed but that its streams can be read back, `Codec.Lossless`. A codec reads under a
limit, so there are two clauses: a stream is read whole where the limit is out of its way, and where it is not, the
limit cuts what is read off and does nothing else.
-/

namespace GameGateway

/-- A compression whose streams can be read back. -/
structure Codec.Lossless (codec : Codec) : Prop where
  /-- A stream is read whole under every limit that its body stays below. -/
  whole : ∀ {body stream : Bytes}, codec.deflate body = some stream →
    ∀ {most : Nat}, body.length < most → codec.inflate most stream = some body
  /-- A lower limit reads the front of what a higher one reads. -/
  cut : ∀ {most : Nat} {stream body : Bytes}, codec.inflate most stream = some body →
    ∀ {fewer : Nat}, fewer ≤ most → codec.inflate fewer stream = some (body.take fewer)

namespace Filter

variable {codec : Codec} {params : FilterParams} {packet body stream : Bytes}

/-- The body of a packet goes out compressed: it is as long as the threshold, and its stream is shorter. -/
def Compresses (codec : Codec) (params : FilterParams) (packet : Bytes) : Prop :=
  params.compression = true ∧ 2 < packet.length ∧
    params.compressionThreshold.toNat ≤ (packet.drop 2).length ∧
    ∃ stream, codec.deflate (packet.drop 2) = some stream ∧ stream.length < (packet.drop 2).length

/-! ## The footer -/

/-- A datagram with the right footer is read as what stands before it. -/
theorem decode_append_footer (codec : Codec) (params : FilterParams) {out : Bytes} (h : 2 ≤ out.length) :
    decode codec params (out ++ params.footer out) = unflagged codec params out := by
  have hfooter : (params.footer out).length = params.footerLength := params.length_footer out
  have hsize : (out ++ params.footer out).length - params.footerLength = out.length := by
    rw [List.length_append, hfooter, Nat.add_sub_cancel]
  have hlong : ¬ (out ++ params.footer out).length < 2 + params.footerLength := by
    rw [List.length_append, hfooter]
    omega
  simp only [decode, if_neg hlong, hsize, List.take_left, List.drop_left, if_true]

/-! ## The flag -/

/-- A body behind its opcode and before its flag. -/
theorem unflagged_append {front : Bytes} (hcompression : params.compression = true) (hfront : front.length = 2)
    (body : Bytes) (flag : UInt8) :
    unflagged codec params (front ++ (body ++ [flag])) =
      if flag = 1 then (inflate codec body).map (front ++ ·) else .ok (front ++ body) := by
  have htake : (front ++ (body ++ [flag])).take 2 = front := List.take_left' hfront
  have hdrop : (front ++ (body ++ [flag])).drop 2 = body ++ [flag] := List.drop_left' hfront
  have hlast : (front ++ (body ++ [flag])).getLast? = some flag := by
    rw [← List.append_assoc, List.getLast?_concat]
  have hlong : 2 < (front ++ (body ++ [flag])).length := by
    simp only [List.length_append, List.length_singleton, hfront]
    omega
  simp only [unflagged, hcompression, hlong, and_self, if_true, htake, hdrop, hlast, List.dropLast_concat,
    Option.some.injEq]

theorem compressed?_eq_some_iff :
    compressed? codec params body = some stream ↔
      params.compressionThreshold.toNat ≤ body.length ∧ codec.deflate body = some stream ∧
        stream.length < body.length := by
  unfold compressed?
  split
  · rename_i hlong
    simp only [Option.filter_eq_some_iff, decide_eq_true_eq, hlong, true_and]
  · rename_i hshort
    simp only [hshort, false_and, reduceCtorEq]

theorem flagged_of_compresses (h : Compresses codec params packet) :
    ∃ stream, codec.deflate (packet.drop 2) = some stream ∧
      flagged codec params packet = packet.take 2 ++ (stream ++ [1]) := by
  obtain ⟨hcompression, hlong, hthreshold, stream, hstream, hshorter⟩ := h
  have hbody : compressed? codec params (packet.drop 2) = some stream :=
    compressed?_eq_some_iff.2 ⟨hthreshold, hstream, hshorter⟩
  refine ⟨stream, hstream, ?_⟩
  simp only [flagged, hcompression, hlong, and_self, if_true, hbody]

theorem flagged_of_not_compresses (h : ¬ Compresses codec params packet) (hcompression : params.compression = true)
    (hlong : 2 < packet.length) : flagged codec params packet = packet.take 2 ++ (packet.drop 2 ++ [0]) := by
  have hbody : compressed? codec params (packet.drop 2) = none := by
    apply Option.eq_none_iff_forall_ne_some.2
    intro stream hstream
    obtain ⟨hthreshold, hdeflate, hshorter⟩ := compressed?_eq_some_iff.1 hstream
    exact h ⟨hcompression, hlong, hthreshold, stream, hdeflate, hshorter⟩
  simp only [flagged, hcompression, hlong, and_self, if_true, hbody]

/-- The flag leaves the opcode where it is. -/
theorem two_le_length_flagged (codec : Codec) (params : FilterParams) (h : 2 ≤ packet.length) :
    2 ≤ (flagged codec params packet).length := by
  unfold flagged
  split
  · rw [List.length_append, List.length_take_of_le h]
    exact Nat.le_add_right _ _
  · exact h

/-- A stream is inflated to its body, if that is not too large. -/
theorem inflate_deflate (hcodec : codec.Lossless) (h : codec.deflate body = some stream) :
    inflate codec stream = if maxInflated < body.length then .error .decompression else .ok body := by
  unfold inflate
  by_cases hlarge : maxInflated < body.length
  · have hcut : codec.inflate (maxInflated + 1) stream = some (body.take (maxInflated + 1)) :=
      hcodec.cut (hcodec.whole h (Nat.lt_succ_self _)) (Nat.le_succ_of_le hlarge)
    have hover : maxInflated < (body.take (maxInflated + 1)).length := by
      rw [List.length_take]
      omega
    simp only [hcut, if_pos hover, if_pos hlarge]
  · have hwhole : codec.inflate (maxInflated + 1) stream = some body :=
      hcodec.whole h (Nat.lt_succ_of_le (Nat.le_of_not_lt hlarge))
    simp only [hwhole, if_neg hlarge]

theorem unflagged_of_compresses (hcodec : codec.Lossless) (h : Compresses codec params packet) :
    unflagged codec params (flagged codec params packet) =
      if maxInflated < (packet.drop 2).length then .error .decompression else .ok packet := by
  obtain ⟨stream, hstream, hflagged⟩ := flagged_of_compresses h
  have hfront : (packet.take 2).length = 2 := List.length_take_of_le (Nat.le_of_lt h.2.1)
  rw [hflagged, unflagged_append h.1 hfront, if_pos rfl, inflate_deflate hcodec hstream]
  split
  · rfl
  · exact congrArg Except.ok (List.take_append_drop 2 packet)

theorem unflagged_of_not_compresses (h : ¬ Compresses codec params packet) (hlength : 2 ≤ packet.length) :
    unflagged codec params (flagged codec params packet) = .ok packet := by
  by_cases hflag : params.compression = true ∧ 2 < packet.length
  · obtain ⟨hcompression, hlong⟩ := hflag
    have hfront : (packet.take 2).length = 2 := List.length_take_of_le hlength
    rw [flagged_of_not_compresses h hcompression hlong, unflagged_append hcompression hfront, if_neg (by decide),
      List.take_append_drop]
  · simp only [flagged, unflagged, if_neg hflag]

/-! ## Both directions -/

theorem decode_encode_eq (codec : Codec) (params : FilterParams) (h : 2 ≤ packet.length) :
    decode codec params (encode codec params packet) = unflagged codec params (flagged codec params packet) :=
  decode_append_footer codec params (two_le_length_flagged codec params h)

/-- A packet is read back as it was, if its body is small enough to be inflated or does not go out compressed. Its
datagram is at most the overhead of the filter longer. A body that is too large and goes out compressed is refused. -/
theorem decode_encode_packet (codec : Codec) (hcodec : codec.Lossless) (params : FilterParams) (packet : Bytes)
    (hlength : 2 ≤ packet.length) :
    ((packet.drop 2).length ≤ maxInflated ∨ ¬ Compresses codec params packet →
      decode codec params (encode codec params packet) = .ok packet) ∧
    (encode codec params packet).length ≤ packet.length + params.overhead ∧
    (maxInflated < (packet.drop 2).length → Compresses codec params packet →
      decode codec params (encode codec params packet) = .error .decompression) := by
  rw [decode_encode_eq codec params hlength]
  refine ⟨?_, length_encode_le codec params packet, ?_⟩
  · intro hrestored
    by_cases hcompresses : Compresses codec params packet
    · have hsmall : (packet.drop 2).length ≤ maxInflated :=
        hrestored.resolve_right fun hplain => hplain hcompresses
      rw [unflagged_of_compresses hcodec hcompresses, if_neg (Nat.not_lt.2 hsmall)]
    · exact unflagged_of_not_compresses hcompresses hlength
  · intro hlarge hcompresses
    rw [unflagged_of_compresses hcodec hcompresses, if_pos hlarge]

end Filter

/-- A compression that knows the stream of one body and puts a zero before every other. -/
def Codec.knowing (known stream : Bytes) : Codec where
  deflate body := some (if body = known then stream else 0 :: body)
  inflate most received :=
    if received = stream then some (known.take most)
    else
      match received with
      | 0 :: body => some (body.take most)
      | _ => none

theorem Codec.lossless_knowing (known : Bytes) {stream : Bytes} (h : stream.head? ≠ some 0) :
    (knowing known stream).Lossless where
  whole := by
    intro body received hreceived most hmost
    have hreceived : (if body = known then stream else 0 :: body) = received := Option.some.inj hreceived
    rw [← hreceived]
    by_cases hknown : body = known
    · simp only [knowing, if_true, ← hknown, List.take_of_length_le (Nat.le_of_lt hmost)]
    · have hother : 0 :: body ≠ stream := by
        rintro rfl
        exact h rfl
      simp only [knowing, if_neg hknown, if_neg hother, List.take_of_length_le (Nat.le_of_lt hmost)]
  cut := by
    intro most received body hbody fewer hfewer
    have htake : ∀ front : Bytes, (front.take most).take fewer = front.take fewer := by
      intro front
      rw [List.take_take, Nat.min_eq_left hfewer]
    simp only [knowing] at hbody ⊢
    split at hbody
    · rename_i hstream
      rw [if_pos hstream, ← Option.some.inj hbody, htake]
    · rename_i hstream
      rw [if_neg hstream]
      split at hbody
      · rw [← Option.some.inj hbody, htake]
      · cases hbody

namespace Filter

theorem compresses_knowing {known stream opcode : Bytes} (hcompression : params.compression = true)
    (hopcode : opcode.length = 2) (hthreshold : params.compressionThreshold.toNat ≤ known.length)
    (hshorter : stream.length < known.length) : Compresses (Codec.knowing known stream) params (opcode ++ known) := by
  have hbody : (opcode ++ known).drop 2 = known := List.drop_left' hopcode
  rw [Compresses, hbody, List.length_append, hopcode]
  exact ⟨hcompression, by omega, hthreshold, stream, congrArg some (if_pos rfl), hshorter⟩

/-- A message of 400 equal bytes goes out compressed and is read back. One of 70000 equal bytes goes out compressed too
and is refused. -/
theorem decode_encode_packet_compressed :
    let params : FilterParams :=
      { crcSeed := 0xDEADBEEF, crcLength := 2, compression := true, compressionThreshold := 16 }
    let message : Bytes := [0, 0] ++ List.replicate 400 0x41
    let codec := Codec.knowing message [120, 156, 99, 96, 112, 28, 5, 131, 10, 0, 0, 145, 123, 101, 145]
    let flood : Bytes := List.replicate 70000 0x42
    let floodCodec := Codec.knowing flood
      ([120, 156, 237, 193, 49, 1, 0, 0, 0, 194, 160, 110, 235, 31, 202, 18, 158, 64, 1] ++ List.replicate 67 0 ++
        [111, 3, 96, 37, 130, 251])
    codec.Lossless ∧ Compresses codec params ([0, 9] ++ message) ∧
    decode codec params (encode codec params ([0, 9] ++ message)) = .ok ([0, 9] ++ message) ∧
    floodCodec.Lossless ∧ Compresses floodCodec params ([0, 9] ++ flood) ∧
    decode floodCodec params (encode floodCodec params ([0, 9] ++ flood)) = .error .decompression := by
  intro params message codec flood floodCodec
  have hmessage : message.length = 402 := by rw [List.length_append, List.length_replicate]; rfl
  have hflood : flood.length = 70000 := List.length_replicate
  have hthreshold : params.compressionThreshold.toNat = 16 := rfl
  have hcodec : codec.Lossless := Codec.lossless_knowing message (by decide)
  have hcompresses : Compresses codec params ([0, 9] ++ message) :=
    compresses_knowing rfl rfl (by omega) (by rw [hmessage]; decide)
  have hfloodCodec : floodCodec.Lossless := Codec.lossless_knowing flood (by decide)
  have hfloods : Compresses floodCodec params ([0, 9] ++ flood) :=
    compresses_knowing rfl rfl (by omega) (by rw [hflood]; decide)
  have hread := decode_encode_packet codec hcodec params ([0, 9] ++ message) (Nat.le_of_lt hcompresses.2.1)
  have hrefused := decode_encode_packet floodCodec hfloodCodec params ([0, 9] ++ flood) (Nat.le_of_lt hfloods.2.1)
  refine ⟨hcodec, hcompresses, ?_, hfloodCodec, hfloods, ?_⟩
  · apply hread.1
    left
    exact Nat.le_trans (Nat.le_of_eq hmessage) (by decide)
  · apply hrefused.2.2 _ hfloods
    exact Nat.lt_of_lt_of_eq (by decide) hflood.symm

end Filter

end GameGateway
