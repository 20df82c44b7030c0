import GameGateway.Proofs.Stream

/-!
# Oversized messages

The fragments of a message, processed in order behind no assembly, give the message back and leave no
assembly: `Receiver.consumeAll_split`.
-/

namespace GameGateway

namespace Fragment

@[simp] theorem flatten_chunks (size : Nat) (bytes : Bytes) : (chunks size bytes).flatten = bytes := by
  fun_induction chunks size bytes with
  | case1 => rfl
  | case2 b bs ih => rw [List.flatten_cons, ih, List.cons_append, List.take_append_drop]

theorem ne_nil_of_mem_chunks {size : Nat} {bytes fragment : Bytes} (h : fragment ∈ chunks size bytes) :
    fragment ≠ [] := by
  fun_induction chunks size bytes with
  | case1 => cases h
  | case2 b bs ih =>
    rcases List.mem_cons.1 h with rfl | h
    · exact List.cons_ne_nil _ _
    · exact ih h

theorem chunks_ne_nil (size : Nat) {bytes : Bytes} (h : bytes ≠ []) : chunks size bytes ≠ [] := by
  intro hc
  apply h
  rw [← flatten_chunks size bytes, hc, List.flatten_nil]

/-- A message is cut when it exceeds the limit, the limit has room behind a total, and a total can name
its size. -/
theorem split_eq_ok {message : Bytes} {limit : Nat} (hlimit : totalLength < limit)
    (hsize : limit < message.length) (hmax : message.length < 4294967296) :
    split message limit =
      .ok ((Fixed.encode .big (UInt32.ofNat message.length) ++ message.take (limit - totalLength)) ::
        chunks limit (message.drop (limit - totalLength))) := by
  simp only [split]
  rw [if_neg (by omega), if_neg (by omega), if_neg (by omega)]

theorem of_split_eq_ok {message : Bytes} {limit : Nat} {fragments : List Bytes}
    (h : split message limit = .ok fragments) :
    totalLength < limit ∧ limit < message.length ∧ message.length < 4294967296 := by
  simp only [split] at h
  split at h
  · cases h
  · split at h
    · cases h
    · split at h
      · cases h
      · omega

/-- What becomes of an assembly once a fragment was added to it. -/
theorem accept_some (total : Nat) (data fragment : Bytes) :
    accept (some ⟨total, data⟩) fragment =
      if total < (data ++ fragment).length then
        .error (.overfull (data ++ fragment).length total)
      else if (data ++ fragment).length = total then .ok (none, some (data ++ fragment))
      else .ok (some ⟨total, data ++ fragment⟩, none) := rfl

/-- A first fragment is treated as its body behind an empty assembly of its total. -/
theorem accept_none {fragment body : Bytes} {total : Nat} (h : start fragment = .ok ⟨total, body⟩) :
    accept none fragment = accept (some ⟨total, []⟩) body := by
  rw [accept_some, List.nil_append]
  simp only [accept, h]
  rfl

/-- A first fragment that leaves something out starts an assembly. -/
theorem accept_first {size : Nat} {front : Bytes} (hsize : size < 4294967296)
    (hfront : front.length < size) :
    accept none (Fixed.encode .big (UInt32.ofNat size) ++ front) = .ok (some ⟨size, front⟩, none) := by
  have hnat : (UInt32.ofNat size).toNat = size := UInt32.toNat_ofNat_of_lt' hsize
  have hpos : UInt32.ofNat size ≠ 0 := by
    intro h
    rw [h] at hnat
    have : size = 0 := hnat.symm
    omega
  have hstart : start (Fixed.encode .big (UInt32.ofNat size) ++ front) = .ok ⟨size, front⟩ := by
    simp only [start, Decoder.run_fixed_encode, if_neg hpos, hnat]
  rw [accept_none hstart, accept_some, List.nil_append, if_neg (by omega), if_neg (by omega)]

theorem accept_more {total : Nat} {data fragment : Bytes} (h : (data ++ fragment).length < total) :
    accept (some ⟨total, data⟩) fragment = .ok (some ⟨total, data ++ fragment⟩, none) := by
  rw [accept_some, if_neg (by omega), if_neg (by omega)]

theorem accept_last {total : Nat} {data fragment : Bytes} (h : (data ++ fragment).length = total) :
    accept (some ⟨total, data⟩) fragment = .ok (none, some (data ++ fragment)) := by
  rw [accept_some, if_neg (by omega), if_pos h]

end Fragment

namespace Receiver

open Fragment

/-- Fragments that bring exactly what an assembly lacks complete it with the last of them. -/
theorem consumeAll_fragments {total : Nat} {data : Bytes} {fragments : List Bytes}
    (hlast : fragments ≠ []) (hbytes : ∀ fragment ∈ fragments, fragment ≠ [])
    (htotal : (data ++ fragments.flatten).length = total) :
    consumeAll (some ⟨total, data⟩) (fragments.map Item.ofFragment) =
      (none, .ok (messages (data ++ fragments.flatten))) := by
  induction fragments generalizing data with
  | nil => contradiction
  | cons fragment rest ih =>
    rw [List.flatten_cons, ← List.append_assoc] at htotal ⊢
    rw [List.map_cons, consumeAll_cons_ok_iff]
    by_cases hrest : rest = []
    · subst hrest
      rw [List.flatten_nil, List.append_nil] at htotal ⊢
      exact ⟨none, _, [], consume_fragment (accept_last htotal), rfl, (List.append_nil _).symm⟩
    · have hmore : 0 < rest.flatten.length := by
        obtain ⟨next, tail, rfl⟩ := List.exists_cons_of_ne_nil hrest
        have hnext : next ≠ [] := hbytes next (by simp)
        have hpos : 0 < next.length := List.length_pos_iff.2 hnext
        rw [List.flatten_cons, List.length_append]
        omega
      have hshort : (data ++ fragment).length < total := by
        rw [List.length_append] at htotal
        omega
      refine ⟨_, [], _, consume_fragment (accept_more hshort), ?_, (List.nil_append _).symm⟩
      exact ih hrest (fun f hf => hbytes f (List.mem_cons_of_mem _ hf)) htotal

/-- The fragments of a message are read as the message. -/
theorem consumeAll_split {message : Bytes} {limit : Nat} {fragments : List Bytes}
    (h : split message limit = .ok fragments) :
    consumeAll none (fragments.map Item.ofFragment) = (none, .ok (messages message)) := by
  obtain ⟨hlimit, hsize, hmax⟩ := of_split_eq_ok h
  rw [split_eq_ok hlimit hsize hmax] at h
  cases h
  have hfront : (message.take (limit - totalLength)).length < message.length := by
    rw [List.length_take]
    simp only [totalLength] at hlimit ⊢
    omega
  have hrest : message.drop (limit - totalLength) ≠ [] := by
    intro hnil
    have := List.drop_eq_nil_iff.1 hnil
    omega
  rw [List.map_cons, consumeAll_cons_ok_iff]
  refine ⟨_, [], _, consume_fragment (accept_first hmax hfront), ?_, (List.nil_append _).symm⟩
  have hwhole : message.take (limit - totalLength) ++
      (chunks limit (message.drop (limit - totalLength))).flatten = message := by
    rw [flatten_chunks, List.take_append_drop]
  rw [consumeAll_fragments (chunks_ne_nil limit hrest) (fun _ hf => ne_nil_of_mem_chunks hf)
    (congrArg List.length hwhole), hwhole]

end Receiver

end GameGateway
