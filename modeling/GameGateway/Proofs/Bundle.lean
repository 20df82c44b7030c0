import GameGateway.Session.Receiver
import Mathlib.Data.List.Forall2

/-!
# Bundled messages

A bundle is read as the messages that were packed, unless it is a single message that opens as a bundle
does: `Bundle.unpack_pack`. A receiver passes on those of them that are not empty.
-/

namespace GameGateway

namespace Record

theorem encode_eq_ok {bytes : Bytes} (h : bytes.length < 65536) : ∃ record, encode bytes = .ok record := by
  by_cases hshort : bytes.length < SizePrefix.sentinel
  · exact ⟨_, by rw [encode, SizePrefix.encode, if_pos hshort]; rfl⟩
  · exact ⟨_, by rw [encode, SizePrefix.encode, if_neg hshort, if_pos h]; rfl⟩

theorem all_nil : all [] = ([], none) := by
  rw [all]
  rfl

/-- A record at the front is read first. -/
theorem all_of_run_decode {bytes first rest : Bytes} (h : decode.run bytes = (.ok first, rest)) :
    all bytes = (first :: (all rest).1, (all rest).2) := by
  have hempty : ¬ bytes.isEmpty := by
    intro hempty
    have hread := length_run_decode h
    rw [List.isEmpty_iff.1 hempty] at hread
    exact Nat.not_lt_zero _ hread
  rw [all, if_neg hempty]
  split
  · rename_i found tail hfound
    rw [h] at hfound
    cases hfound
    rfl
  · rename_i e tail hfound
    rw [h] at hfound
    cases hfound

theorem encode_eq_ok_iff {bytes record : Bytes} :
    encode bytes = .ok record ↔ ∃ front, SizePrefix.encode bytes.length = .ok front ∧ record = front ++ bytes := by
  rw [encode]
  cases SizePrefix.encode bytes.length with
  | error e => simp [Except.map]
  | ok front => simp [Except.map, eq_comm]

/-- Byte strings are written one record each. -/
theorem forall₂_encode {list records : List Bytes} (h : list.mapM encode = .ok records) :
    List.Forall₂ (fun bytes record => encode bytes = .ok record) list records := by
  induction list generalizing records with
  | nil =>
    cases h
    exact .nil
  | cons bytes list ih =>
    rw [List.mapM_cons] at h
    cases hrecord : encode bytes with
    | error e =>
      rw [hrecord] at h
      cases h
    | ok record =>
      cases htail : list.mapM encode with
      | error e =>
        rw [hrecord, htail] at h
        cases h
      | ok tail =>
        rw [hrecord, htail] at h
        cases h
        exact .cons hrecord (ih htail)

/-- The records of a list of byte strings are read as the list. -/
theorem all_flatten {list records : List Bytes} (h : list.mapM encode = .ok records) :
    all records.flatten = (list, none) := by
  have hrecords := forall₂_encode h
  clear h
  induction hrecords with
  | nil => exact all_nil
  | cons hrecord _ ih => rw [List.flatten_cons, all_of_run_decode (run_decode_append hrecord _), ih]

theorem mapM_encode_eq_ok {list : List Bytes} (h : ∀ bytes ∈ list, bytes.length < 65536) :
    ∃ records, list.mapM encode = .ok records := by
  induction list with
  | nil => exact ⟨[], rfl⟩
  | cons bytes list ih =>
    obtain ⟨record, hrecord⟩ := encode_eq_ok (h bytes (List.mem_cons_self ..))
    obtain ⟨tail, htail⟩ := ih fun b hb => h b (List.mem_cons_of_mem _ hb)
    exact ⟨record :: tail, by rw [List.mapM_cons, hrecord, htail]; rfl⟩

end Record

namespace Bundle

/-- A byte string opens with the pair that marks a bundle. -/
def Opens (bytes : Bytes) : Prop := Opcode.bytes Opcode.multiMessage <+: bytes

instance : DecidablePred Opens := fun bytes =>
  inferInstanceAs (Decidable (Opcode.bytes Opcode.multiMessage <+: bytes))

theorem unpack_of_not_opens {payload : Bytes} (h : ¬ Opens payload) : unpack payload = .ok [payload] := by
  unfold unpack
  split
  · rename_i body
    exact absurd ⟨body, rfl⟩ h
  · rfl

theorem unpack_append {body : Bytes} {messages : List Bytes} (h : Record.all body = (messages, none)) :
    unpack (Opcode.bytes Opcode.multiMessage ++ body) = .ok messages := by
  have hbytes : Opcode.bytes Opcode.multiMessage ++ body = 0x00 :: 0x19 :: body := rfl
  rw [hbytes]
  simp only [unpack, h]

theorem pack_of_length_ne_one {messages : List Bytes} (h : messages.length ≠ 1) :
    pack messages =
      (messages.mapM Record.encode).map (Opcode.bytes Opcode.multiMessage ++ ·.flatten) := by
  unfold pack
  split
  · exact absurd rfl h
  · rfl

/-- What is packed of several messages is the mark of a bundle and their records. -/
theorem exists_records_of_pack {messages : List Bytes} {payload : Bytes} (h : pack messages = .ok payload)
    (hlength : messages.length ≠ 1) :
    ∃ records, messages.mapM Record.encode = .ok records ∧
      payload = Opcode.bytes Opcode.multiMessage ++ records.flatten := by
  rw [pack_of_length_ne_one hlength] at h
  cases hrecords : messages.mapM Record.encode with
  | error e =>
    rw [hrecords] at h
    cases h
  | ok records =>
    rw [hrecords] at h
    cases h
    exact ⟨records, rfl, rfl⟩

/-- Messages of less than 64 KiB are packed. -/
theorem pack_eq_ok {messages : List Bytes} (h : ∀ message ∈ messages, message.length < 65536) :
    ∃ payload, pack messages = .ok payload := by
  by_cases hone : messages.length = 1
  · obtain ⟨message, rfl⟩ := List.length_eq_one_iff.1 hone
    exact ⟨message, rfl⟩
  · obtain ⟨records, hrecords⟩ := Record.mapM_encode_eq_ok h
    exact ⟨_, by rw [pack_of_length_ne_one hone, hrecords]; rfl⟩

/-- What was packed is read back, unless it is one message that opens as a bundle does. -/
theorem unpack_pack {messages : List Bytes} {payload : Bytes} (h : pack messages = .ok payload)
    (hone : ∀ message, messages = [message] → ¬ Opens message) : unpack payload = .ok messages := by
  by_cases hlength : messages.length = 1
  · obtain ⟨message, rfl⟩ := List.length_eq_one_iff.1 hlength
    cases h
    exact unpack_of_not_opens (hone payload rfl)
  · obtain ⟨records, hrecords, rfl⟩ := exists_records_of_pack h hlength
    exact unpack_append (Record.all_flatten hrecords)

end Bundle

namespace Receiver

/-- The messages that a receiver passes on: those that are not empty. -/
def passedOn (messages : List Bytes) : List Bytes := messages.filter fun message => !message.isEmpty

@[simp] theorem passedOn_append (first rest : List Bytes) :
    passedOn (first ++ rest) = passedOn first ++ passedOn rest := List.filter_append ..

theorem passedOn_eq_self {messages : List Bytes} (h : ∀ message ∈ messages, message ≠ []) :
    passedOn messages = messages := by
  apply List.filter_eq_self.2
  intro message hm
  simpa using h message hm

/-- Of what was packed, the receiver passes on the messages that are not empty. -/
theorem messages_pack {group : List Bytes} {payload : Bytes} (h : Bundle.pack group = .ok payload)
    (hopens : ∀ message ∈ group, ¬ Bundle.Opens message) : messages payload = passedOn group := by
  have hone : ∀ message, group = [message] → ¬ Bundle.Opens message := by
    intro message hgroup
    exact hopens message (by rw [hgroup]; exact List.mem_singleton_self message)
  rw [messages, Bundle.unpack_pack h hone]
  rfl

theorem messages_of_not_opens {message : Bytes} (h : ¬ Bundle.Opens message) :
    messages message = passedOn [message] := by
  rw [messages, Bundle.unpack_of_not_opens h]
  rfl

end Receiver

end GameGateway
