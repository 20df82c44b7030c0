import GameGateway.Buffer
import GameGateway.Proofs.SizeLimit

/-!
# Reassembly

What a receiver does with a list of fragments is said by a grammar. A group of payloads carries a message if its first
payload announces the message's size and the last one brings its last byte; a list that is cut into such groups, and a
group that still lacks something, is taken without a violation, and nothing else is: `Receiver.assembleAll_grammar`.
The fragments of a message are one such group: `Receiver.assembleAll_split`.

## Implementation notes

`Fragment.Cuts` speaks of groups and their bytes, not of the assembly that a receiver keeps. One fragment more is one
step of it, `Fragment.Cuts.accept`; the other direction goes through the groups one by one.
-/

namespace GameGateway

namespace Receiver

/-- Takes a fragment: the message that it completes, if any. Behind a violation no assembly is left. -/
def assemble (fragment : Bytes) (r : Receiver) : Receiver × Except Violation (Option Bytes) :=
  match Fragment.accept r.assembly fragment with
  | .ok (assembly, complete) => ({ r with assembly }, .ok complete)
  | .error v => ({ r with assembly := none }, .error v)

/-- A fragment is processed by taking it and reading the message that it completes. -/
theorem process_ofFragment (fragment : Bytes) (r : Receiver) :
    process (.ofFragment fragment) r =
      ((r.assemble fragment).1,
        (r.assemble fragment).2.map fun complete => (complete.map messages).getD []) := by
  simp only [process, Item.ofFragment, assemble]
  cases Fragment.accept r.assembly fragment with
  | ok _ => rfl
  | error _ => rfl

/-- Takes fragments in order: what each completes, and the violation that stopped it. -/
def assembleAll (r : Receiver) : List Bytes → Receiver × List (Option Bytes) × Option Violation
  | [] => (r, [], none)
  | fragment :: fragments =>
    match r.assemble fragment with
    | (left, .error v) => (left, [], some v)
    | (left, .ok complete) =>
      let rest := assembleAll left fragments
      (rest.1, complete :: rest.2.1, rest.2.2)

end Receiver

/-! ## The grammar -/

namespace Fragment

/-- The first payload of a group announces a size other than 0, in four bytes. -/
def Announces (group : List Bytes) (total : Nat) : Prop :=
  ∃ first rest, group = first :: rest ∧ totalLength ≤ first.length ∧
    Bytes.toNat .big (first.take totalLength) = total ∧ 0 < total

/-- What a group brings behind its announcement. -/
def carried (group : List Bytes) : Bytes := group.flatten.drop totalLength

/-- A group of payloads carries a message, and no initial part of it already carries as much. -/
structure Completes (group : List Bytes) (message : Bytes) : Prop where
  announces : Announces group message.length
  carries : carried group = message
  lacking : ∀ front, front <+: group → front ≠ [] → front ≠ group → (carried front).length < message.length

/-- A group of payloads lacks something of the size that it announces. -/
structure Unfinished (group : List Bytes) (total : Nat) : Prop where
  announces : Announces group total
  lacking : (carried group).length < total

/-- What is left of a group: no payload without an assembly, else an unfinished group that brought what the assembly
has. -/
def Pends (rest : List Bytes) : Option Assembly → Prop
  | none => rest = []
  | some assembly => Unfinished rest assembly.total ∧ carried rest = assembly.data

/-- A list of payloads is groups that carry the messages, one behind the other, and behind them an unfinished group if
an assembly is left. -/
def Cuts (payloads messages : List Bytes) (left : Option Assembly) : Prop :=
  ∃ groups rest, payloads = groups.flatten ++ rest ∧ List.Forall₂ Completes groups messages ∧ Pends rest left

variable {group front rest payloads messages : List Bytes} {payload message : Bytes} {total : Nat}
  {left next : Option Assembly} {complete : Option Bytes}

/-! ## Groups -/

theorem start_eq_ok_iff {body : Bytes} :
    start payload = .ok ⟨total, body⟩ ↔
      totalLength ≤ payload.length ∧ Bytes.toNat .big (payload.take totalLength) = total ∧ 0 < total ∧
        payload.drop totalLength = body := by
  have hwidth : Fixed.width UInt32 = totalLength := rfl
  rw [start, Decoder.run_fixed, hwidth]
  by_cases hlength : totalLength ≤ payload.length
  · have hlt := Bytes.toNat_lt .big (payload.take totalLength)
    rw [List.length_take_of_le hlength] at hlt
    have hread : (Fixed.decode UInt32 .big (payload.take totalLength)).toNat =
        Bytes.toNat .big (payload.take totalLength) := Fixed.toNat_ofNat (α := UInt32) _ hlt
    simp only [if_pos hlength, ← UInt32.toNat_inj, hread, UInt32.toNat_zero]
    split
    · rename_i hzero
      simp only [reduceCtorEq, false_iff, hzero]
      omega
    · rename_i hpos
      simp only [Except.ok.injEq, Assembly.mk.injEq, hlength, true_and]
      constructor
      · rintro ⟨rfl, rfl⟩
        exact ⟨rfl, Nat.pos_of_ne_zero hpos, rfl⟩
      · rintro ⟨rfl, -, rfl⟩
        exact ⟨rfl, rfl⟩
  · simp [hlength]

theorem announces_cons_iff :
    Announces (payload :: rest) total ↔ start payload = .ok ⟨total, payload.drop totalLength⟩ := by
  rw [start_eq_ok_iff]
  constructor
  · rintro ⟨first, rest', hcons, hlength, htotal, hpos⟩
    cases hcons
    exact ⟨hlength, htotal, hpos, rfl⟩
  · rintro ⟨hlength, htotal, hpos, -⟩
    exact ⟨payload, rest, rfl, hlength, htotal, hpos⟩

/-- What a group announces depends on its first payload alone. -/
theorem announces_append_iff (hfront : front ≠ []) : Announces (front ++ rest) total ↔ Announces front total := by
  obtain ⟨first, front, rfl⟩ := List.exists_cons_of_ne_nil hfront
  rw [List.cons_append, announces_cons_iff, announces_cons_iff]

theorem Announces.unique {total' : Nat} (h : Announces group total) (h' : Announces group total') : total = total' := by
  obtain ⟨first, rest, rfl, -, htotal, -⟩ := h
  obtain ⟨_, _, hcons, -, htotal', -⟩ := h'
  cases hcons
  exact htotal.symm.trans htotal'

theorem carried_append (h : Announces front total) : carried (front ++ rest) = carried front ++ rest.flatten := by
  obtain ⟨first, tail, rfl, hlength, -⟩ := h
  rw [carried, carried, List.flatten_append, List.drop_append_of_le_length]
  rw [List.flatten_cons, List.length_append]
  omega

theorem length_carried_le (h : front <+: group) : (carried front).length ≤ (carried group).length := by
  obtain ⟨rest, rfl⟩ := h
  simp only [carried, List.length_drop, List.flatten_append, List.length_append]
  omega

/-- A group that lacks something lacked it before. -/
theorem Unfinished.of_prefix (h : Unfinished group total) (hp : front <+: group) (hfront : front ≠ []) :
    Unfinished front total where
  announces := by
    obtain ⟨rest, rfl⟩ := hp
    exact (announces_append_iff hfront).1 h.announces
  lacking := Nat.lt_of_le_of_lt (length_carried_le hp) h.lacking

/-- An initial part of a group that is unfinished unless it is empty belongs to an assembly. -/
theorem exists_pends (h : front ≠ [] → Unfinished front total) : ∃ left, Pends front left := by
  by_cases hfront : front = []
  · exact ⟨none, hfront⟩
  · exact ⟨some ⟨total, carried front⟩, h hfront, rfl⟩

/-! ## One payload more -/

/-- What a payload does behind an unfinished group, or at the start of one. -/
theorem Pends.accept_eq (h : Pends rest left) (hannounces : Announces (rest ++ [payload]) total) :
    accept left payload =
      let brought := carried (rest ++ [payload])
      if total < brought.length then .error (.overfull brought.length total)
      else if brought.length = total then .ok (none, some brought)
      else .ok (some ⟨total, brought⟩, none) := by
  cases left with
  | none =>
    cases h
    have hbrought : carried ([] ++ [payload]) = payload.drop totalLength := by simp [carried]
    rw [List.nil_append] at hannounces
    rw [accept_none (announces_cons_iff.1 hannounces), accept_some, hbrought, List.nil_append]
  | some assembly =>
    obtain ⟨size, data⟩ := assembly
    obtain ⟨hunfinished, hdata⟩ := h
    simp only at hunfinished hdata
    have hrest : rest ≠ [] := by
      obtain ⟨_, _, rfl, -⟩ := hunfinished.announces
      exact List.cons_ne_nil _ _
    have hsize : total = size := ((announces_append_iff hrest).1 hannounces).unique hunfinished.announces
    have hbrought : carried (rest ++ [payload]) = data ++ payload := by
      rw [carried_append hunfinished.announces, hdata, List.flatten_singleton]
    rw [accept_some, hbrought, hsize]

theorem Pends.announces_of_accept {out : Option Assembly × Option Bytes} (h : Pends rest left)
    (hok : accept left payload = .ok out) : ∃ total, Announces (rest ++ [payload]) total := by
  cases left with
  | none =>
    cases h
    cases hstart : start payload with
    | error v =>
      rw [accept, hstart] at hok
      cases hok
    | ok assembly =>
      obtain ⟨total, body⟩ := assembly
      obtain ⟨hlength, htotal, hpos, -⟩ := start_eq_ok_iff.1 hstart
      exact ⟨total, payload, [], rfl, hlength, htotal, hpos⟩
  | some assembly =>
    obtain ⟨⟨hannounces, -⟩, -⟩ := h
    obtain ⟨_, _, rfl, -⟩ := id hannounces
    exact ⟨assembly.total, (announces_append_iff (List.cons_ne_nil _ _)).2 hannounces⟩

/-- A payload that is no violation completes a message with the group that it belongs to, or leaves it unfinished. -/
theorem Pends.accept_cases (h : Pends rest left) (hok : accept left payload = .ok (next, complete)) :
    (∃ message, complete = some message ∧ next = none ∧ Completes (rest ++ [payload]) message) ∨
      complete = none ∧ Pends (rest ++ [payload]) next := by
  obtain ⟨total, hannounces⟩ := h.announces_of_accept hok
  rw [h.accept_eq hannounces] at hok
  simp only at hok
  split at hok
  · cases hok
  · rename_i hover
    split at hok
    · rename_i hfull
      cases hok
      refine Or.inl ⟨_, rfl, rfl, ⟨hfull ▸ hannounces, rfl, ?_⟩⟩
      intro front hprefix hfront hproper
      -- A proper initial part of the group is one of what was there before, which is unfinished.
      have hrest : front <+: rest := (List.prefix_concat_iff.1 hprefix).resolve_left hproper
      have hne : rest ≠ [] := by
        rintro rfl
        exact hfront (List.prefix_nil.1 hrest)
      cases left with
      | none => exact absurd h hne
      | some assembly =>
        obtain ⟨hunfinished, -⟩ := h
        have hsize := ((announces_append_iff hne).1 hannounces).unique hunfinished.announces
        rw [hfull, hsize]
        exact Nat.lt_of_le_of_lt (length_carried_le hrest) hunfinished.lacking
    · rename_i hfull
      cases hok
      refine Or.inr ⟨rfl, ⟨hannounces, ?_⟩, rfl⟩
      exact Nat.lt_of_le_of_ne (Nat.le_of_not_lt hover) hfull

/-- A payload that is no violation extends the cut. -/
theorem Cuts.accept (h : Cuts payloads messages left) (hok : Fragment.accept left payload = .ok (next, complete)) :
    Cuts (payloads ++ [payload]) (messages ++ complete.toList) next := by
  obtain ⟨groups, rest, rfl, hgroups, hrest⟩ := h
  rcases hrest.accept_cases hok with ⟨message, rfl, rfl, hcompletes⟩ | ⟨rfl, hpends⟩
  · refine ⟨groups ++ [rest ++ [payload]], [], ?_, ?_, rfl⟩
    · simp
    · exact List.rel_append hgroups (.cons hcompletes .nil)
  · refine ⟨groups, rest ++ [payload], ?_, ?_, hpends⟩
    · rw [List.append_assoc]
    · simpa using hgroups

end Fragment

/-! ## Runs -/

namespace Receiver

open Fragment

variable {r r' left : Receiver} {fragment : Bytes} {fragments front back : List Bytes} {answers : List (Option Bytes)}
  {next : Option Assembly} {complete : Option Bytes} {v : Violation}

theorem assemble_of_ok (h : accept r.assembly fragment = .ok (next, complete)) :
    r.assemble fragment = ({ r with assembly := next }, .ok complete) := by
  rw [assemble, h]

theorem assemble_of_error (h : accept r.assembly fragment = .error v) :
    r.assemble fragment = ({ r with assembly := none }, .error v) := by
  rw [assemble, h]

theorem assembleAll_cons_of_ok (h : accept r.assembly fragment = .ok (next, complete)) (fragments : List Bytes) :
    r.assembleAll (fragment :: fragments) =
      let rest := assembleAll { r with assembly := next } fragments
      (rest.1, complete :: rest.2.1, rest.2.2) := by
  rw [assembleAll, assemble_of_ok h]

theorem assembleAll_cons_of_error (h : accept r.assembly fragment = .error v) (fragments : List Bytes) :
    r.assembleAll (fragment :: fragments) = ({ r with assembly := none }, [], some v) := by
  rw [assembleAll, assemble_of_error h]

/-- What a run over one fragment more says about the fragment and about the run behind it. -/
theorem assembleAll_cons_cases {stop : Option Violation}
    (h : r.assembleAll (fragment :: fragments) = (r', answers, stop)) :
    (∃ v, accept r.assembly fragment = .error v ∧ r' = { r with assembly := none } ∧ answers = [] ∧ stop = some v) ∨
      ∃ next complete rest, accept r.assembly fragment = .ok (next, complete) ∧ answers = complete :: rest ∧
        assembleAll { r with assembly := next } fragments = (r', rest, stop) := by
  rcases haccept : accept r.assembly fragment with v | ⟨next, complete⟩
  · rw [assembleAll_cons_of_error haccept] at h
    cases h
    exact Or.inl ⟨v, rfl, rfl, rfl, rfl⟩
  · rw [assembleAll_cons_of_ok haccept] at h
    cases h
    exact Or.inr ⟨next, complete, _, rfl, rfl, rfl⟩

/-- Fragments that are processed as items yield the messages of what they complete. -/
theorem consumeAll_ofFragment (r : Receiver) (fragments : List Bytes) :
    consumeAll r.assembly (fragments.map Item.ofFragment) =
      ((r.assembleAll fragments).1.assembly,
        match (r.assembleAll fragments).2.2 with
        | none => .ok ((r.assembleAll fragments).2.1.reduceOption.flatMap messages)
        | some v => .error v) := by
  induction fragments generalizing r with
  | nil => rfl
  | cons fragment fragments ih =>
    rw [List.map_cons]
    rcases haccept : accept r.assembly fragment with v | ⟨next, complete⟩
    · have hconsume : consume r.assembly (.ofFragment fragment) = (none, .error v) := by
        simp only [consume, process_ofFragment, assemble_of_error (r := { assembly := r.assembly }) haccept, Except.map]
      rw [consumeAll_cons_error hconsume, assembleAll_cons_of_error haccept]
    · have hrest := ih { r with assembly := next }
      simp only at hrest
      rw [consumeAll_cons (consume_fragment haccept), hrest, assembleAll_cons_of_ok haccept]
      cases (assembleAll { r with assembly := next } fragments).2.2 with
      | some v => rfl
      | none => cases complete <;> rfl

/-- Fragments behind others that were no violation. -/
theorem assembleAll_append (h : r.assembleAll front = (left, answers, none)) (back : List Bytes) :
    r.assembleAll (front ++ back) =
      ((left.assembleAll back).1, answers ++ (left.assembleAll back).2.1, (left.assembleAll back).2.2) := by
  induction front generalizing r answers with
  | nil =>
    cases h
    rfl
  | cons fragment front ih =>
    rcases assembleAll_cons_cases h with ⟨v, -, -, -, hstop⟩ | ⟨next, complete, rest, haccept, rfl, hrest⟩
    · cases hstop
    · rw [List.cons_append, assembleAll_cons_of_ok haccept, ih hrest]
      rfl

/-- Behind a violation nothing is taken. -/
theorem assembleAll_append_of_stopped (h : r.assembleAll front = (left, answers, some v)) (back : List Bytes) :
    r.assembleAll (front ++ back) = (left, answers, some v) := by
  induction front generalizing r answers with
  | nil => cases h
  | cons fragment front ih =>
    rcases assembleAll_cons_cases h with ⟨found, haccept, rfl, rfl, hstop⟩ | ⟨next, complete, rest, haccept, rfl, hrest⟩
    · rw [List.cons_append, assembleAll_cons_of_error haccept, hstop]
    · rw [List.cons_append, assembleAll_cons_of_ok haccept, ih hrest]

/-- Nothing but the assembly changes. -/
theorem assembleAll_frame (r : Receiver) (fragments : List Bytes) :
    (r.assembleAll fragments).1 = { r with assembly := (r.assembleAll fragments).1.assembly } := by
  induction fragments generalizing r with
  | nil => rfl
  | cons fragment fragments ih =>
    rcases haccept : accept r.assembly fragment with v | ⟨next, complete⟩
    · rw [assembleAll_cons_of_error haccept]
    · rw [assembleAll_cons_of_ok haccept]
      exact ih { r with assembly := next }

/-- A violation is found at one of the fragments and leaves no assembly. -/
theorem assembleAll_stopped (h : r.assembleAll fragments = (r', answers, some v)) :
    ∃ front bad back left, fragments = front ++ bad :: back ∧ front.length = answers.length ∧
      r.assembleAll front = (left, answers, none) ∧ left.assemble bad = (r', .error v) ∧ r'.assembly = none := by
  induction fragments generalizing r answers with
  | nil => cases h
  | cons fragment fragments ih =>
    rcases assembleAll_cons_cases h with ⟨found, haccept, rfl, rfl, hstop⟩ | ⟨next, complete, rest, haccept, rfl, hrest⟩
    · cases hstop
      exact ⟨[], fragment, fragments, r, rfl, rfl, rfl, assemble_of_error haccept, rfl⟩
    · obtain ⟨front, bad, back, left, rfl, hlength, hfront, hbad, hnone⟩ := ih hrest
      refine ⟨fragment :: front, bad, back, left, rfl, ?_, ?_, hbad, hnone⟩
      · rw [List.length_cons, List.length_cons, hlength]
      · rw [assembleAll_cons_of_ok haccept, hfront]

end Receiver

namespace Fragment

variable {group payloads front back messages : List Bytes} {message : Bytes} {total : Nat}
  {left : Option Assembly} {r r' : Receiver} {answers : List (Option Bytes)}

/-- The start of a group yields nothing. -/
theorem Pends.assembleAll (h : Pends group left) (hr : r.assembly = none) :
    r.assembleAll group = ({ r with assembly := left }, List.replicate group.length none, none) := by
  induction group using List.reverseRecOn generalizing left with
  | nil =>
    cases left with
    | none =>
      rw [← hr]
      rfl
    | some assembly =>
      obtain ⟨⟨⟨_, _, hnil, -⟩, -⟩, -⟩ := h
      cases hnil
  | append_singleton rest payload ih =>
    cases left with
    | none => exact absurd h (by simp [Pends])
    | some assembly =>
      obtain ⟨total, data⟩ := assembly
      obtain ⟨hunfinished, rfl⟩ := h
      simp only at hunfinished
      obtain ⟨before, hbefore⟩ := exists_pends fun hrest => hunfinished.of_prefix (List.prefix_append ..) hrest
      have hlacking := hunfinished.lacking
      have haccept := hbefore.accept_eq hunfinished.announces
      simp only [if_neg (Nat.not_lt_of_lt hlacking), if_neg (Nat.ne_of_lt hlacking)] at haccept
      have hlast := Receiver.assembleAll_cons_of_ok (r := { r with assembly := before }) haccept []
      rw [Receiver.assembleAll_append (ih hbefore), hlast, List.length_append, List.length_singleton,
        List.replicate_add]
      rfl

/-- A group that carries a message yields it with its last payload, and nothing before. -/
theorem Completes.assembleAll (h : Completes group message) (hr : r.assembly = none) :
    r.assembleAll group = (r, List.replicate (group.length - 1) none ++ [some message], none) := by
  obtain ⟨rest, payload, rfl⟩ : ∃ rest payload, group = rest ++ [payload] := by
    obtain ⟨first, tail, rfl, -⟩ := h.announces
    exact ⟨_, _, (List.dropLast_append_getLast (List.cons_ne_nil first tail)).symm⟩
  have hprefix : rest <+: rest ++ [payload] := List.prefix_append ..
  have hunfinished : rest ≠ [] → Unfinished rest message.length := fun hrest =>
    ⟨(announces_append_iff hrest).1 h.announces, h.lacking rest hprefix hrest (by simp)⟩
  obtain ⟨before, hbefore⟩ := exists_pends hunfinished
  have haccept := hbefore.accept_eq h.announces
  simp only [h.carries, if_neg (Nat.lt_irrefl _), if_true] at haccept
  have hlast := Receiver.assembleAll_cons_of_ok (r := { r with assembly := before }) haccept []
  have hleft : { r with assembly := none } = r := by rw [← hr]
  rw [Receiver.assembleAll_append (hbefore.assembleAll hr), hlast, List.length_append, List.length_singleton,
    Nat.add_sub_cancel]
  simp only [Receiver.assembleAll, hleft]

/-- A list that is cut runs to the end, and yields the messages. -/
theorem Cuts.assembleAll (h : Cuts payloads messages left) (hr : r.assembly = none) :
    ∃ answers, r.assembleAll payloads = ({ r with assembly := left }, answers, none) ∧
      answers.reduceOption = messages := by
  obtain ⟨groups, rest, rfl, hgroups, hrest⟩ := h
  induction hgroups with
  | nil => exact ⟨_, hrest.assembleAll hr, by simp [List.reduceOption]⟩
  | @cons group message groups messages hgroup hgroups ih =>
    obtain ⟨answers, hrun, rfl⟩ := ih
    refine ⟨List.replicate (group.length - 1) none ++ [some message] ++ answers, ?_, ?_⟩
    · rw [List.flatten_cons, List.append_assoc, Receiver.assembleAll_append (hgroup.assembleAll hr), hrun]
    · simp [List.reduceOption]

/-- What was taken behind a cut list without a violation extends the cut. -/
theorem Cuts.append (h : Cuts front messages r.assembly) (hrun : r.assembleAll back = (r', answers, none)) :
    Cuts (front ++ back) (messages ++ answers.reduceOption) r'.assembly := by
  induction back generalizing r front messages answers with
  | nil =>
    cases hrun
    simpa [List.reduceOption] using h
  | cons payload back ih =>
    rcases Receiver.assembleAll_cons_cases hrun with ⟨v, -, -, -, hstop⟩ | ⟨next, complete, rest, haccept, rfl, hrest⟩
    · cases hstop
    · have hcuts := ih (r := { r with assembly := next }) (h.accept haccept) hrest
      cases complete with
      | none => simpa [List.reduceOption] using hcuts
      | some message => simpa [List.reduceOption] using hcuts

theorem cuts_nil : Cuts [] [] none := ⟨[], [], rfl, .nil, rfl⟩

/-- Without an assembly at the start, a run to the end is a cut. -/
theorem cuts_of_assembleAll (hr : r.assembly = none) (hrun : r.assembleAll payloads = (r', answers, none)) :
    Cuts payloads answers.reduceOption r'.assembly := by
  have hstart : Cuts [] [] r.assembly := by
    rw [hr]
    exact cuts_nil
  simpa using hstart.append hrun

end Fragment

/-! ## The fragments of a message -/

namespace Fragment

variable {message fragment : Bytes} {fragments : List Bytes} {limit : Nat}

theorem split_eq_ok_iff (hmax : message.length < 4294967296) :
    (∃ fragments, split message limit = .ok fragments) ↔ totalLength < limit ∧ limit < message.length := by
  constructor
  · rintro ⟨fragments, h⟩
    obtain ⟨hlimit, hsize, -⟩ := of_split_eq_ok h
    exact ⟨hlimit, hsize⟩
  · rintro ⟨hlimit, hsize⟩
    exact ⟨_, split_eq_ok hlimit hsize hmax⟩

/-- All pieces but the last are full. -/
theorem length_of_mem_dropLast_chunks {size : Nat} {bytes : Bytes} (hsize : 0 < size)
    (h : fragment ∈ (chunks size bytes).dropLast) : fragment.length = size := by
  fun_induction chunks size bytes with
  | case1 => cases h
  | case2 b bs ih =>
    by_cases hrest : bs.drop (size - 1) = []
    · rw [hrest, chunks] at h
      cases h
    · have hlong : size - 1 < bs.length := by
        by_contra hshort
        exact hrest (List.drop_eq_nil_of_le (Nat.le_of_not_lt hshort))
      rw [List.dropLast_cons_of_ne_nil (chunks_ne_nil size hrest)] at h
      rcases List.mem_cons.1 h with rfl | h
      · rw [List.length_cons, List.length_take]
        omega
      · exact ih h

theorem toNat_encode_ofNat {size : Nat} (h : size < 4294967296) :
    Bytes.toNat .big (Fixed.encode .big (UInt32.ofNat size)) = size := by
  rw [Fixed.encode, Bytes.toNat_ofNat, Nat.mod_eq_of_lt (Fixed.toNat_lt _)]
  exact UInt32.toNat_ofNat_of_lt' h

/-- The fragments of a message are a total and the message, in pieces. -/
theorem flatten_of_split (h : split message limit = .ok fragments) :
    fragments.flatten = Fixed.encode .big (UInt32.ofNat message.length) ++ message := by
  obtain ⟨hlimit, hsize, hmax⟩ := of_split_eq_ok h
  rw [split_eq_ok hlimit hsize hmax] at h
  cases h
  rw [List.flatten_cons, flatten_chunks, List.append_assoc, List.take_append_drop]

theorem ne_nil_of_mem_split (h : split message limit = .ok fragments) (hmem : fragment ∈ fragments) :
    fragment ≠ [] := by
  obtain ⟨hlimit, hsize, hmax⟩ := of_split_eq_ok h
  rw [split_eq_ok hlimit hsize hmax] at h
  cases h
  rcases List.mem_cons.1 hmem with rfl | hmem
  · apply List.append_ne_nil_of_left_ne_nil
    exact List.ne_nil_of_length_pos (by rw [Fixed.length_encode]; decide)
  · exact ne_nil_of_mem_chunks hmem

/-- All fragments but the last are full, and there are at least two. -/
theorem full_of_split (h : split message limit = .ok fragments) :
    (∀ fragment ∈ fragments.dropLast, fragment.length = limit) ∧ 2 ≤ fragments.length := by
  obtain ⟨hlimit, hsize, hmax⟩ := of_split_eq_ok h
  have hwidth : Fixed.width UInt32 = totalLength := rfl
  have hrest : message.drop (limit - totalLength) ≠ [] := by
    intro hnil
    have := List.drop_eq_nil_iff.1 hnil
    omega
  have hmore := chunks_ne_nil limit hrest
  rw [split_eq_ok hlimit hsize hmax] at h
  cases h
  refine ⟨?_, ?_⟩
  · intro fragment hmem
    rw [List.dropLast_cons_of_ne_nil hmore] at hmem
    rcases List.mem_cons.1 hmem with rfl | hmem
    · rw [List.length_append, Fixed.length_encode, hwidth, List.length_take]
      omega
    · exact length_of_mem_dropLast_chunks (Nat.lt_of_le_of_lt (Nat.zero_le _) hlimit) hmem
  · have hpos := List.length_pos_iff.2 hmore
    rw [List.length_cons]
    omega

/-- The fragments of a message are a group that carries it. -/
theorem completes_split (h : split message limit = .ok fragments) : Completes fragments message := by
  obtain ⟨hlimit, hsize, hmax⟩ := of_split_eq_ok h
  have hflatten := flatten_of_split h
  have hlength : (Fixed.encode .big (UInt32.ofNat message.length)).length = totalLength := Fixed.length_encode ..
  have hcarried : carried fragments = message := by
    rw [carried, hflatten, List.drop_left' hlength]
  have hannounces : Announces fragments message.length := by
    rw [split_eq_ok hlimit hsize hmax] at h
    cases h
    refine ⟨_, _, rfl, ?_, ?_, by omega⟩
    · rw [List.length_append, hlength]
      exact Nat.le_add_right ..
    · rw [List.take_left' hlength, toNat_encode_ofNat hmax]
  refine ⟨hannounces, hcarried, ?_⟩
  rintro front ⟨rest, rfl⟩ hfront hproper
  rw [carried_append ((announces_append_iff hfront).1 hannounces)] at hcarried
  -- What is behind a proper initial part has a fragment, which is not empty.
  have hrest : rest ≠ [] := by
    rintro rfl
    exact hproper (List.append_nil front).symm
  obtain ⟨next, rest, rfl⟩ := List.exists_cons_of_ne_nil hrest
  have hnext : 0 < next.length := List.length_pos_iff.2 (ne_nil_of_mem_split h (by simp))
  rw [← hcarried, List.length_append, List.flatten_cons, List.length_append]
  omega

end Fragment

namespace Receiver

open Fragment

/-- The fragments of a message, which are cut if the limit has room behind a total and the message exceeds it, are not
empty and within the limit, all but the last one full. They give the message back with the last of them. -/
theorem assembleAll_split (b : Buffer) (hsize : b.size < 4294967296) (limit : Nat) :
    ((∃ fragments, split b.unread limit = .ok fragments) ↔ totalLength < limit ∧ limit < b.size) ∧
      ∀ fragments, split b.unread limit = .ok fragments →
        (∀ fragment ∈ fragments, fragment ≠ [] ∧ fragment.length ≤ limit) ∧
        (∀ fragment ∈ fragments.dropLast, fragment.length = limit) ∧ 2 ≤ fragments.length ∧
        fragments.flatten.length = b.size + totalLength ∧
        ∀ r : Receiver, r.assembly = none →
          r.assembleAll fragments =
            (r, List.replicate (fragments.length - 1) none ++ [some b.unread], none) := by
  refine ⟨split_eq_ok_iff hsize, fun fragments h => ?_⟩
  obtain ⟨hfull, htwo⟩ := full_of_split h
  refine ⟨fun fragment hmem => ⟨ne_nil_of_mem_split h hmem, length_le_of_mem_split h hmem⟩, hfull, htwo, ?_, ?_⟩
  · rw [flatten_of_split h, List.length_append, Fixed.length_encode, Nat.add_comm]
    rfl
  · exact fun r hr => (completes_split h).assembleAll hr

/-- A message of ten bytes of which the first two were read before, in two fragments of at most six bytes. -/
theorem assembleAll_split_consumed :
    let b : Buffer := ⟨[1, 2], [3, 4, 5, 6, 7, 8, 9, 10]⟩
    let fragments : List Bytes := [[0, 0, 0, 8, 3, 4], [5, 6, 7, 8, 9, 10]]
    b.size < 4294967296 ∧ split b.unread 6 = .ok fragments ∧
      ({} : Receiver).assembleAll fragments = ({}, [none, some [3, 4, 5, 6, 7, 8, 9, 10]], none) := by
  intro b fragments
  have hsize : b.size < 4294967296 := by decide
  have hsplit : split b.unread 6 = .ok fragments := by cbv
  obtain ⟨-, -, -, -, hrun⟩ := (assembleAll_split b hsize 6).2 fragments hsplit
  exact ⟨hsize, hsplit, hrun {} rfl⟩

/-! ## The grammar of fragments -/

/-- A receiver without an assembly takes a list of payloads to the end exactly if the list is cut: the messages are
those of the groups, and the assembly that is left is that of the unfinished group. Else it stops with a violation at
the first payload up to which the list is not cut, and no assembly is left. -/
theorem assembleAll_grammar (r : Receiver) (hr : r.assembly = none) (payloads : List Bytes) :
    (∀ messages left,
      (∃ answers, r.assembleAll payloads = ({ r with assembly := left }, answers, none) ∧
        answers.reduceOption = messages) ↔ Cuts payloads messages left) ∧
      ((∀ messages left, ¬ Cuts payloads messages left) →
        ∃ answers v, r.assembleAll payloads = (r, answers, some v) ∧ answers.length < payloads.length ∧
          (∀ i ≤ answers.length, ∃ messages left, Cuts (payloads.take i) messages left) ∧
          ∀ messages left, ¬ Cuts (payloads.take (answers.length + 1)) messages left) := by
  refine ⟨fun messages left => ⟨?_, fun h => h.assembleAll hr⟩, fun hnone => ?_⟩
  · rintro ⟨answers, hrun, rfl⟩
    exact cuts_of_assembleAll hr hrun
  rcases hrun : r.assembleAll payloads with ⟨r', answers, stop⟩
  cases stop with
  | none => exact absurd (cuts_of_assembleAll hr hrun) (hnone _ _)
  | some v =>
    obtain ⟨front, bad, back, left, rfl, hlength, hfront, hbad, hleft⟩ := assembleAll_stopped hrun
    have hframe := assembleAll_frame r (front ++ bad :: back)
    have hsame : r' = r := by
      rw [hrun] at hframe
      simp only at hframe
      rw [hframe, hleft, ← hr]
    subst hsame
    refine ⟨answers, v, rfl, ?_, ?_, ?_⟩
    · rw [← hlength, List.length_append, List.length_cons]
      omega
    · intro i hi
      rw [List.take_append_of_le_length (hlength ▸ hi)]
      -- A violation in the first payloads would be one in all that come before the bad one.
      rcases hshort : r'.assembleAll (front.take i) with ⟨before, said, stop⟩
      cases stop with
      | none => exact ⟨_, _, cuts_of_assembleAll hr hshort⟩
      | some found =>
        have hstopped := assembleAll_append_of_stopped hshort (front.drop i)
        rw [List.take_append_drop, hfront] at hstopped
        cases hstopped
    · intro messages left' hcuts
      have hone : (front ++ bad :: back).take (answers.length + 1) = front ++ [bad] := by
        rw [← hlength, List.append_cons, List.take_left' (by simp)]
      rw [hone] at hcuts
      obtain ⟨said, hsaid, -⟩ := hcuts.assembleAll hr
      have hlast : left.assembleAll [bad] = (r', [], some v) := by
        rw [assembleAll, hbad]
      rw [assembleAll_append hfront, hlast] at hsaid
      have hstop := congrArg (fun run => run.2.2) hsaid
      cases hstop

/-- Two messages, one of them in three payloads of which one is empty, and the start of a third; and a payload behind a
whole message that brings a byte too many. -/
theorem assembleAll_grammar_partial :
    let payloads : List Bytes := [[0, 0, 0, 2, 7], [], [8], [0, 0, 0, 1, 5], [0, 0, 0, 9, 1]]
    let overfull : List Bytes := [[0, 0, 0, 1, 5], [0, 0, 0, 1, 5, 6], [1]]
    Cuts payloads [[7, 8], [5]] (some ⟨9, [1]⟩) ∧
      ({} : Receiver).assembleAll overfull = ({}, [some [5]], some (.overfull 2 1)) ∧
      ∀ messages left, ¬ Cuts (overfull.take 2) messages left := by
  intro payloads overfull
  have hrun : ({} : Receiver).assembleAll payloads =
      ({ assembly := some ⟨9, [1]⟩ }, [none, none, some [7, 8], some [5], none], none) := by cbv
  have hstopped : ({} : Receiver).assembleAll overfull = ({}, [some [5]], some (.overfull 2 1)) := by cbv
  have hnone : ∀ messages left, ¬ Cuts overfull messages left := by
    intro messages left hcuts
    obtain ⟨answers, hanswers, -⟩ := ((assembleAll_grammar {} rfl overfull).1 messages left).2 hcuts
    have hstop := congrArg (fun run => run.2.2) (hstopped.symm.trans hanswers)
    cases hstop
  obtain ⟨answers, v, hanswers, -, -, hfirst⟩ := (assembleAll_grammar {} rfl overfull).2 hnone
  refine ⟨((assembleAll_grammar {} rfl payloads).1 _ _).1 ⟨_, hrun, rfl⟩, hstopped, ?_⟩
  have hone : answers = [some [5]] := (congrArg (fun run => run.2.1) (hstopped.symm.trans hanswers)).symm
  rw [hone] at hfirst
  exact hfirst

end Receiver

end GameGateway
