import GameGateway.Proofs.Identity
import GameGateway.Proofs.Wrapping
import Mathlib.Data.List.Nodup
import Mathlib.Data.List.Perm.Subperm

/-!
# What a receiver holds

Whatever a peer sends, a receiver holds items of different numbers, each of them ahead of the expected one and within
the window, and a message that is being put together lacks at least one byte: `Receiver.Ahead`. This is so behind every
datagram, also behind one that was found to violate the protocol while held items were being processed.

## Implementation notes

The expected number moves on while held items are processed, so that between two of them the expected item may itself be
held: `Receiver.Ranged` is what holds then. `History.receiver_invariant` is not about these bounds. It says that the
receiver of a session changes by arrivals alone until it is cleared, and carries over whatever arrivals carry over.
-/

namespace GameGateway

namespace Sequence

theorem distance_inj {n k l : UInt16} (h : distance n k = distance n l) : k = l := by
  have hk := (k - n).toNat_lt
  have hl := (l - n).toNat_lt
  have hnat : (k - n).toNat = (l - n).toNat := by
    simp only [distance] at h
    split at h
    · split at h <;> omega
    · split at h <;> omega
  exact (UInt16.sub_left_inj n).1 (UInt16.toNat_inj.1 hnat)

/-- What lies ahead comes nearer by one when the expected number moves on. -/
theorem distance_succ {n k : UInt16} (h : 0 < distance n k) : distance (n + 1) k = distance n k - 1 := by
  have hpos : 0 < (k - n).toNat := by
    simp only [distance] at h
    split at h <;> omega
  have hnat : (k - (n + 1)).toNat = (k - n).toNat - 1 := by
    have hn := n.toNat_lt
    have hk := k.toNat_lt
    simp only [UInt16.toNat_sub, UInt16.toNat_add, UInt16.reduceToNat] at hpos ⊢
    omega
  simp only [distance, hnat] at h ⊢
  split at h
  · split <;> omega
  · split <;> omega

end Sequence

/-! ## Assemblies -/

namespace Fragment

/-- An assembly that goes on lacks something. -/
theorem length_lt_of_accept {assembly : Option Assembly} {fragment : Bytes} {a : Assembly} {complete : Option Bytes}
    (h : accept assembly fragment = .ok (some a, complete)) : a.data.length < a.total := by
  have hmore : ∀ {total : Nat} {data more : Bytes},
      accept (some ⟨total, data⟩) more = .ok (some a, complete) → a.data.length < a.total := by
    intro total data more h
    rw [accept_some] at h
    split at h
    · cases h
    · rename_i hover
      split at h
      · cases h
      · rename_i hshort
        cases h
        exact Nat.lt_of_le_of_ne (Nat.le_of_not_lt hover) hshort
  cases assembly with
  | some started => exact hmore h
  | none =>
    cases hstart : start fragment with
    | error v =>
      rw [accept, hstart] at h
      cases h
    | ok first =>
      rw [accept_none hstart] at h
      exact hmore h

end Fragment

namespace Receiver

/-- An assembly that is in progress lacks something. -/
def Lacking (assembly : Option Fragment.Assembly) : Prop :=
  ∀ a, assembly = some a → a.data.length < a.total

theorem Lacking.process {r : Receiver} (h : Lacking r.assembly) (item : Item) :
    Lacking (process item r).1.assembly := by
  unfold Receiver.process
  split
  · exact h
  · cases haccept : Fragment.accept r.assembly item.payload with
    | error v =>
      intro a ha
      cases ha
    | ok next =>
      intro a ha
      have hnext : next.1 = some a := ha
      apply Fragment.length_lt_of_accept
      rw [haccept, ← hnext]

/-! ## Held items -/

/-- What is held is expected or ahead of the expected number, within the window, and of different numbers. -/
structure Ranged (window : Nat) (r : Receiver) : Prop where
  nonneg : ∀ entry ∈ r.held, 0 ≤ Sequence.distance r.next entry.1
  within : ∀ entry ∈ r.held, Sequence.distance r.next entry.1 < window
  nodup : (r.held.map Prod.fst).Nodup
  lacking : Lacking r.assembly

/-- What is held is ahead of the expected number. -/
structure Ahead (window : Nat) (r : Receiver) : Prop extends Ranged window r where
  pos : ∀ entry ∈ r.held, 0 < Sequence.distance r.next entry.1

variable {window : Nat} {r : Receiver}

theorem ahead_empty (window : Nat) (next : UInt16) : Ahead window { next } where
  nonneg := by simp
  within := by simp
  nodup := List.nodup_nil
  lacking := by
    intro a ha
    cases ha
  pos := by simp

theorem next_process (item : Item) (r : Receiver) : (process item r).1.next = r.next := by
  rw [process_eq]

/-- Processing an item changes the assembly at most. -/
theorem Ranged.process (h : Ranged window r) (item : Item) : Ranged window (process item r).1 where
  nonneg := by
    rw [held_process, next_process]
    exact h.nonneg
  within := by
    rw [held_process, next_process]
    exact h.within
  nodup := by
    rw [held_process]
    exact h.nodup
  lacking := h.lacking.process item

theorem Ahead.process (h : Ahead window r) (item : Item) : Ahead window (process item r).1 where
  toRanged := h.toRanged.process item
  pos := by
    rw [held_process, next_process]
    exact h.pos

/-- The item behind the expected one may be held. -/
theorem Ahead.advance (h : Ahead window r) : Ranged window { r with next := r.next + 1 } where
  nonneg := by
    intro entry hentry
    have hpos := h.pos entry hentry
    rw [Sequence.distance_succ hpos]
    omega
  within := by
    intro entry hentry
    have hwithin := h.within entry hentry
    rw [Sequence.distance_succ (h.pos entry hentry)]
    omega
  nodup := h.nodup
  lacking := h.lacking

/-- What is held and not expected is ahead. -/
theorem Ranged.ahead (h : Ranged window r) (hne : ∀ entry ∈ r.held, entry.1 ≠ r.next) : Ahead window r where
  toRanged := h
  pos := by
    intro entry hentry
    have hnonneg := h.nonneg entry hentry
    have hzero : Sequence.distance r.next entry.1 ≠ 0 := by
      intro hzero
      rw [← Sequence.distance_self r.next] at hzero
      exact hne entry hentry (Sequence.distance_inj hzero)
    omega

theorem release_sublist (sequence : UInt16) (held : List (UInt16 × Item)) :
    (release sequence held).Sublist held :=
  List.filter_sublist

/-- Without the expected item all that is held is ahead. -/
theorem Ranged.release (h : Ranged window r) : Ahead window { r with held := release r.next r.held } := by
  have hsublist := release_sublist r.next r.held
  apply Ranged.ahead
  · exact
      { nonneg := fun entry hentry => h.nonneg entry (hsublist.subset hentry)
        within := fun entry hentry => h.within entry (hsublist.subset hentry)
        nodup := h.nodup.sublist (hsublist.map Prod.fst)
        lacking := h.lacking }
  · intro entry hentry
    have hkept := (List.mem_filter.1 hentry).2
    exact bne_iff_ne.1 hkept

theorem Ranged.of_missing (h : Ranged window r) (missing : r.held.lookup r.next = none) : Ahead window r := by
  apply h.ahead
  intro entry hentry
  have hne := List.lookup_eq_none_iff.1 missing entry hentry
  exact (bne_iff_ne.1 hne).symm

/-- Processing held items ends with all that is still held ahead of the expected number, also when it ends with a
violation: the item that was one is not held any more. -/
theorem Ranged.drain (h : Ranged window r) : Ahead window (drain r).1 := by
  fun_induction Receiver.drain r with
  | case1 r missing => exact h.of_missing missing
  | case2 r item expected shorter processed v violated => exact h.release.process item
  | case3 r item expected shorter processed first completed rest ih =>
    apply ih
    have hprocessed : Ahead window processed.1 := h.release.process item
    have hnext : processed.1.next = r.next := next_process item _
    rw [← hnext]
    exact hprocessed.advance

theorem Ahead.hold (h : Ahead window r) {sequence : UInt16} (hpos : 0 < Sequence.distance r.next sequence)
    (hwithin : Sequence.distance r.next sequence < window) (item : Item) :
    Ahead window { r with held := hold sequence item r.held } := by
  have hmem : ∀ entry ∈ Receiver.hold sequence item r.held, entry = (sequence, item) ∨ entry ∈ r.held := by
    intro entry hentry
    exact (List.mem_cons.1 hentry).imp_right fun hkept => (release_sublist sequence r.held).subset hkept
  have hfresh : sequence ∉ (release sequence r.held).map Prod.fst := by
    intro hin
    obtain ⟨entry, hentry, heq⟩ := List.mem_map.1 hin
    exact bne_iff_ne.1 (List.mem_filter.1 hentry).2 heq
  constructor
  · constructor
    · intro entry hentry
      rcases hmem entry hentry with rfl | hheld
      · exact Int.le_of_lt hpos
      · exact h.nonneg entry hheld
    · intro entry hentry
      rcases hmem entry hentry with rfl | hheld
      · exact hwithin
      · exact h.within entry hheld
    · apply List.nodup_cons.2
      exact ⟨hfresh, h.nodup.sublist ((release_sublist sequence r.held).map Prod.fst)⟩
    · exact h.lacking
  · intro entry hentry
    rcases hmem entry hentry with rfl | hheld
    · exact hpos
    · exact h.pos entry hheld

/-- Whatever arrives, and whether or not it is a violation, what is held stays ahead and within the window. -/
theorem Ahead.arrive {window : UInt16} (h : Ahead window.toNat r) (sequence : UInt16) (item : Item) :
    Ahead window.toNat (arrive window sequence item r).receiver := by
  have harrives := arrive_arrives window sequence item r
  generalize r.arrive window sequence item = arrival at harrives ⊢
  have hprocessed := h.process item
  cases harrives with
  | late before => exact h
  | beyond ahead outside => exact h
  | early ahead inside => exact h.hold ahead inside item
  | violation expected processed =>
    rw [processed] at hprocessed
    exact hprocessed
  | next expected processed =>
    have hnext := next_process item r
    rw [processed] at hprocessed hnext
    apply Ranged.drain
    rw [← hnext]
    exact hprocessed.advance

/-- There are fewer numbers ahead of the expected one within the window than the window is wide. -/
theorem Ahead.length_held_lt (h : Ahead window r) (hwindow : 0 < window) : r.held.length < window := by
  let place (sequence : UInt16) : Nat := (Sequence.distance r.next sequence).toNat
  have hplaces : ((r.held.map Prod.fst).map place).Nodup := by
    apply h.nodup.map_on
    intro k hk l hl heq
    obtain ⟨entry, hentry, rfl⟩ := List.mem_map.1 hk
    obtain ⟨entry', hentry', rfl⟩ := List.mem_map.1 hl
    have hfirst := h.nonneg entry hentry
    have hsecond := h.nonneg entry' hentry'
    have hdistance : Sequence.distance r.next entry.1 = Sequence.distance r.next entry'.1 := by
      simp only [place] at heq
      omega
    exact Sequence.distance_inj hdistance
  have hrange : (r.held.map Prod.fst).map place ⊆ List.range' 1 (window - 1) := by
    intro i hi
    obtain ⟨k, hk, rfl⟩ := List.mem_map.1 hi
    obtain ⟨entry, hentry, rfl⟩ := List.mem_map.1 hk
    have hpos := h.pos entry hentry
    have hwithin := h.within entry hentry
    rw [List.mem_range'_1]
    simp only [place]
    omega
  have hlength := (List.subperm_of_subset hplaces hrange).length_le
  simp only [List.length_map, List.length_range'] at hlength
  omega

end Receiver

namespace Session

open Receiver

variable {config : ProtocolConfig} {s : Session}

/-- What arrivals carry over the packets of a datagram carry over. -/
theorem carried_receiver {P : Receiver → Prop}
    (harrive : ∀ r sequence item, P r → P (r.arrive config.windowSize sequence item).receiver) (now : Nat) :
    Carried now fun s s' _ => s.config = config ∧ P s.receiver → s'.config = config ∧ P s'.receiver where
  nil := fun _ => id
  append := fun hfirst hrest h => hrest (hfirst h)
  touch := fun _ => id
  react := by
    rintro s packet ⟨hconfig, hP⟩
    refine ⟨(keeps_react now s packet).config.trans hconfig, ?_⟩
    cases packet with
    | disconnect connectionId =>
      simp only [react]
      split
      · exact hP
      · exact hP
    | ping => exact hP
    | sequenced channel sequence payload =>
      rw [← hconfig] at harrive
      exact harrive s.receiver sequence ⟨channel, payload⟩ hP
    | acknowledge sequence => exact hP
    | outOfOrder sequence => exact hP
  acknowledgement := fun _ => id

/-- What arrivals carry over datagrams carry over. -/
theorem receiver_handle {P : Receiver → Prop}
    (harrive : ∀ r sequence item, P r → P (r.arrive s.config.windowSize sequence item).receiver)
    (h : P s.receiver) (codec : Codec) (now : Nat) (seed : UInt32) (datagram : Bytes) :
    P (s.handle codec now seed datagram).session.receiver := by
  have hhandle : (s.handle codec now seed datagram).session.config = s.config ∧
      P (s.handle codec now seed datagram).session.receiver := by
    apply (carried_receiver harrive now).handle
    · intro s' hs'
      unfold awake
      split
      · exact hs'
      · exact hs'
    · intro s' request hs'
      simp only [greet]
      split
      · exact hs'
      · exact hs'
    · exact ⟨rfl, h⟩
  exact hhandle.2

namespace History

theorem config_step (codec : Codec) (h : History) (event : Event) :
    (h.step codec event).session.config = h.session.config := by
  cases event with
  | queue message =>
    simp only [step, Session.queue]
    split <;> rfl
  | connect accountId playerId => exact (keeps_connect accountId playerId h.session).config
  | close reason => exact (keeps_close reason h.session).config
  | update now =>
    obtain ⟨sender, hsession⟩ := update_session now h.session
    simp only [step, hsession]
  | handle now seed datagram => exact (keeps_handle codec now seed datagram h.session).config
  | finish => rfl

/-- What arrivals carry over, and the last call of a session too, every call carries over. -/
theorem receiver_step {P : Receiver → Prop} {h : History}
    (harrive : ∀ r sequence item, P r → P (r.arrive h.session.config.windowSize sequence item).receiver)
    (hclear : ∀ r : Receiver, P r → P { r with held := [], assembly := none }) (hP : P h.session.receiver)
    (codec : Codec) (event : Event) : P (h.step codec event).session.receiver := by
  cases event with
  | queue message =>
    simp only [step, Session.queue]
    split
    · exact hP
    · exact hP
  | connect accountId playerId =>
    simp only [step, Session.connect]
    split
    · exact hP
    · exact hP
  | close reason =>
    simp only [step, Session.close]
    split
    · exact hP
    · exact hP
  | update now =>
    obtain ⟨sender, hsession⟩ := update_session now h.session
    simp only [step, hsession]
    exact hP
  | handle now seed datagram => exact receiver_handle harrive hP codec now seed datagram
  | finish => exact hclear h.session.receiver hP

/-- What holds of a new receiver, and is carried over by arrivals and by the last call of a session, holds after every
run. -/
theorem receiver_invariant {P : Receiver → Prop} (hnew : P {})
    (harrive : ∀ r sequence item, P r → P (r.arrive config.windowSize sequence item).receiver)
    (hclear : ∀ r : Receiver, P r → P { r with held := [], assembly := none }) (codec : Codec) (endpoint : Endpoint)
    (now : Nat) (events : List Event) : P ((start endpoint config now).run codec events).session.receiver := by
  have hrun : ((start endpoint config now).run codec events).session.config = config ∧
      P ((start endpoint config now).run codec events).session.receiver := by
    apply run_preserves (P := fun h => h.session.config = config ∧ P h.session.receiver)
    · rintro h event ⟨hconfig, hP⟩
      refine ⟨(config_step codec h event).trans hconfig, ?_⟩
      exact receiver_step (by rw [hconfig]; exact harrive) hclear hP codec event
    · exact ⟨rfl, hnew⟩
  exact hrun.2

/-- Whatever a peer sends, also behind a violation: what is held is ahead of the expected number and within the window,
so that there are fewer held items than the window is wide, and a message that is being put together has a total and
lacks some of it. -/
theorem held_ahead_of_expected (codec : Codec) (endpoint : Endpoint) (config : ProtocolConfig) (now : Nat)
    (events : List Event) (hwindow : 1 ≤ config.windowSize) :
    let r := ((start endpoint config now).run codec events).session.receiver
    (∀ entry ∈ r.held, 1 ≤ Sequence.distance r.next entry.1 ∧
      Sequence.distance r.next entry.1 < config.windowSize.toNat) ∧
    (r.held.map Prod.fst).Nodup ∧ r.held.length < config.windowSize.toNat ∧
    ∀ a, r.assembly = some a → 0 < a.total ∧ a.data.length < a.total := by
  intro r
  have hahead : Ahead config.windowSize.toNat r := by
    apply receiver_invariant
    · exact ahead_empty _ 0
    · intro r sequence item h
      exact h.arrive sequence item
    · intro r _
      exact ahead_empty _ r.next
  have hpositive : 0 < config.windowSize.toNat := UInt16.le_iff_toNat_le.1 hwindow
  refine ⟨?_, hahead.nodup, hahead.length_held_lt hpositive, ?_⟩
  · intro entry hentry
    exact ⟨hahead.pos entry hentry, hahead.within entry hentry⟩
  · intro a ha
    have hlength := hahead.lacking a ha
    exact ⟨Nat.zero_lt_of_lt hlength, hlength⟩

/-- Two items come early, and the first of them turns out to be a violation when the gap before it is filled. The peer
goes on with the start of a message under its number. -/
theorem held_ahead_of_expected_violated :
    let codec : Codec := ⟨fun _ => none, fun _ _ => none⟩
    let config : ProtocolConfig := { windowSize := 4 }
    let events : List Event := [.handle 0 0 [0, 13, 0, 2, 0, 0, 0, 0], .handle 1 0 [0, 13, 0, 3, 7],
      .handle 2 0 [0, 9, 0, 0, 5], .handle 3 0 [0, 9, 0, 1, 6], .handle 4 0 [0, 13, 0, 2, 0, 0, 0, 9, 1],
      .handle 5 0 [0, 9, 0, 6, 8]]
    let h := (start ⟨.v4 127 0 0 1, 20260⟩ config 0).run codec events
    let r := h.session.receiver
    1 ≤ config.windowSize ∧ h.violations = [.emptyTotal] ∧ r.next = 4 ∧ r.held = [(6, ⟨.data, [8]⟩)] ∧
      r.assembly = some ⟨9, [1, 7]⟩ ∧
    (∀ entry ∈ r.held, 1 ≤ Sequence.distance r.next entry.1 ∧
      Sequence.distance r.next entry.1 < config.windowSize.toNat) ∧
    (r.held.map Prod.fst).Nodup ∧ r.held.length < config.windowSize.toNat ∧
    ∀ a, r.assembly = some a → 0 < a.total ∧ a.data.length < a.total := by
  refine ⟨by decide, by decide +kernel, by decide +kernel, by decide +kernel, by decide +kernel, ?_⟩
  exact held_ahead_of_expected _ _ _ _ _ (by decide)

end History

end Session

end GameGateway
