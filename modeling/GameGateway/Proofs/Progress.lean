import GameGateway.Proofs.Flush
import GameGateway.Proofs.Fragment
import Mathlib

/-!
# How far a flush comes

A flush ends when nothing waits or the window is full, it never overfills the window, and every packet that
it frames is taken from the backlog. A sender whose packets are acknowledged between any two flushes
therefore runs out of what waits, after no more flushes than its backlog counts.
-/

namespace GameGateway

namespace Fragment

theorem length_chunks_le (size : Nat) (bytes : Bytes) : (chunks size bytes).length ≤ bytes.length := by
  fun_induction chunks size bytes with
  | case1 => exact Nat.le_refl _
  | case2 b bs ih =>
    rw [List.length_drop] at ih
    simp only [List.length_cons]
    omega

/-- A message has no more fragments than bytes. -/
theorem length_le_of_split {message : Bytes} {limit : Nat} {fragments : List Bytes}
    (h : split message limit = .ok fragments) : fragments.length ≤ message.length := by
  obtain ⟨hlimit, hsize, hmax⟩ := of_split_eq_ok h
  rw [split_eq_ok hlimit hsize hmax] at h
  cases h
  have hrest := length_chunks_le limit (message.drop (limit - totalLength))
  rw [List.length_drop] at hrest
  rw [List.length_cons]
  omega

end Fragment

namespace Sender

/-- What waits to be framed. A fragment counts one, and a message one more than its bytes, so that it
outweighs the fragments that it may be cut into. -/
def backlog (s : Sender) : Nat :=
  s.fragments.length + (s.queued.map fun message => message.length + 1).sum

variable {budget window now : Nat} {group packets : List Bytes} {s s' : Sender}

theorem idle_of_backlog (h : s.backlog = 0) : s.queued = [] ∧ s.fragments = [] := by
  obtain ⟨hfragments, hqueued⟩ := Nat.add_eq_zero_iff.1 h
  refine ⟨?_, List.length_eq_zero_iff.1 hfragments⟩
  cases hq : s.queued with
  | nil => rfl
  | cons message queued => simp [hq] at hqueued

theorem backlog_of_idle (hqueued : s.queued = []) (hfragments : s.fragments = []) : s.backlog = 0 := by
  simp [backlog, hqueued, hfragments]

/-- Messages that leave the queue make the backlog less. -/
theorem backlog_popped {queued : List Bytes} (hgroup : group ≠ []) (front : s.queued = group ++ queued) :
    ({ s with queued } : Sender).backlog < s.backlog := by
  obtain ⟨message, rest, rfl⟩ := List.exists_cons_of_ne_nil hgroup
  simp only [backlog, front, List.map_append, List.map_cons, List.sum_append, List.sum_cons]
  omega

/-- What a flush frames was in the backlog. -/
theorem Flushes.backlog_le (h : Flushes budget window now s packets s') :
    s'.backlog + packets.length ≤ s.backlog := by
  induction h with
  | done s => exact Nat.le_refl _
  | @fragment s s' fragment fragments packets room waiting tail ih =>
    have hpopped : s.backlog = ({ s with fragments }.frame .fragment fragment now).backlog + 1 := by
      simp only [backlog, frame, waiting, List.length_cons]
      omega
    rw [List.length_cons]
    omega
  | @bundle s s' group queued packets payload room idle front fits pack tail ih =>
    have hpopped : ({ s with queued }.frame .data payload now).backlog < s.backlog :=
      backlog_popped fits.ne_nil front
    rw [List.length_cons]
    omega
  | loseGroup room idle front fits pack tail ih =>
    exact Nat.le_trans ih (Nat.le_of_lt (backlog_popped fits.ne_nil front))
  | @cut s s' message queued fragments packets room idle front large split tail ih =>
    have hfragments := Fragment.length_le_of_split split
    have hcut : ({ s with queued, fragments } : Sender).backlog ≤ s.backlog := by
      simp only [backlog, idle, front, List.map_cons, List.sum_cons, List.length_nil]
      omega
    exact Nat.le_trans ih hcut
  | @loseMessage s s' message queued packets e room idle front large split tail ih =>
    have front' : s.queued = [message] ++ queued := front
    exact Nat.le_trans ih (Nat.le_of_lt (backlog_popped (List.cons_ne_nil _ _) front'))

/-- What a flush frames goes into flight. -/
theorem Flushes.length_unacked (h : Flushes budget window now s packets s') :
    s'.unacked.length = s.unacked.length + packets.length := by
  induction h with
  | done s => rfl
  | fragment room waiting tail ih =>
    simp only [frame, List.length_append, List.length_cons, List.length_nil] at ih ⊢
    omega
  | bundle room idle front fits pack tail ih =>
    simp only [frame, List.length_append, List.length_cons, List.length_nil] at ih ⊢
    omega
  | loseGroup room idle front fits pack tail ih => exact ih
  | cut room idle front large split tail ih => exact ih
  | loseMessage room idle front large split tail ih => exact ih

/-- A flush does not overfill the window. -/
theorem Flushes.unacked_le (h : Flushes budget window now s packets s')
    (hwindow : s.unacked.length ≤ window) : s'.unacked.length ≤ window := by
  induction h with
  | done s => exact hwindow
  | fragment room waiting tail ih =>
    apply ih
    simp only [frame, List.length_append, List.length_singleton]
    exact Nat.succ_le_of_lt room
  | bundle room idle front fits pack tail ih =>
    apply ih
    simp only [frame, List.length_append, List.length_singleton]
    exact Nat.succ_le_of_lt room
  | loseGroup room idle front fits pack tail ih => exact ih hwindow
  | cut room idle front large split tail ih => exact ih hwindow
  | loseMessage room idle front large split tail ih => exact ih hwindow

/-- A flush ends when nothing waits or the window is full. -/
theorem flushFrom_stops (budget window now : Nat) (group : List Bytes) (s : Sender) :
    ((flushFrom budget window now group s).1.queued = [] ∧
        (flushFrom budget window now group s).1.fragments = []) ∨
      window ≤ (flushFrom budget window now group s).1.unacked.length := by
  fun_induction flushFrom budget window now group s with
  | case1 group s room fragment fragments waiting framed rest ih => exact ih
  | case2 group s room idle empty =>
    left
    exact ⟨(queued_flushGroup now group s).trans empty, (fragments_flushGroup now group s).trans idle⟩
  | case3 group s room idle message queued front shorter popped closed closes full => exact Or.inr full
  | case4 group s room idle message queued front shorter popped closed closes place large rest ih =>
    exact ih
  | case5 group s room idle message queued front shorter popped closed closes place small rest ih =>
    exact ih
  | case6 group s room idle message queued front shorter popped stays large ih => exact ih
  | case7 group s room idle message queued front shorter popped stays small ih => exact ih
  | case8 group s full =>
    right
    exact Nat.le_trans (Nat.le_of_not_lt full) (length_unacked_flushGroup now group s)

/-- A flush with nothing in flight makes the backlog less, or there is none left. -/
theorem backlog_flush_lt (budget now : Nat) (hwindow : 0 < window) (hidle : s.unacked = []) :
    (flush budget window now s).1.backlog = 0 ∨ (flush budget window now s).1.backlog < s.backlog := by
  have hflushes := flush_flushes budget window now s
  rcases flushFrom_stops budget window now [] s with ⟨hqueued, hfragments⟩ | hfull
  · exact Or.inl (backlog_of_idle hqueued hfragments)
  · right
    have hframed := hflushes.length_unacked
    have hbacklog := hflushes.backlog_le
    have hflight : window ≤ (flush budget window now s).1.unacked.length := hfull
    rw [hidle, List.length_nil] at hframed
    omega

end Sender

end GameGateway
