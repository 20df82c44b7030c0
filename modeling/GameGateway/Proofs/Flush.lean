import GameGateway.Session.Sender

/-!
# What a flush does

`Sender.Flushes` lists the turns of a flush: a waiting fragment is framed, a group is framed as one
payload, or a message is cut. `Sender.flush_flushes` says that every flush is made of such turns; all that
is said of flushes elsewhere is an induction over them.

## Implementation notes

A flush collects a group before it frames it. In `Flushes` the collected messages still stand in the
queue, so that a turn relates senders alone.
-/

namespace GameGateway.Sender

/-- A group of messages that one packet has room for. A message alone takes no size prefix. -/
structure Fits (budget : Nat) (group : List Bytes) : Prop where
  ne_nil : group ≠ []
  length_le : ∀ message ∈ group, message.length ≤ budget
  size_le : group.length ≠ 1 → Bundle.size group ≤ budget

/-- A flush by turns, with the packets that it frames. Two turns lose messages: a group that cannot be
bundled, and a message over the budget that cannot be cut. -/
inductive Flushes (budget window now : Nat) : Sender → List Bytes → Sender → Prop
  | done (s : Sender) : Flushes budget window now s [] s
  | fragment {s s' : Sender} {fragment : Bytes} {fragments packets : List Bytes}
      (room : s.unacked.length < window) (waiting : s.fragments = fragment :: fragments)
      (tail : Flushes budget window now ({ s with fragments }.frame .fragment fragment now) packets s') :
      Flushes budget window now s (s.packet .fragment fragment :: packets) s'
  | bundle {s s' : Sender} {group queued packets : List Bytes} {payload : Bytes}
      (room : s.unacked.length < window) (idle : s.fragments = [])
      (front : s.queued = group ++ queued) (fits : Fits budget group)
      (pack : Bundle.pack group = .ok payload)
      (tail : Flushes budget window now ({ s with queued }.frame .data payload now) packets s') :
      Flushes budget window now s (s.packet .data payload :: packets) s'
  | loseGroup {s s' : Sender} {group queued packets : List Bytes} {e : FramingError}
      (room : s.unacked.length < window) (idle : s.fragments = [])
      (front : s.queued = group ++ queued) (fits : Fits budget group)
      (pack : Bundle.pack group = .error e)
      (tail : Flushes budget window now { s with queued } packets s') :
      Flushes budget window now s packets s'
  | cut {s s' : Sender} {message : Bytes} {queued fragments packets : List Bytes}
      (room : s.unacked.length < window) (idle : s.fragments = [])
      (front : s.queued = message :: queued) (large : budget < message.length)
      (split : Fragment.split message budget = .ok fragments)
      (tail : Flushes budget window now { s with queued, fragments } packets s') :
      Flushes budget window now s packets s'
  | loseMessage {s s' : Sender} {message : Bytes} {queued packets : List Bytes} {e : FramingError}
      (room : s.unacked.length < window) (idle : s.fragments = [])
      (front : s.queued = message :: queued) (large : budget < message.length)
      (split : Fragment.split message budget = .error e)
      (tail : Flushes budget window now { s with queued } packets s') :
      Flushes budget window now s packets s'

/-- What holds while a group is collected: it is empty, or it fits a packet, there is a place for that
packet, and no fragment waits. -/
def Collects (budget window : Nat) (group : List Bytes) (s : Sender) : Prop :=
  group ≠ [] → s.unacked.length < window ∧ s.fragments = [] ∧ Fits budget group

variable {budget window now : Nat} {group packets : List Bytes} {message : Bytes} {s s' : Sender}

theorem collects_nil (budget window : Nat) (s : Sender) : Collects budget window [] s :=
  fun h => absurd rfl h

theorem Collects.eq_nil (h : Collects budget window group s) (waiting : s.fragments ≠ []) :
    group = [] := by
  by_cases hgroup : group = []
  · exact hgroup
  · exact absurd (h hgroup).2.1 waiting

theorem fits_singleton (h : message.length ≤ budget) : Fits budget [message] where
  ne_nil := List.cons_ne_nil _ _
  length_le := by simpa using h
  size_le := fun hone => absurd rfl hone

/-- A message that neither exceeds the budget nor closes the group can join it. -/
theorem Collects.concat (h : Collects budget window group s) (room : s.unacked.length < window)
    (idle : s.fragments = []) (hopen : ¬ closesGroup budget group message = true)
    (hsmall : ¬ budget < message.length) : Collects budget window (group ++ [message]) s := by
  intro _
  refine ⟨room, idle, ?_⟩
  by_cases hgroup : group = []
  · subst hgroup
    exact fits_singleton (Nat.le_of_not_lt hsmall)
  · obtain ⟨-, -, hfits⟩ := h hgroup
    simp only [closesGroup, Bool.and_eq_true, Bool.or_eq_true, decide_eq_true_eq, not_and, not_or,
      Bool.not_eq_true', List.isEmpty_eq_false_iff, hgroup, not_false_eq_true, ne_eq, forall_const,
      Nat.not_lt] at hopen
    constructor
    · simp
    · intro m hm
      rcases List.mem_append.1 hm with hm | hm
      · exact hfits.length_le m hm
      · rw [List.mem_singleton.1 hm]
        exact hopen.1
    · intro _
      rw [Bundle.size_concat]
      exact hopen.2

/-- Framing a group neither reads nor changes the queue. -/
theorem flushGroup_withQueue (now : Nat) (group queued : List Bytes) (s : Sender) :
    (flushGroup now group { s with queued }).1 = { (flushGroup now group s).1 with queued } ∧
      (flushGroup now group { s with queued }).2 = (flushGroup now group s).2 := by
  unfold flushGroup
  split
  · exact ⟨rfl, rfl⟩
  · split
    · exact ⟨rfl, rfl⟩
    · exact ⟨rfl, rfl⟩

theorem fragments_flushGroup (now : Nat) (group : List Bytes) (s : Sender) :
    (flushGroup now group s).1.fragments = s.fragments := by
  unfold flushGroup
  split
  · rfl
  · split <;> rfl

/-- Framing the collected group is a turn, or nothing when the group is empty. -/
theorem Flushes.flushGroup (h : Collects budget window group s)
    (tail : Flushes budget window now (flushGroup now group s).1 packets s') :
    Flushes budget window now { s with queued := group ++ s.queued }
      ((Sender.flushGroup now group s).2 ++ packets) s' := by
  by_cases hgroup : group = []
  · subst hgroup
    exact tail
  · obtain ⟨room, idle, hfits⟩ := h hgroup
    have hempty : ¬ group.isEmpty = true := by simpa using hgroup
    simp only [Sender.flushGroup, if_neg hempty] at tail ⊢
    cases hpack : Bundle.pack group with
    | ok payload =>
      simp only [hpack] at tail ⊢
      exact Flushes.bundle room idle rfl hfits hpack tail
    | error e =>
      simp only [hpack] at tail ⊢
      exact Flushes.loseGroup room idle rfl hfits hpack tail

/-- Cutting the first message of the queue is a turn. -/
theorem Flushes.cutFirst {queued : List Bytes} (room : s.unacked.length < window)
    (idle : s.fragments = []) (front : s.queued = message :: queued) (large : budget < message.length)
    (tail : Flushes budget window now (Sender.cut budget message { s with queued }) packets s') :
    Flushes budget window now s packets s' := by
  unfold Sender.cut at tail
  cases hsplit : Fragment.split message budget with
  | ok fragments =>
    simp only [hsplit, idle, List.nil_append] at tail
    exact Flushes.cut room idle front large hsplit tail
  | error e =>
    simp only [hsplit] at tail
    exact Flushes.loseMessage room idle front large hsplit tail

theorem flushFrom_flushes (h : Collects budget window group s) :
    Flushes budget window now { s with queued := group ++ s.queued }
      (flushFrom budget window now group s).2 (flushFrom budget window now group s).1 := by
  fun_induction flushFrom budget window now group s with
  | case1 group s room fragment fragments waiting framed rest ih =>
    have hgroup : group = [] := h.eq_nil (by rw [waiting]; exact List.cons_ne_nil _ _)
    subst hgroup
    exact Flushes.fragment room waiting (ih (collects_nil budget window framed))
  | case2 group s room idle empty =>
    simpa using Flushes.flushGroup h (.done _)
  | case3 group s room idle message queued front shorter popped closed closes full =>
    -- the window is full behind the group, so the message stays at the front of the queue
    have hsender : closed.1 = { (flushGroup now group s).1 with queued } :=
      (flushGroup_withQueue now group queued s).1
    have hpackets : closed.2 = (flushGroup now group s).2 :=
      (flushGroup_withQueue now group queued s).2
    have hs : { closed.1 with queued := message :: closed.1.queued } = (flushGroup now group s).1 := by
      rw [hsender, ← front, ← queued_flushGroup now group s]
    rw [hs, hpackets]
    simpa using Flushes.flushGroup h (.done _)
  | case4 group s room idle message queued front shorter popped closed closes place large rest ih =>
    have hsender : closed.1 = { (flushGroup now group s).1 with queued } :=
      (flushGroup_withQueue now group queued s).1
    have hpackets : closed.2 = (flushGroup now group s).2 :=
      (flushGroup_withQueue now group queued s).2
    have hplace : (flushGroup now group s).1.unacked.length < window := by
      rw [hsender] at place
      exact Nat.lt_of_not_le place
    have htail : Flushes budget window now (flushGroup now group s).1 rest.2 rest.1 := by
      apply Flushes.cutFirst hplace ((fragments_flushGroup now group s).trans idle)
        ((queued_flushGroup now group s).trans front) large
      rw [← hsender]
      exact ih (collects_nil budget window _)
    rw [hpackets]
    exact Flushes.flushGroup h htail
  | case5 group s room idle message queued front shorter popped closed closes place small rest ih =>
    have hsender : closed.1 = { (flushGroup now group s).1 with queued } :=
      (flushGroup_withQueue now group queued s).1
    have hpackets : closed.2 = (flushGroup now group s).2 :=
      (flushGroup_withQueue now group queued s).2
    have hs : (flushGroup now group s).1 = { closed.1 with queued := [message] ++ closed.1.queued } := by
      rw [hsender, List.singleton_append, ← front, ← queued_flushGroup now group s]
    have hcollects : Collects budget window [message] closed.1 := by
      intro _
      exact ⟨Nat.lt_of_not_le place, (fragments_flushGroup now group popped).trans idle,
        fits_singleton (Nat.le_of_not_lt small)⟩
    rw [hpackets]
    apply Flushes.flushGroup h
    rw [hs]
    exact ih hcollects
  | case6 group s room idle message queued front shorter popped stays large ih =>
    have hgroup : group = [] := by
      simpa [closesGroup, large] using stays
    subst hgroup
    exact Flushes.cutFirst room idle front large (ih (collects_nil budget window _))
  | case7 group s room idle message queued front shorter popped stays small ih =>
    have hjoined := ih (h.concat room idle stays small)
    rw [front]
    simpa using hjoined
  | case8 group s full =>
    have hgroup : group = [] := by
      by_cases hgroup : group = []
      · exact hgroup
      · exact absurd (h hgroup).1 full
    subst hgroup
    exact Flushes.done s

/-- A flush is made of turns. -/
theorem flush_flushes (budget window now : Nat) (s : Sender) :
    Flushes budget window now s (flush budget window now s).2 (flush budget window now s).1 :=
  flushFrom_flushes (collects_nil budget window s)

/-- A flush takes messages from the front of the queue only. -/
theorem Flushes.queued_suffix (h : Flushes budget window now s packets s') :
    s'.queued <:+ s.queued := by
  induction h with
  | done s => exact List.suffix_refl _
  | fragment room waiting tail ih => exact ih
  | bundle room idle front fits pack tail ih =>
    rw [front]
    exact ih.trans (List.suffix_append _ _)
  | loseGroup room idle front fits pack tail ih =>
    rw [front]
    exact ih.trans (List.suffix_append _ _)
  | cut room idle front large split tail ih =>
    rw [front]
    exact ih.trans (List.suffix_cons _ _)
  | loseMessage room idle front large split tail ih =>
    rw [front]
    exact ih.trans (List.suffix_cons _ _)

end GameGateway.Sender
