import GameGateway.Proofs.Stream

/-!
# A receiver that counts without bound

`Receiver.Unbounded` is the receiving side with natural numbers in the place of sequence numbers. It keeps
the log of the items that it has processed, and its expected number is the length of the log. What it does
with items that come early, late or twice is said here for every source of numbered items.

## Implementation notes

`Unbounded.Drains` and `Unbounded.Arrives` list all that a drain and an arrival can do; what is said of
both is proved by cases over them. `Unbounded.Follows` holds throughout a drain, `Unbounded.Settled` between
two arrivals: between arrivals the expected item is never held.
-/

namespace GameGateway.Receiver

/-- The receiving side, counting items without bound. -/
structure Unbounded where
  /-- The items that were processed, in order. -/
  log : List Item := []
  /-- Items that came early, by number. -/
  held : List (Nat × Item) := []
  assembly : Option Fragment.Assembly := none

namespace Unbounded

/-- The expected number. -/
def count (r : Unbounded) : Nat := r.log.length

/-- Processes an item. It enters the log unless it is a violation. -/
def process (item : Item) (r : Unbounded) : Unbounded × Except Violation (List Bytes) :=
  match consume r.assembly item with
  | (assembly, .ok messages) => ({ r with assembly, log := r.log ++ [item] }, .ok messages)
  | (assembly, .error v) => ({ r with assembly }, .error v)

theorem process_eq_ok_iff {item : Item} {r r' : Unbounded} {messages : List Bytes} :
    process item r = (r', .ok messages) ↔
      ∃ assembly, consume r.assembly item = (assembly, .ok messages) ∧
        r' = { r with assembly, log := r.log ++ [item] } := by
  rcases h : consume r.assembly item with ⟨assembly, v | first⟩
  · simp [process, h]
  · simp only [process, h, Prod.mk.injEq, Except.ok.injEq]
    constructor
    · rintro ⟨rfl, rfl⟩
      exact ⟨assembly, ⟨rfl, rfl⟩, rfl⟩
    · rintro ⟨_, ⟨rfl, rfl⟩, rfl⟩
      exact ⟨rfl, rfl⟩

theorem process_eq_error_iff {item : Item} {r r' : Unbounded} {v : Violation} :
    process item r = (r', .error v) ↔
      ∃ assembly, consume r.assembly item = (assembly, .error v) ∧ r' = { r with assembly } := by
  rcases h : consume r.assembly item with ⟨assembly, found | first⟩
  · simp only [process, h, Prod.mk.injEq, Except.error.injEq]
    constructor
    · rintro ⟨rfl, rfl⟩
      exact ⟨assembly, ⟨rfl, rfl⟩, rfl⟩
    · rintro ⟨_, ⟨rfl, rfl⟩, rfl⟩
      exact ⟨rfl, rfl⟩
  · simp [process, h]

theorem held_process (item : Item) (r : Unbounded) : (process item r).1.held = r.held := by
  unfold process
  split
  · rfl
  · rfl

/-- The receiver without the expected item among the held ones. -/
def released (r : Unbounded) : Unbounded := { r with held := release r.count r.held }

@[simp] theorem count_released (r : Unbounded) : r.released.count = r.count := rfl

/-- Processes held items for as long as the expected one is among them. -/
def drain (r : Unbounded) : Unbounded × Except Violation (List Bytes) :=
  match h : r.held.lookup r.count with
  | none => (r, .ok [])
  | some item =>
    have : r.released.held.length < r.held.length := length_release_lt h
    let processed := process item r.released
    match processed.2 with
    | .error v => (processed.1, .error v)
    | .ok first =>
      let rest := drain processed.1
      (rest.1, rest.2.map (first ++ ·))
termination_by r.held.length
decreasing_by simpa only [held_process] using this

/-- What an item does to the receiver. -/
structure Arrival where
  receiver : Unbounded
  result : Except Violation (List Bytes) := .ok []
  /-- The notice that is due to the peer at once: opcode and number. -/
  notice : Option (UInt16 × Nat) := none
  advanced : Bool := false

/-- All notices that are due: the one that is due at once, and behind it an acknowledgement if the expected
number moved on without a violation. -/
def Arrival.notices (a : Arrival) : List (UInt16 × Nat) :=
  a.notice.toList ++
    match a.result with
    | .ok _ => if a.advanced then [(Opcode.acknowledge, a.receiver.count - 1)] else []
    | .error _ => []

/-- Takes the item of a number. -/
def arrive (window : Nat) (index : Nat) (item : Item) (r : Unbounded) : Arrival :=
  if index < r.count then { receiver := r, notice := some (Opcode.acknowledge, r.count - 1) }
  else if r.count < index then
    if window ≤ index - r.count then { receiver := r }
    else
      { receiver := { r with held := hold index item r.held }
        notice := some (Opcode.outOfOrder, index) }
  else
    let processed := process item r
    match processed.2 with
    | .error v => { receiver := processed.1, result := .error v }
    | .ok first =>
      let rest := drain processed.1
      { receiver := rest.1, result := rest.2.map (first ++ ·), advanced := true }

/-! ## What the operations do -/

/-- A drain by steps, with what is left and what comes of it. -/
inductive Drains : Unbounded → Unbounded → Except Violation (List Bytes) → Prop
  | done {r : Unbounded} (missing : r.held.lookup r.count = none) : Drains r r (.ok [])
  | violation {r r' : Unbounded} {item : Item} {v : Violation}
      (expected : r.held.lookup r.count = some item) (processed : process item r.released = (r', .error v)) :
      Drains r r' (.error v)
  | next {r r' r'' : Unbounded} {item : Item} {first : List Bytes} {result : Except Violation (List Bytes)}
      (expected : r.held.lookup r.count = some item) (processed : process item r.released = (r', .ok first))
      (rest : Drains r' r'' result) : Drains r r'' (result.map (first ++ ·))

theorem mem_of_lookup {held : List (Nat × Item)} {k : Nat} {item : Item}
    (h : held.lookup k = some item) : (k, item) ∈ held := by
  obtain ⟨front, rest, rfl, -⟩ := List.lookup_eq_some_iff.1 h
  simp

theorem drain_drains (r : Unbounded) : Drains r (drain r).1 (drain r).2 := by
  fun_induction drain r with
  | case1 r hnone => exact .done hnone
  | case2 r item hsome shorter processed v herror =>
    exact .violation hsome (Prod.ext rfl herror)
  | case3 r item hsome shorter processed first hok rest ih =>
    exact .next hsome (Prod.ext rfl hok) ih

/-- All that can come of an item: it comes late, or beyond the window, or early, or it is the expected one,
which may be a violation. -/
inductive Arrives (window index : Nat) (item : Item) (r : Unbounded) : Arrival → Prop
  | late (before : index < r.count) :
      Arrives window index item r
        { receiver := r, notice := some (Opcode.acknowledge, r.count - 1) }
  | beyond (ahead : r.count < index) (outside : window ≤ index - r.count) :
      Arrives window index item r { receiver := r }
  | early (ahead : r.count < index) (inside : index - r.count < window) :
      Arrives window index item r
        { receiver := { r with held := hold index item r.held }
          notice := some (Opcode.outOfOrder, index) }
  | violation {r' : Unbounded} {v : Violation} (expected : index = r.count)
      (processed : process item r = (r', .error v)) :
      Arrives window index item r { receiver := r', result := .error v }
  | next {r' r'' : Unbounded} {first : List Bytes} {result : Except Violation (List Bytes)}
      (expected : index = r.count) (processed : process item r = (r', .ok first))
      (rest : Drains r' r'' result) :
      Arrives window index item r
        { receiver := r'', result := result.map (first ++ ·), advanced := true }

theorem arrive_arrives (window index : Nat) (item : Item) (r : Unbounded) :
    Arrives window index item r (arrive window index item r) := by
  unfold arrive
  by_cases hlate : index < r.count
  · rw [if_pos hlate]
    exact .late hlate
  rw [if_neg hlate]
  by_cases hearly : r.count < index
  · rw [if_pos hearly]
    split
    · rename_i houtside
      exact .beyond hearly houtside
    · rename_i hinside
      exact .early hearly (Nat.lt_of_not_le hinside)
  rw [if_neg hearly]
  have hexpected : index = r.count := by omega
  rcases hprocess : process item r with ⟨r', v | first⟩
  · exact .violation hexpected hprocess
  · exact .next hexpected hprocess (drain_drains r')

/-! ## Which items are processed and held -/

/-- The receiver has items of a source only, each under its number, and holds none further ahead than half
the circle of sequence numbers. -/
structure Follows (source : Nat → Item → Prop) (r : Unbounded) : Prop where
  log : ∀ i item, r.log[i]? = some item → source i item
  held : ∀ entry ∈ r.held, source entry.1 entry.2
  reach : ∀ entry ∈ r.held, r.count ≤ entry.1 ∧ entry.1 ≤ r.count + 32767

/-- What holds of a receiver between two arrivals. -/
structure Settled (source : Nat → Item → Prop) (r : Unbounded) : Prop extends Follows source r where
  ahead : ∀ entry ∈ r.held, entry.1 ≠ r.count

variable {source : Nat → Item → Prop} {r r' : Unbounded} {a : Arrival} {window index : Nat} {item : Item}
  {result : Except Violation (List Bytes)} {v : Violation} {said more : List Bytes}

theorem settled_empty (source : Nat → Item → Prop) : Settled source {} where
  log := by simp
  held := by simp
  reach := by simp
  ahead := by simp

theorem Settled.mono {source' : Nat → Item → Prop} (h : Settled source r)
    (hsource : ∀ i item, source i item → source' i item) : Settled source' r where
  log := fun i item hi => hsource i item (h.log i item hi)
  held := fun entry he => hsource entry.1 entry.2 (h.held entry he)
  reach := h.reach
  ahead := h.ahead

theorem mem_release {κ : Type} [BEq κ] [LawfulBEq κ] {k : κ} {held : List (κ × Item)}
    {entry : κ × Item} : entry ∈ release k held ↔ entry ∈ held ∧ entry.1 ≠ k := by
  simp [release]

theorem Follows.released (h : Follows source r) : Settled source r.released where
  log := h.log
  held := fun entry he => h.held entry (mem_release.1 he).1
  reach := fun entry he => h.reach entry (mem_release.1 he).1
  ahead := fun _ he => (mem_release.1 he).2

/-- Processing the expected item makes the next one the expected one. -/
theorem Settled.process (h : Settled source r) (hitem : source r.count item)
    (hp : Unbounded.process item r = (r', .ok more)) : Follows source r' := by
  obtain ⟨assembly, -, rfl⟩ := process_eq_ok_iff.1 hp
  constructor
  · intro i logged hi
    rcases of_getElem?_concat hi with hi | ⟨rfl, rfl⟩
    · exact h.log i logged hi
    · exact hitem
  · exact h.held
  · intro entry he
    obtain ⟨hlow, hhigh⟩ := h.reach entry he
    have hne := h.ahead entry he
    simp only [count, List.length_append, List.length_singleton] at hlow hhigh hne ⊢
    omega

/-- A violation moves nothing but the assembly. -/
theorem Settled.process_error (h : Settled source r)
    (hp : Unbounded.process item r = (r', .error v)) : Settled source r' := by
  obtain ⟨assembly, -, rfl⟩ := process_eq_error_iff.1 hp
  exact ⟨⟨h.log, h.held, h.reach⟩, h.ahead⟩

theorem Drains.settled (hd : Drains r r' result) (h : Follows source r) : Settled source r' := by
  induction hd with
  | @done r missing =>
    refine ⟨h, fun entry he heq => ?_⟩
    have hne := List.lookup_eq_none_iff.1 missing entry he
    simp [heq] at hne
  | violation expected processed => exact h.released.process_error processed
  | next expected processed rest ih =>
    exact ih (h.released.process (h.held _ (mem_of_lookup expected)) processed)

theorem Settled.hold (h : Settled source r) (hitem : source index item) (hahead : r.count < index)
    (hreach : index ≤ r.count + 32767) :
    Settled source { r with held := Receiver.hold index item r.held } := by
  have hmem : ∀ entry ∈ Receiver.hold index item r.held, entry = (index, item) ∨ entry ∈ r.held := by
    intro entry he
    rcases List.mem_cons.1 he with he | he
    · exact Or.inl he
    · exact Or.inr (mem_release.1 he).1
  refine ⟨⟨h.log, ?_, ?_⟩, ?_⟩
  · intro entry he
    rcases hmem entry he with rfl | he
    · exact hitem
    · exact h.held entry he
  · intro entry he
    rcases hmem entry he with rfl | he
    · exact ⟨Nat.le_of_lt hahead, hreach⟩
    · exact h.reach entry he
  · intro entry he
    rcases hmem entry he with rfl | he
    · exact Nat.ne_of_gt hahead
    · exact h.ahead entry he

/-- An arrival within reach leaves a receiver settled. -/
theorem Arrives.settled (ha : Arrives window index item r a) (h : Settled source r)
    (hitem : source index item) (hreach : index ≤ r.count + 32767) : Settled source a.receiver := by
  cases ha with
  | late before => exact h
  | beyond ahead outside => exact h
  | early ahead inside => exact h.hold hitem ahead hreach
  | violation expected processed => exact h.process_error processed
  | next expected processed rest =>
    subst expected
    exact rest.settled (h.process hitem processed)

/-! ## What is read -/

/-- The log reads as the given messages and leaves the assembly at hand. -/
def Reads (r : Unbounded) (said : List Bytes) : Prop := consumeAll none r.log = (r.assembly, .ok said)

theorem reads_empty : Reads {} [] := rfl

theorem Reads.process (h : Reads r said) (hp : Unbounded.process item r = (r', .ok more)) :
    Reads r' (said ++ more) := by
  obtain ⟨assembly, hitem, rfl⟩ := process_eq_ok_iff.1 hp
  have hone : consumeAll r.assembly [item] = (assembly, .ok (more ++ [])) := consumeAll_cons hitem []
  rw [List.append_nil] at hone
  exact consumeAll_append_ok h hone

/-- Items that read without a violation, and an item that is a violation behind them. -/
structure Breaks (log : List Item) (item : Item) (v : Violation) : Prop where
  before : ∃ assembly said, consumeAll none log = (assembly, .ok said)
  behind : (consumeAll none (log ++ [item])).2 = .error v

/-- A violation is one behind the log. -/
theorem Reads.process_error (h : Reads r said) (hp : Unbounded.process item r = (r', .error v)) :
    r'.log = r.log ∧ Breaks r.log item v := by
  obtain ⟨assembly, hitem, rfl⟩ := process_eq_error_iff.1 hp
  refine ⟨rfl, ⟨_, _, h⟩, ?_⟩
  rw [consumeAll_append_error h (consumeAll_cons_error hitem [])]

theorem map_eq_ok {first messages : List Bytes} (h : result.map (first ++ ·) = .ok messages) :
    ∃ rest, result = .ok rest ∧ messages = first ++ rest := by
  cases result with
  | error v => cases h
  | ok rest =>
    cases h
    exact ⟨rest, rfl, rfl⟩

theorem map_eq_error {first : List Bytes} (h : result.map (first ++ ·) = .error v) :
    result = .error v := by
  cases result with
  | error v => exact h
  | ok rest => cases h

theorem Drains.reads (hd : Drains r r' result) (h : Reads r said) (hok : result = .ok more) :
    Reads r' (said ++ more) := by
  induction hd generalizing said more with
  | done missing =>
    cases hok
    rw [List.append_nil]
    exact h
  | violation expected processed => cases hok
  | @next r r' r'' item first result expected processed rest ih =>
    obtain ⟨last, hlast, rfl⟩ := map_eq_ok hok
    have hreleased : Reads r.released said := h
    rw [← List.append_assoc]
    exact ih (hreleased.process processed) hlast

theorem Drains.reads_error (hd : Drains r r' result) (hf : Follows source r) (h : Reads r said)
    (herror : result = .error v) :
    ∃ item, source r'.count item ∧ Breaks r'.log item v := by
  induction hd generalizing said with
  | done missing => cases herror
  | @violation r r' item v' expected processed =>
    cases herror
    have hreleased : Reads r.released said := h
    obtain ⟨hlog, hbreaks⟩ := hreleased.process_error processed
    have hcount : r'.count = r.count := congrArg List.length hlog
    exact ⟨item, hcount ▸ hf.held _ (mem_of_lookup expected), hlog ▸ hbreaks⟩
  | @next r r' r'' item first result expected processed rest ih =>
    have hreleased : Reads r.released said := h
    have hfollows := hf.released.process (hf.held _ (mem_of_lookup expected)) processed
    exact ih hfollows (hreleased.process processed) (map_eq_error herror)

/-- The messages that an arrival completes are those that the log has grown by. -/
theorem Arrives.reads (ha : Arrives window index item r a) (h : Reads r said)
    (hok : a.result = .ok more) : Reads a.receiver (said ++ more) := by
  have hidle : Reads r (said ++ []) := by
    rw [List.append_nil]
    exact h
  cases ha with
  | late before =>
    cases hok
    exact hidle
  | beyond ahead outside =>
    cases hok
    exact hidle
  | early ahead inside =>
    cases hok
    exact hidle
  | violation expected processed => cases hok
  | next expected processed rest =>
    obtain ⟨last, hlast, rfl⟩ := map_eq_ok hok
    rw [← List.append_assoc]
    exact rest.reads (h.process processed) hlast

/-- A violation of an arrival is that of the next item of the source behind the log. -/
theorem Arrives.reads_error (ha : Arrives window index item r a) (h : Reads r said)
    (hs : Settled source r) (hitem : source index item) (herror : a.result = .error v) :
    ∃ next, source a.receiver.count next ∧ Breaks a.receiver.log next v := by
  cases ha with
  | late before => cases herror
  | beyond ahead outside => cases herror
  | early ahead inside => cases herror
  | @violation r' v' expected processed =>
    cases herror
    subst expected
    obtain ⟨hlog, hbreaks⟩ := h.process_error processed
    have hcount : r'.count = r.count := congrArg List.length hlog
    exact ⟨item, hcount ▸ hitem, hlog ▸ hbreaks⟩
  | next expected processed rest =>
    subst expected
    exact rest.reads_error (hs.process hitem processed) (h.process processed) (map_eq_error herror)

/-! ## What the receiver has -/

/-- The item of a number was processed or is held. -/
def Has (k : Nat) (r : Unbounded) : Prop := k < r.count ∨ ∃ item, (k, item) ∈ r.held

theorem count_process (hp : process item r = (r', .ok more)) : r'.count = r.count + 1 := by
  obtain ⟨assembly, -, rfl⟩ := process_eq_ok_iff.1 hp
  simp [count]

theorem count_process_error (hp : process item r = (r', .error v)) : r'.count = r.count := by
  obtain ⟨assembly, -, rfl⟩ := process_eq_error_iff.1 hp
  rfl

theorem Has.process {k : Nat} (h : Has k r) (hp : Unbounded.process item r = (r', .ok more)) :
    Has k r' := by
  rcases h with h | ⟨entry, h⟩
  · left
    rw [count_process hp]
    exact Nat.lt_succ_of_lt h
  · right
    obtain ⟨assembly, -, rfl⟩ := process_eq_ok_iff.1 hp
    exact ⟨entry, h⟩

/-- A drain without a violation loses nothing. -/
theorem Drains.has {k : Nat} (hd : Drains r r' result) (h : Has k r) (hok : result = .ok more) :
    Has k r' := by
  induction hd generalizing more with
  | done missing => exact h
  | violation expected processed => cases hok
  | @next r r' r'' item first result expected processed rest ih =>
    obtain ⟨last, hlast, -⟩ := map_eq_ok hok
    refine ih ?_ hlast
    rcases h with h | ⟨entry, h⟩
    · have hreleased : Has k r.released := Or.inl h
      exact hreleased.process processed
    · by_cases hk : k = r.count
      · left
        rw [count_process processed, hk]
        exact Nat.lt_succ_self _
      · have hreleased : Has k r.released := Or.inr ⟨entry, mem_release.2 ⟨h, hk⟩⟩
        exact hreleased.process processed

/-- An arrival without a violation loses nothing. -/
theorem Arrives.has {k : Nat} (ha : Arrives window index item r a) (h : Has k r)
    (hok : a.result = .ok more) : Has k a.receiver := by
  cases ha with
  | late before => exact h
  | beyond ahead outside => exact h
  | early ahead inside =>
    rcases h with h | ⟨entry, h⟩
    · exact Or.inl h
    · right
      by_cases hk : k = index
      · exact ⟨item, by simp [Receiver.hold, hk]⟩
      · exact ⟨entry, List.mem_cons_of_mem _ (mem_release.2 ⟨h, hk⟩)⟩
  | violation expected processed => cases hok
  | next expected processed rest =>
    obtain ⟨last, hlast, -⟩ := map_eq_ok hok
    exact rest.has (h.process processed) hlast

/-- What a receiver may tell its peer: an acknowledgement of a number before the expected one, or a report
of an item that it has. -/
def Justified (notice : UInt16 × Nat) (r : Unbounded) : Prop :=
  (notice.1 = Opcode.acknowledge ∧ notice.2 < r.count) ∨ (notice.1 = Opcode.outOfOrder ∧ Has notice.2 r)

theorem Drains.count_le (hd : Drains r r' result) : r.count ≤ r'.count := by
  induction hd with
  | done missing => exact Nat.le_refl _
  | violation expected processed => exact Nat.le_of_eq (count_process_error processed).symm
  | @next r r' r'' item first result expected processed rest ih =>
    have hone := count_process processed
    rw [count_released] at hone
    omega

theorem Arrives.count_le (ha : Arrives window index item r a) : r.count ≤ a.receiver.count := by
  cases ha with
  | late before => exact Nat.le_refl _
  | beyond ahead outside => exact Nat.le_refl _
  | early ahead inside => exact Nat.le_refl _
  | violation expected processed => exact Nat.le_of_eq (count_process_error processed).symm
  | next expected processed rest =>
    have hone := count_process processed
    exact Nat.le_trans (hone ▸ Nat.le_succ _) rest.count_le

/-- What moves the expected number on leaves it positive. -/
theorem Arrives.count_pos (ha : Arrives window index item r a) (hadvanced : a.advanced = true) :
    0 < a.receiver.count := by
  cases ha with
  | late before => cases hadvanced
  | beyond ahead outside => cases hadvanced
  | early ahead inside => cases hadvanced
  | violation expected processed => cases hadvanced
  | next expected processed rest =>
    have hone := count_process processed
    exact Nat.lt_of_lt_of_le (hone ▸ Nat.succ_pos _) rest.count_le

theorem mem_notices {notice : UInt16 × Nat} (h : notice ∈ a.notices) :
    a.notice = some notice ∨
      a.advanced = true ∧ notice = (Opcode.acknowledge, a.receiver.count - 1) := by
  obtain ⟨receiver, v | messages, due, advanced⟩ := a
  · left
    simpa [Arrival.notices] using h
  · cases advanced
    · left
      simpa [Arrival.notices] using h
    · simpa [Arrival.notices] using h

/-- Notices are justified when they are sent. -/
theorem Arrives.justified {notice : UInt16 × Nat} (ha : Arrives window index item r a)
    (h : notice ∈ a.notices) : Justified notice a.receiver := by
  rcases mem_notices h with hdue | ⟨hadvanced, rfl⟩
  · cases ha with
    | late before =>
      cases hdue
      have hbefore : r.count - 1 < r.count := by omega
      exact Or.inl ⟨rfl, hbefore⟩
    | beyond ahead outside => cases hdue
    | early ahead inside =>
      cases hdue
      exact Or.inr ⟨rfl, Or.inr ⟨item, List.mem_cons_self ..⟩⟩
    | violation expected processed => cases hdue
    | next expected processed rest => cases hdue
  · have hpos := ha.count_pos hadvanced
    have hbefore : a.receiver.count - 1 < a.receiver.count := by omega
    exact Or.inl ⟨rfl, hbefore⟩

end Unbounded

end GameGateway.Receiver
