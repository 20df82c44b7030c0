import GameGateway.Proofs.Held
import GameGateway.Proofs.Numbering

/-!
# What keeps a session alive

A session counts its peer's silence from the latest admitted datagram: a complete request, or a datagram of another
opcode that passes the filter that was in force when it came. Every other datagram is as good as none, except that the
first one wakes the session up. `History.kept_alive_by_admitted` says this of every run, and that a maintenance pass
gives a session up exactly when the silence is longer than the configuration allows.

## Implementation notes

Which datagrams are admitted depends on the filter, which changes along a run, so that the clocks of the admitted
datagrams are collected along the history (`History.heard`). Nothing is said of the clock: it may go back between calls,
and the latest datagram is the last one to come.
-/

namespace GameGateway

theorem Decoder.value?_fixed_bind {α β : Type} [Fixed α] (order : ByteOrder) (f : α → Decoder β) (bytes : Bytes) :
    (fixed α order >>= f).value? bytes =
      if Fixed.width α ≤ bytes.length then
        (f (Fixed.decode α order (bytes.take (Fixed.width α)))).value? (bytes.drop (Fixed.width α))
      else none := by
  rw [value?, value, run_bind, run_fixed]
  by_cases h : Fixed.width α ≤ bytes.length
  · simp only [if_pos h]
    rfl
  · simp only [if_neg h]
    rfl

namespace SessionRequest

theorem opens_iff {datagram : Bytes} : opens datagram = true ↔ Opcode.bytes Opcode.sessionRequest <+: datagram := by
  rw [opens, beq_iff_eq, List.prefix_iff_eq_take, Packet.length_bytes]
  exact eq_comm

/-- A request is complete if it has its three numbers; what stands behind them is not read. -/
theorem isSome_parse? {datagram : Bytes} :
    (parse? datagram).isSome = true ↔ Opcode.bytes Opcode.sessionRequest <+: datagram ∧ 14 ≤ datagram.length := by
  have hwidth : Fixed.width UInt32 = 4 := rfl
  have hbody : (decodeBody.value? (datagram.drop 2)).isSome = true ↔ 14 ≤ datagram.length := by
    simp only [decodeBody, Decoder.value?_fixed_bind, hwidth, List.length_drop]
    split_ifs with hcrc hid hsize
    · exact iff_of_true rfl (by omega)
    · exact iff_of_false Bool.false_ne_true (by omega)
    · exact iff_of_false Bool.false_ne_true (by omega)
    · exact iff_of_false Bool.false_ne_true (by omega)
  rw [parse?, ← opens_iff]
  cases opens datagram with
  | false => simp
  | true => simpa using hbody

end SessionRequest

namespace Session

variable {s : Session} {codec : Codec} {now : Nat} {seed : UInt32} {datagram : Bytes}

/-- A session admits a complete request, and a datagram of another opcode that the filter in force accepts. -/
def Admits (codec : Codec) (s : Session) (datagram : Bytes) : Prop :=
  (Opcode.bytes Opcode.sessionRequest <+: datagram ∧ 14 ≤ datagram.length) ∨
    2 ≤ datagram.length ∧ ¬ Opcode.bytes Opcode.sessionRequest <+: datagram ∧
      (Filter.decode codec s.filter datagram).isOk = true

instance (codec : Codec) (s : Session) (datagram : Bytes) : Decidable (s.Admits codec datagram) :=
  inferInstanceAs (Decidable (_ ∨ _))

/-! ## Datagrams -/

theorem lastActivity_react (now : Nat) (s : Session) (packet : Packet) :
    (s.react now packet).session.lastActivity = s.lastActivity := by
  cases packet with
  | disconnect connectionId =>
    simp only [react]
    split
    · rfl
    · rfl
  | _ => rfl

theorem carried_lastActivity (now : Nat) :
    Carried now fun s s' _ => s.lastActivity = now → s'.lastActivity = now where
  nil := fun _ => id
  append := fun hfirst hrest hnow => hrest (hfirst hnow)
  touch := fun _ _ => rfl
  react := fun s packet hnow => (lastActivity_react now s packet).trans hnow
  acknowledgement := fun _ => id

theorem lastActivity_receive (now : Nat) (packet : Bytes) (s : Session) :
    (s.receive now packet).session.lastActivity = now := by
  have hall := (carried_lastActivity now).reactAll { s with lastActivity := now } (Packet.leaves packet) rfl
  rw [receive]
  split
  · exact hall
  · split
    · exact hall
    · exact hall

theorem lastActivity_awake (s : Session) : s.awake.lastActivity = s.lastActivity := by
  unfold awake
  split
  · rfl
  · rfl

/-- A session that is not shutting down reads a datagram that has an opcode. -/
theorem handle_eq (hopen : s.isOver = false) (hlong : 2 ≤ datagram.length) :
    s.handle codec now seed datagram =
      if SessionRequest.opens datagram then
        match SessionRequest.parse? datagram with
        | some request => s.awake.greet now seed request
        | none => { session := s.awake }
      else
        match Filter.decode codec s.filter datagram with
        | .ok packet => s.awake.receive now packet
        | .error _ => { session := s.awake } := by
  have hready : ¬ (s.isOver = true ∨ datagram.length < 2) :=
    not_or.2 ⟨Bool.eq_false_iff.1 hopen, Nat.not_lt.2 hlong⟩
  rw [← filter_awake s]
  exact if_neg hready

/-- An admitted datagram that a session takes counts as a sign of life, whatever else comes of it. -/
theorem lastActivity_handle (hopen : s.isOver = false) (h : s.Admits codec datagram) (now : Nat) (seed : UInt32) :
    (s.handle codec now seed datagram).session.lastActivity = now := by
  rcases h with ⟨hopens, hlong⟩ | ⟨hlong, hother, haccepted⟩
  · obtain ⟨request, hparse⟩ := Option.isSome_iff_exists.1 (SessionRequest.isSome_parse?.2 ⟨hopens, hlong⟩)
    rw [handle_eq hopen (by omega), if_pos (SessionRequest.opens_iff.2 hopens), hparse]
    rfl
  · rw [handle_eq hopen hlong, if_neg (SessionRequest.opens_iff.not.2 hother)]
    cases hdecode : Filter.decode codec s.filter datagram with
    | error e =>
      rw [hdecode] at haccepted
      cases haccepted
    | ok packet => exact lastActivity_receive now packet s.awake

theorem parse?_of_not_admits (h : ¬ s.Admits codec datagram) : SessionRequest.parse? datagram = none := by
  apply Option.not_isSome_iff_eq_none.1
  rw [SessionRequest.isSome_parse?]
  exact (not_or.1 h).1

/-- Any other datagram is dropped. -/
theorem handle_of_not_admits (hopen : s.isOver = false) (h : ¬ s.Admits codec datagram) (now : Nat)
    (seed : UInt32) :
    s.handle codec now seed datagram = { session := if 2 ≤ datagram.length then s.awake else s } := by
  by_cases hlong : 2 ≤ datagram.length
  · rw [handle_eq hopen hlong, if_pos hlong, parse?_of_not_admits h]
    split
    · rfl
    · rename_i hother
      cases hdecode : Filter.decode codec s.filter datagram with
      | error e => rfl
      | ok packet =>
        have haccepted : (Filter.decode codec s.filter datagram).isOk = true := by
          rw [hdecode]
          rfl
        exact absurd (Or.inr ⟨hlong, SessionRequest.opens_iff.not.1 hother, haccepted⟩) h
  · rw [handle, if_pos (Or.inr (Nat.lt_of_not_le hlong)), if_neg hlong]

theorem drawsSeed_of_not_admits (h : ¬ s.Admits codec datagram) : s.drawsSeed datagram = false := by
  rw [drawsSeed, parse?_of_not_admits h, Bool.and_false]

/-! ## Maintenance -/

theorem timedOut_iff : (s.update now).health = .timedOut ↔ s.isOver = false ∧ s.isTimedOut now = true := by
  rw [health_update]
  split_ifs with hclosed hleaving htimed hexhausted
  · simp [isOver, hclosed]
  · simp [isOver, hleaving]
  · simp [isOver, hclosed, hleaving, htimed]
  · simp [htimed]
  · simp [htimed]

/-! ## Runs -/

/-- The clock of a call that takes an admitted datagram. -/
def heard (codec : Codec) (s : Session) : Event → List Nat
  | .handle now _ datagram => if s.isOver = false ∧ s.Admits codec datagram then [now] else []
  | _ => []

namespace History

variable {h : History}

/-- The clocks of the calls of a run that take an admitted datagram. -/
def heard (codec : Codec) (h : History) : List Event → List Nat
  | [] => []
  | event :: events => h.session.heard codec event ++ (h.step codec event).heard codec events

theorem lastActivity_step (codec : Codec) (h : History) (event : Event) :
    (h.step codec event).session.lastActivity =
      (h.session.heard codec event).getLastD h.session.lastActivity := by
  cases event with
  | queue message =>
    simp only [step, Session.queue]
    split
    · rfl
    · rfl
  | connect accountId playerId =>
    simp only [step, Session.connect]
    split
    · rfl
    · rfl
  | close reason =>
    simp only [step, Session.close]
    split
    · rfl
    · rfl
  | update now =>
    obtain ⟨sender, hsession⟩ := update_session now h.session
    simp only [step, hsession]
    rfl
  | handle now seed datagram =>
    simp only [step, react, Session.heard]
    split
    · rename_i hadmits
      exact lastActivity_handle hadmits.1 hadmits.2 now seed
    · rename_i hneither
      cases hclosed : h.session.isOver with
      | true =>
        rw [Session.handle, if_pos (Or.inl hclosed)]
        rfl
      | false =>
        have hother : ¬ h.session.Admits codec datagram := fun hadmits => hneither ⟨hclosed, hadmits⟩
        rw [handle_of_not_admits hclosed hother]
        dsimp only
        split
        · exact lastActivity_awake h.session
        · rfl
  | finish => rfl

theorem lastActivity_run (codec : Codec) (h : History) (events : List Event) :
    (h.run codec events).session.lastActivity = (h.heard codec events).getLastD h.session.lastActivity := by
  induction events generalizing h with
  | nil => rfl
  | cons event events ih =>
    calc
      (h.run codec (event :: events)).session.lastActivity =
          ((h.step codec event).heard codec events).getLastD (h.step codec event).session.lastActivity := ih _
      _ = ((h.step codec event).heard codec events).getLastD
          ((h.session.heard codec event).getLastD h.session.lastActivity) := by
        rw [lastActivity_step]
      _ = (h.heard codec (event :: events)).getLastD h.session.lastActivity := by
        simp only [heard, List.getLastD_eq_getLast?, List.getLast?_append]
        cases ((h.step codec event).heard codec events).getLast? with
        | none => rfl
        | some now => rfl

/-- In every run the last sign of life is the latest admitted datagram, or the creation if there was none. While the
session is not shutting down, a datagram that is not admitted brings no message, is not answered, draws no seed and does
nothing but wake up a session that has not been heard of, if it is long enough to have an opcode; and a maintenance
pass gives the session up for silence exactly when the last sign of life is longer ago than the configuration allows. -/
theorem kept_alive_by_admitted (codec : Codec) (endpoint : Endpoint) (config : ProtocolConfig) (created : Nat)
    (events : List Event) :
    let s := ((start endpoint config created).run codec events).session
    let last := ((start endpoint config created).heard codec events).getLastD created
    s.lastActivity = last ∧
    (s.isOver = false →
      (∀ now seed datagram, ¬ s.Admits codec datagram → s.drawsSeed datagram = false ∧
        s.handle codec now seed datagram =
          { session :=
              if s.phase = .uninitialized ∧ 2 ≤ datagram.length then { s with phase := .handshaking } else s
            sent := []
            result := .ok []
            advanced := false }) ∧
      ∀ now, (s.update now).health = .timedOut ↔ config.timeoutSecs.toNat * 1000 < now - last) := by
  intro s last
  have hlast : s.lastActivity = last := lastActivity_run codec (start endpoint config created) events
  have hconfig : s.config = config :=
    run_preserves (P := fun h => h.session.config = config) (fun h event hh => (config_step codec h event).trans hh) rfl
      events
  refine ⟨hlast, fun hopen => ⟨fun now seed datagram hother => ⟨drawsSeed_of_not_admits hother, ?_⟩, fun now => ?_⟩⟩
  · rw [handle_of_not_admits hopen hother, awake]
    by_cases hlong : 2 ≤ datagram.length
    · simp only [hlong, if_true, and_true]
    · simp only [hlong, if_false, and_false]
  · rw [timedOut_iff, isTimedOut, decide_eq_true_eq, ProtocolConfig.timeoutMs, hconfig, hlast]
    exact and_iff_right hopen

/-- The filter is negotiated at time 3; of the two pings behind it the first has a wrong footer. -/
example :
    let codec : Codec := ⟨fun _ => none, fun _ _ => none⟩
    let request : Bytes := [0, 1, 0, 0, 0, 0, 0, 0, 0, 7, 0, 0, 1, 0xF0]
    let filter : FilterParams := { crcSeed := 9, crcLength := 2, compressionThreshold := 32 }
    (start ⟨.v4 127 0 0 1, 20260⟩ { compression := false } 0).heard codec [.handle 3 9 request,
      .handle 5 0 [0, 6, 0, 0], .handle 8 0 (Filter.encode codec filter Packet.pong)] = [3, 8] := by
  decide +kernel

end History

end Session

end GameGateway
