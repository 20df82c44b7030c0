import GameGateway.Proofs.Operations

/-!
# Removal

A session is removed once. The application is told of it while it is listed at its endpoint and is disconnecting, and
then it is closed for good; a handle that outlives its session names no other one, so that an operation through it
does nothing, whoever is at its endpoint by then. `Server.removals_told_once` says this for every application that has
a script, after each operation of each run.

## Implementation notes

The notices are collected along the operations, each as the application is handed it, with the table at that time
(`Server.app_operate`). What they say of a server is `Server.Accounted`: a session has one notice if its removal has
begun, and none before.
-/

namespace GameGateway.Server

variable {α : Type} {s s' : Server α} {id j : SessionId} {x y : Session} {onRemoved : Listener α} {codec : Codec}

/-! ## Notices -/

/-- The notice that an operation gives. -/
def notice? (s : Server α) : Op α → Option Notice
  | .remove id =>
    match s.session? id with
    | some session => if session.removing then none else some ⟨id, leaving session, s.table⟩
    | none => none
  | _ => none

/-- The notices of a list of operations. -/
def notices (onRemoved : Listener α) (codec : Codec) : Server α → List (Op α) → List Notice
  | _, [] => []
  | s, op :: ops => (s.notice? op).toList ++ notices onRemoved codec (s.operate onRemoved codec op) ops

/-- A removal that is noticed takes the session out of the table and closes it; any other does nothing. -/
theorem notice?_remove_cases (onRemoved : Listener α) (s : Server α) (id : SessionId) :
    (s.notice? (.remove id) = none ∧ (s.remove onRemoved id).1 = s ∧
      ∀ x, s.session? id = some x → x.removing = true) ∨
    ∃ x sent, s.session? id = some x ∧ x.removing = false ∧
      s.notice? (.remove id) = some ⟨id, leaving x, s.table⟩ ∧
      (s.remove onRemoved id).1 =
        ({ s with
            table := (s.table.remove x.endpoint id).1
            app := onRemoved ⟨id, leaving x, s.table⟩ s.app }.put id (leaving x).finish).post x.endpoint sent := by
  rcases remove_cases onRemoved s id with ⟨heq, hremoving⟩ | ⟨x, sent, hid, hremoving, -, heq⟩
  · left
    refine ⟨?_, heq, hremoving⟩
    cases hid : s.session? id with
    | none => simp [notice?, hid]
    | some x => simp [notice?, hid, hremoving x hid]
  · right
    exact ⟨x, sent, hid, hremoving, by simp [notice?, hid, hremoving], heq⟩

theorem notice?_of_ne_remove {op : Op α} (h : ∀ id, op ≠ .remove id) : s.notice? op = none := by
  cases op with
  | remove id => exact absurd rfl (h id)
  | _ => rfl

theorem Alters.app (h : Alters id s s') : s'.app = s.app := by
  rcases h with rfl | ⟨x, x', seeds, sent, -, -, -, rfl⟩
  · rfl
  · rfl

/-- The application changes its own state when it is told something or tells itself, and at no other time. -/
theorem app_operate (s : Server α) {op : Op α} (hop : ∀ change, op ≠ .tell change) :
    (s.operate onRemoved codec op).app =
      match s.notice? op with
      | some notice => onRemoved notice s.app
      | none => s.app := by
  cases op with
  | enter endpoint now =>
    rcases enters_or_rests onRemoved codec endpoint now s with henters | heq
    · rw [henters.eq]
      rfl
    · rw [heq]
      rfl
  | accept id now bytes => exact (alters_accept codec id now bytes s).app
  | maintain id now => exact (alters_maintain id now s).app
  | shut id reason => exact (alters_shut id reason s).app
  | connect id account player => exact (alters_connect id account player s).app
  | queue id message => exact (alters_queue id message s).app
  | remove id =>
    rcases notice?_remove_cases onRemoved s id with ⟨hnone, heq, -⟩ | ⟨x, sent, -, -, hnotice, heq⟩
    · rw [hnone, operate, heq]
    · rw [hnotice, operate, heq]
      rfl
  | tell change => exact absurd rfl (hop change)
  | rehash entries =>
    simp only [operate, notice?, rehash]
    split <;> rfl

/-! ## Order -/

/-- The table lists exactly the sessions whose removal has not begun, and all others are closed. -/
structure Orderly (s : Server α) : Prop extends Roster s where
  finished : ∀ id x, s.session? id = some x → (x.phase = .closed ↔ x.removing = true)

theorem orderly_create (config : ProtocolConfig) (limit : Nat) (seeds : List UInt32) (app : α) :
    Orderly (create config limit seeds app) where
  toRoster := roster_create config limit seeds app
  finished := fun id x h => by simp [create, session?] at h

/-- A session whose removal has not begun is not closed. -/
theorem Orderly.phase_leaving (h : Orderly s) (hid : s.session? id = some x) (hremoving : x.removing = false) :
    (leaving x).phase = .disconnecting := by
  have hphase : x.phase ≠ .closed := by
    intro hclosed
    rw [(h.finished id x hid).1 hclosed] at hremoving
    cases hremoving
  cases hopen : x.isOver with
  | true =>
    have hshut : x.phase = .disconnecting := by simpa [Session.isOver, hphase] using hopen
    have hsame : leaving x = { x with removing := true } := by
      rw [leaving, Session.close, if_pos (by exact hopen)]
    rw [hsame]
    exact hshut
  | false =>
    have hclosing : ({ x with removing := true } : Session).isOver = false := hopen
    rw [leaving, Session.close, hclosing]
    rfl

theorem Orderly.alters (h : Orderly s) (halters : Alters id s s') : Orderly s' := by
  rcases halters with rfl | ⟨x, x', seeds, sent, hid, hopen, hkeeps, rfl⟩
  · exact h
  have hseated : x'.removing = false :=
    hkeeps.removing.trans (h.not_removing hid ((h.isOver_eq hid).symm.trans hopen))
  constructor
  · have hclosed : x.isOver = true → x'.isOver = true := by
      intro hclosed
      rw [hopen] at hclosed
      cases hclosed
    exact (h.toRoster.put hid hkeeps.endpoint hkeeps.removing hclosed hkeeps.flagged).congr rfl rfl
  · intro j y hy
    rcases of_session?_put (s := { s with seeds }) hid hy with ⟨rfl, rfl⟩ | ⟨-, hj⟩
    · simp [hkeeps.phase, hseated]
    · exact h.finished j y hj

theorem Orderly.remove (h : Orderly s) (onRemoved : Listener α) (id : SessionId) :
    Orderly (s.remove onRemoved id).1 where
  toRoster := h.toRoster.remove onRemoved id
  finished := by
    intro j y hy
    rcases of_session?_remove hy with ⟨hold, -⟩ | ⟨x, -, -, -, rfl⟩
    · exact h.finished j y hold
    · exact iff_of_true rfl (remains_removed x).removing

theorem Orderly.enters {endpoint : Endpoint} {now : Nat} (h : Orderly s) (henters : Enters endpoint now s s') :
    Orderly s' where
  toRoster := by
    have hopen : s.openSession endpoint now = .ok (s.sessions.length, s') := by
      simp [Server.openSession, henters.vacant, henters.room, henters.eq]
    exact h.toRoster.openSession endpoint now hopen
  finished := by
    intro j y hy
    rw [henters.eq, session?] at hy
    rcases of_getElem?_concat hy with hold | ⟨-, rfl⟩
    · exact h.finished j y hold
    · simp [Session.create]

theorem Orderly.rests (h : Orderly s) (hrests : Rests s s') : Orderly s' where
  endpoints := ((hrests.entries.map Prod.fst).nodup_iff).2 h.endpoints
  mem_iff := by
    intro endpoint id
    rw [hrests.entries.mem_iff, h.mem_iff, session?, session?, hrests.sessions]
  removed := by
    simp only [session?, hrests.sessions]
    exact h.removed
  flagged := by
    simp only [session?, hrests.sessions]
    exact h.flagged
  finished := by
    simp only [session?, hrests.sessions]
    exact h.finished

theorem Orderly.operate (h : Orderly s) (op : Op α) : Orderly (s.operate onRemoved codec op) := by
  by_cases hop : ∃ id, op = .remove id
  · obtain ⟨id, rfl⟩ := hop
    exact h.remove onRemoved id
  · rcases operate_cases onRemoved codec s (not_exists.1 hop) with
      ⟨id, -, halters⟩ | ⟨-, ⟨endpoint, now, henters⟩ | hrests⟩
    · exact h.alters halters
    · exact h.enters henters
    · exact h.rests hrests

/-! ## Stale handles -/

/-- An operation on a session that the table does not list does nothing. -/
theorem Roster.operate_of_not_listed (h : Roster s) {op : Op α} (hsubject : op.subject? = some id)
    (hid : id ∉ s.table.ids) : s.operate onRemoved codec op = s ∧ s.notice? op = none := by
  have hremoving : ∀ x, s.session? id = some x → x.removing = true :=
    fun x hx => h.removing_of_not_mem hx hid
  by_cases hop : ∃ i, op = .remove i
  · obtain ⟨i, rfl⟩ := hop
    obtain rfl : i = id := Option.some.inj hsubject
    rcases notice?_remove_cases onRemoved s i with ⟨hnone, heq, -⟩ | ⟨x, _, hx, hseated, -⟩
    · exact ⟨heq, hnone⟩
    · rw [hremoving x hx] at hseated
      cases hseated
  · refine ⟨?_, notice?_of_ne_remove (not_exists.1 hop)⟩
    rcases operate_cases onRemoved codec s (not_exists.1 hop) with ⟨i, hi, halters⟩ | ⟨hnone, -⟩
    · obtain rfl : i = id := Option.some.inj (hi.symm.trans hsubject)
      rcases halters with heq | ⟨x, _, _, _, hx, hopen, -⟩
      · exact heq
      · rw [h.removed i x hx (hremoving x hx)] at hopen
        cases hopen
    · rw [hsubject] at hnone
      cases hnone

/-! ## Accounts -/

/-- Sessions may be added, whose removal has not begun; for no other one it begins. -/
structure Detains (s s' : Server α) : Prop where
  length : s.sessions.length ≤ s'.sessions.length
  removing : ∀ id y, s'.session? id = some y →
    (∃ x, s.session? id = some x ∧ y.removing = x.removing) ∨ s.sessions.length ≤ id ∧ y.removing = false

theorem detains_operate (s : Server α) {op : Op α} (hop : ∀ id, op ≠ .remove id) :
    Detains s (s.operate onRemoved codec op) := by
  rcases operate_cases onRemoved codec s hop with
    ⟨id, -, heq | ⟨x, x', seeds, sent, hid, -, hkeeps, heq⟩⟩ | ⟨-, ⟨endpoint, now, henters⟩ | hrests⟩
  · rw [heq]
    exact ⟨Nat.le_refl _, fun j y hy => Or.inl ⟨y, hy, rfl⟩⟩
  · rw [heq]
    refine ⟨Nat.le_of_eq List.length_set.symm, fun j y hy => Or.inl ?_⟩
    rcases of_session?_put (s := { s with seeds }) hid hy with ⟨rfl, rfl⟩ | ⟨-, hj⟩
    · exact ⟨x, hid, hkeeps.removing⟩
    · exact ⟨y, hj, rfl⟩
  · rw [henters.eq]
    refine ⟨by simp, fun j y hy => ?_⟩
    rcases of_getElem?_concat hy with hold | ⟨rfl, rfl⟩
    · exact Or.inl ⟨y, hold, rfl⟩
    · exact Or.inr ⟨Nat.le_refl _, rfl⟩
  · refine ⟨Nat.le_of_eq (congrArg List.length hrests.sessions.symm), fun j y hy => Or.inl ⟨y, ?_, rfl⟩⟩
    simpa only [session?, hrests.sessions] using hy

/-- The notices that were given account for the sessions of a server. -/
structure Accounted (told : List Notice) (s : Server α) : Prop where
  orderly : Orderly s
  count : ∀ id x, s.session? id = some x → (told.map Notice.id).count id = if x.removing then 1 else 0
  known : ∀ n ∈ told, n.id < s.sessions.length
  timely : ∀ n ∈ told, n.table.get? n.session.endpoint = some n.id ∧ n.session.phase = .disconnecting

theorem accounted_create (config : ProtocolConfig) (limit : Nat) (seeds : List UInt32) (app : α) :
    Accounted [] (create config limit seeds app) where
  orderly := orderly_create config limit seeds app
  count := fun id x h => by simp [create, session?] at h
  known := by simp
  timely := by simp

variable {told : List Notice}

/-- A session that was never created has no notice. -/
theorem Accounted.count_eq_zero (h : Accounted told s) (hid : s.sessions.length ≤ id) :
    (told.map Notice.id).count id = 0 := by
  refine List.count_eq_zero.2 fun hmem => ?_
  obtain ⟨n, hn, rfl⟩ := List.mem_map.1 hmem
  exact absurd (h.known n hn) (Nat.not_lt.2 hid)

theorem Accounted.detains (h : Accounted told s) (hs' : Orderly s') (hdetains : Detains s s') :
    Accounted told s' where
  orderly := hs'
  count := by
    intro id y hy
    rcases hdetains.removing id y hy with ⟨x, hx, hremoving⟩ | ⟨hid, hremoving⟩
    · rw [hremoving]
      exact h.count id x hx
    · rw [hremoving]
      exact h.count_eq_zero hid
  known := fun n hn => Nat.lt_of_lt_of_le (h.known n hn) hdetains.length
  timely := h.timely

theorem Accounted.remove (h : Accounted told s) (onRemoved : Listener α) (id : SessionId) :
    Accounted (told ++ (s.notice? (.remove id)).toList) (s.remove onRemoved id).1 := by
  rcases notice?_remove_cases onRemoved s id with ⟨hnone, heq, -⟩ | ⟨x, sent, hid, hremoving, hnotice, heq⟩
  · rw [hnone, heq]
    simpa using h
  rw [hnotice]
  refine ⟨h.orderly.remove onRemoved id, fun j y hy => ?_, fun n hn => ?_, fun n hn => ?_⟩
  · by_cases hj : j = id
    · subst hj
      have hbefore := h.count j x hid
      rw [hremoving] at hbefore
      simp [hbefore, removing_remove hy]
    · rw [session?_remove_of_ne onRemoved hj] at hy
      simpa [List.count_singleton, Ne.symm hj] using h.count j y hy
  · have hlength : (s.remove onRemoved id).1.sessions.length = s.sessions.length := by
      rw [heq]
      exact List.length_set
    rw [hlength]
    rcases List.mem_append.1 hn with hn | hn
    · exact h.known n hn
    · obtain rfl := List.mem_singleton.1 hn
      exact (List.getElem?_eq_some_iff.1 hid).1
  · rcases List.mem_append.1 hn with hn | hn
    · exact h.timely n hn
    · obtain rfl := List.mem_singleton.1 hn
      refine ⟨?_, h.orderly.phase_leaving hid hremoving⟩
      have hendpoint : (leaving x).endpoint = x.endpoint := (remains_leaving x).endpoint
      rw [hendpoint]
      exact h.orderly.get?_endpoint hid hremoving

theorem Accounted.operate (h : Accounted told s) (op : Op α) :
    Accounted (told ++ (s.notice? op).toList) (s.operate onRemoved codec op) := by
  by_cases hop : ∃ id, op = .remove id
  · obtain ⟨id, rfl⟩ := hop
    exact h.remove onRemoved id
  · rw [notice?_of_ne_remove (not_exists.1 hop), Option.toList_none, List.append_nil]
    exact h.detains (h.orderly.operate op) (detains_operate s (not_exists.1 hop))

/-- The notices of the operations that follow account for what they do. -/
theorem Accounted.operateAll (h : Accounted told s) (ops : List (Op α)) :
    Accounted (told ++ s.notices onRemoved codec ops) (s.operateAll onRemoved codec ops) := by
  induction ops generalizing told s with
  | nil => simpa [notices] using h
  | cons op ops ih =>
    rw [notices, ← List.append_assoc]
    exact ih (h.operate op)

/-- A session that has a notice is closed and in the table no more. -/
theorem Accounted.of_mem (h : Accounted told s) {n : Notice} (hn : n ∈ told) :
    n.id ∉ s.table.ids ∧ ∃ x, s.session? n.id = some x ∧ x.phase = .closed := by
  obtain ⟨x, hx⟩ : ∃ x, s.session? n.id = some x := ⟨_, List.getElem?_eq_getElem (h.known n hn)⟩
  have hpositive : 0 < (told.map Notice.id).count n.id := List.count_pos_iff.2 (List.mem_map_of_mem hn)
  have hremoving : x.removing = true := by
    cases hcase : x.removing with
    | true => rfl
    | false => simp [h.count n.id x hx, hcase] at hpositive
  exact ⟨h.orderly.not_mem_ids hx hremoving, x, hx, (h.orderly.finished n.id x hx).2 hremoving⟩

/-- Whatever happens to a server, and whatever its handlers do to it, the application is told of a session once, and
has been told when the session is not in the table. It is told while the session is listed at its endpoint and is
disconnecting, and from then on the session is closed and is not listed. What is done to a session that is not listed
changes nothing and tells nobody. -/
theorem removals_told_once (config : ProtocolConfig) (limit : Nat) (seeds : List UInt32) (state : α)
    (app : Application α) (codec : Codec) (script : Script app codec) (events : List Event) :
    let start := create config limit seeds state
    let ops := start.runOps script events
    start.run app codec events = start.operateAll app.onRemoved codec ops ∧
    ∀ done, done <+: ops →
      let s := start.operateAll app.onRemoved codec done
      let told := start.notices app.onRemoved codec done
      (∀ id x, s.session? id = some x →
        (told.map Notice.id).count id = if id ∈ s.table.ids then 0 else 1) ∧
      (∀ n ∈ told, n.table.get? n.session.endpoint = some n.id ∧ n.session.phase = .disconnecting) ∧
      (∀ n ∈ told, n.id ∉ s.table.ids ∧ ∃ x, s.session? n.id = some x ∧ x.phase = .closed) ∧
      (∀ (op : Op α) id, op.subject? = some id → id ∉ s.table.ids →
        s.operate app.onRemoved codec op = s ∧ s.notice? op = none) ∧
      ∀ op : Op α, (∀ change, op ≠ .tell change) → (s.operate app.onRemoved codec op).app =
        match s.notice? op with
        | some n => app.onRemoved n s.app
        | none => s.app := by
  intro start ops
  refine ⟨run_eq_operateAll script start events, fun done _ => ?_⟩
  have h : Accounted (start.notices app.onRemoved codec done) (start.operateAll app.onRemoved codec done) :=
    (accounted_create config limit seeds state).operateAll done
  refine ⟨fun id x hx => ?_, h.timely, fun n hn => h.of_mem hn, fun op id hsubject hid => ?_,
    fun op hop => app_operate _ hop⟩
  · rw [h.count id x hx]
    cases hremoving : x.removing with
    | true =>
      rw [if_neg (h.orderly.not_mem_ids hx hremoving), if_pos rfl]
    | false =>
      have hid := (h.orderly.mem_ids_iff hx).2 hremoving
      rw [if_pos hid]
      rfl
  · exact h.orderly.operate_of_not_listed hsubject hid

/-- A session is closed past the server and its player logs in elsewhere; it is removed, another one opens at its
endpoint, and it is removed and closed once more. -/
theorem removals_told_once_reopened :
    let first : Endpoint := ⟨.v4 10 0 0 1, 5000⟩
    let login : Bytes := Packet.header .data 0 ++ Message.encode .clientId { sessionKey := "a" }
    let codec : Codec := ⟨fun _ => none, fun _ _ => none⟩
    let app := Service.application 1
    let start := create { crcLength := 0, compression := false } 4 [] ({ accounts := [⟨"a", 1, 500, 2⟩] } : Realm)
    let ops := start.runOps (Service.script 1 codec) [.datagram 0 first login, .shut 0 .application,
      .datagram 0 ⟨.v4 10 0 0 2, 5000⟩ login, .remove 0, .datagram 0 first Packet.pong, .remove 0,
      .close 0 .application]
    let s := start.operateAll app.onRemoved codec ops
    let told := start.notices app.onRemoved codec ops
    s.table.entries = [(⟨.v4 10 0 0 2, 5000⟩, 1), (first, 2)] ∧ told.map Notice.id = [0] ∧
      (told.map Notice.id).count 0 = 1 ∧ s.operate app.onRemoved codec (.remove 0) = s := by
  intro first login codec app start ops s told
  have hentries : s.table.entries = [(⟨.v4 10 0 0 2, 5000⟩, 1), (first, 2)] := by decide +kernel
  have htold : told.map Notice.id = [0] := by decide +kernel
  obtain ⟨-, hdone⟩ := removals_told_once { crcLength := 0, compression := false } 4 []
    ({ accounts := [⟨"a", 1, 500, 2⟩] } : Realm) app codec (Service.script 1 codec)
    [.datagram 0 first login, .shut 0 .application, .datagram 0 ⟨.v4 10 0 0 2, 5000⟩ login, .remove 0,
      .datagram 0 first Packet.pong, .remove 0, .close 0 .application]
  obtain ⟨hcount, -, -, hstale, -⟩ := hdone ops (List.prefix_refl ops)
  have hgone : 0 ∉ s.table.ids := by
    rw [Table.ids, hentries]
    decide
  obtain ⟨x, hx⟩ : ∃ x, s.session? 0 = some x := Option.isSome_iff_exists.1 (by decide +kernel)
  refine ⟨hentries, htold, ?_, (hstale (.remove 0) 0 rfl hgone).1⟩
  exact (hcount 0 x hx).trans (if_neg hgone)

end GameGateway.Server
