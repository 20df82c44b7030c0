import GameGateway.Proofs.Isolation

/-!
# Dispatch in order

The messages of a datagram reach their handlers in order and once each. A message with a short header, one whose opcode
nobody registered and one whose body does not read are as good as none. The first message that has a handler and finds
its session shutting down ends the dispatch, and the session is removed. `Server.dispatched_in_order` says this of
whatever handlers are registered and of every state that they and the calls of the server lead to.

## Implementation notes

A handler is known by what it reads and by what it does with that, which is any list of operations of the server
(`TypedHandler`). What a message asks for does not depend on the server (`Registry.invocation?`); only the place where
the dispatch stops does (`Server.StopsAt`), because a handler may shut the session down.
-/

namespace GameGateway

open Server

variable {α : Type} {onRemoved : Listener α} {codec : Codec}

/-! ## Handlers -/

/-- A handler for one type of message: how a body is read, and what is done with it. It runs while its session is not
shutting down, and what it does then comes down to operations of the server. -/
structure TypedHandler (onRemoved : Listener α) (codec : Codec) where
  opcode : UInt32
  Body : Type
  decode : Decoder Body
  run : SessionId → Body → Server α → Server α
  ops : SessionId → Body → Server α → List (Op α)
  performed : ∀ {id body s x}, s.session? id = some x → x.isClosed = false →
    run id body s = s.operateAll onRemoved codec (ops id body s)

/-- A handler that is given by its operations. -/
def TypedHandler.ofOps (onRemoved : Listener α) (codec : Codec) (opcode : UInt32) {Body : Type}
    (decode : Decoder Body) (ops : SessionId → Body → Server α → List (Op α)) : TypedHandler onRemoved codec where
  opcode := opcode
  Body := Body
  decode := decode
  run := fun id body s => s.operateAll onRemoved codec (ops id body s)
  ops := ops
  performed := fun _ _ => rfl

/-- A handler at work: the body that it got. -/
structure Invocation (onRemoved : Listener α) (codec : Codec) where
  handler : TypedHandler onRemoved codec
  body : handler.Body

/-- Reads the body and runs the handler; bytes behind the body are ignored. -/
def TypedHandler.handler (t : TypedHandler onRemoved codec) : Handler α := fun id bytes s =>
  match t.decode.value bytes with
  | .ok body => .ok (t.run id body s)
  | .error cause => .error (.malformedBody t.opcode cause)

/-- A handler for a kind of message of the service. -/
def TypedHandler.ofKind (kind : Message.Kind) (run : SessionId → kind.Body → Server α → Server α)
    (ops : SessionId → kind.Body → Server α → List (Op α))
    (performed : ∀ {id body s x}, s.session? id = some x → x.isClosed = false →
      run id body s = s.operateAll onRemoved codec (ops id body s)) : TypedHandler onRemoved codec :=
  ⟨kind.opcode, kind.Body, kind.decodeBody, run, ops, performed⟩

theorem TypedHandler.handler_ofKind (kind : Message.Kind) (run : SessionId → kind.Body → Server α → Server α)
    (ops : SessionId → kind.Body → Server α → List (Op α))
    (performed : ∀ {id body s x}, s.session? id = some x → x.isClosed = false →
      run id body s = s.operateAll onRemoved codec (ops id body s)) :
    (ofKind kind run ops performed).handler = Handler.typed kind run := by
  funext id bytes s
  unfold handler Handler.typed ofKind
  dsimp only
  cases kind.decodeBody.value bytes with
  | ok body => rfl
  | error cause => rfl

namespace Registry

variable {handlers : List (TypedHandler onRemoved codec)} {id : SessionId} {message : Bytes} {messages : List Bytes}
  {s : Server α} {x : Session}

/-- Registers a handler, unless its opcode has one. -/
def offer (registry : Registry α) (t : TypedHandler onRemoved codec) : Registry α :=
  match registry.register t.opcode t.handler with
  | .ok registry => registry
  | .error _ => registry

/-- The registry after handlers were registered one after the other. -/
def ofTyped (handlers : List (TypedHandler onRemoved codec)) : Registry α := handlers.foldl offer []

theorem lookup_offer (registry : Registry α) (t : TypedHandler onRemoved codec) (opcode : UInt32) :
    (registry.offer t).lookup opcode =
      (registry.lookup opcode).or (if t.opcode == opcode then some t.handler else none) := by
  unfold offer register
  cases hlookup : registry.lookup t.opcode with
  | some handler =>
    cases hopcode : t.opcode == opcode with
    | true => simp [← eq_of_beq hopcode, hlookup]
    | false => simp
  | none =>
    simp only [List.lookup_append, List.lookup_cons, List.lookup_nil]
    rw [BEq.comm]
    cases t.opcode == opcode with
    | true => rfl
    | false => rfl

/-- The first handler of an opcode stays. -/
theorem lookup_ofTyped (handlers : List (TypedHandler onRemoved codec)) (opcode : UInt32) :
    (ofTyped handlers).lookup opcode = (handlers.find? (·.opcode == opcode)).map TypedHandler.handler := by
  suffices hall : ∀ registry : Registry α, (handlers.foldl offer registry).lookup opcode =
      (registry.lookup opcode).or ((handlers.find? (·.opcode == opcode)).map TypedHandler.handler) by
    simpa [ofTyped] using hall []
  induction handlers with
  | nil => simp
  | cons t handlers ih =>
    intro registry
    rw [List.foldl_cons, ih, lookup_offer, List.find?_cons]
    cases t.opcode == opcode with
    | true => simp
    | false => simp

/-! ## What a message asks for -/

/-- The handler that a message is for, with the bytes behind the header. -/
def addressee? (handlers : List (TypedHandler onRemoved codec)) (message : Bytes) :
    Option (TypedHandler onRemoved codec × Bytes) :=
  match Message.decodeHeader.run message with
  | (.ok (_, opcode), body) => (handlers.find? (·.opcode == opcode)).map (·, body)
  | (.error _, _) => none

/-- What a message asks for, if its header reads, its opcode is registered and its body reads. -/
def invocation? (handlers : List (TypedHandler onRemoved codec)) (message : Bytes) :
    Option (Invocation onRemoved codec) :=
  match addressee? handlers message with
  | some (t, body) =>
    match t.decode.value body with
    | .ok body => some ⟨t, body⟩
    | .error _ => none
  | none => none

theorem invocation?_of_addressee? (h : addressee? handlers message = none) : invocation? handlers message = none := by
  rw [invocation?, h]

theorem mem_of_addressee? {t : TypedHandler onRemoved codec} {body : Bytes}
    (h : addressee? handlers message = some (t, body)) : t ∈ handlers := by
  unfold addressee? at h
  split at h
  · obtain ⟨_, hfind, heq⟩ := Option.map_eq_some_iff.1 h
    rw [← (Prod.mk.inj heq).1]
    exact List.mem_of_find?_eq_some hfind
  · cases h

theorem mem_of_invocation? {i : Invocation onRemoved codec} (h : invocation? handlers message = some i) :
    i.handler ∈ handlers := by
  unfold invocation? at h
  split at h
  · rename_i haddressee
    split at h
    · rw [← Option.some.inj h]
      exact mem_of_addressee? haddressee
    · cases h
  · cases h

theorem isSome_addressee? {i : Invocation onRemoved codec} (h : invocation? handlers message = some i) :
    (addressee? handlers message).isSome := by
  cases haddressee : addressee? handlers message with
  | none =>
    rw [invocation?_of_addressee? haddressee] at h
    cases h
  | some pair => rfl

/-- A message without a handler is reported, and not because of its session. -/
theorem dispatchMessage_of_unaddressed (h : addressee? handlers message = none) (id : SessionId) (s : Server α) :
    ∃ e, (ofTyped handlers).dispatchMessage id message s = .error e ∧ ∀ endpoint, e ≠ .sessionClosed endpoint := by
  unfold addressee? at h
  rcases hheader : Message.decodeHeader.run message with ⟨cause | ⟨count, opcode⟩, body⟩
  · refine ⟨.malformedHeader cause, ?_, fun _ => by simp⟩
    simp [dispatchMessage, hheader]
  · refine ⟨.unidentified opcode, ?_, fun _ => by simp⟩
    simp only [hheader, Option.map_eq_none_iff] at h
    simp [dispatchMessage, hheader, dispatch, lookup_ofTyped, h]

/-- A message that has a handler is handed to it, unless the session is shutting down. -/
theorem dispatchMessage_of_addressed {t : TypedHandler onRemoved codec} {body : Bytes}
    (h : addressee? handlers message = some (t, body)) (id : SessionId) (s : Server α) :
    (ofTyped handlers).dispatchMessage id message s =
      match s.session? id with
      | some x => if x.isClosed then .error (.sessionClosed x.endpoint) else t.handler id body s
      | none => .ok s := by
  unfold addressee? at h
  rcases hheader : Message.decodeHeader.run message with ⟨cause | ⟨count, opcode⟩, rest⟩
  · simp [hheader] at h
  · simp only [hheader, Option.map_eq_some_iff, Prod.mk.injEq] at h
    obtain ⟨_, hfind, rfl, rfl⟩ := h
    cases hid : s.session? id with
    | none => simp only [dispatchMessage, hheader, dispatch, lookup_ofTyped, hfind, Option.map_some, hid]
    | some x => simp only [dispatchMessage, hheader, dispatch, lookup_ofTyped, hfind, Option.map_some, hid]

theorem dispatchMessage_of_open {t : TypedHandler onRemoved codec} {body : Bytes}
    (h : addressee? handlers message = some (t, body)) (hid : s.session? id = some x) (hopen : x.isClosed = false) :
    (ofTyped handlers).dispatchMessage id message s = t.handler id body s := by
  simp only [dispatchMessage_of_addressed h, hid, hopen, Bool.false_eq_true, if_false]

/-- Of the messages that have a handler those are taken whose body reads. -/
theorem handler_of_invocation? {t : TypedHandler onRemoved codec} {body : Bytes}
    (h : addressee? handlers message = some (t, body)) (id : SessionId) (s : Server α) :
    (∃ b, invocation? handlers message = some ⟨t, b⟩ ∧ t.handler id body s = .ok (t.run id b s)) ∨
      invocation? handlers message = none ∧ ∃ cause, t.handler id body s = .error (.malformedBody t.opcode cause) := by
  unfold invocation? TypedHandler.handler
  simp only [h]
  cases t.decode.value body with
  | ok b => exact Or.inl ⟨b, rfl, rfl⟩
  | error cause => exact Or.inr ⟨rfl, cause, rfl⟩

/-! ## The loop -/

theorem dispatchAll_of_error {e : DispatchError} (h : (ofTyped handlers).dispatchMessage id message s = .error e)
    (hother : ∀ endpoint, e ≠ .sessionClosed endpoint) (messages : List Bytes) :
    (ofTyped handlers).dispatchAll id (message :: messages) s = (ofTyped handlers).dispatchAll id messages s := by
  rw [dispatchAll, h]
  cases e with
  | sessionClosed endpoint => exact absurd rfl (hother endpoint)
  | _ => rfl

theorem dispatchAll_of_unaddressed (h : addressee? handlers message = none) (id : SessionId) (messages : List Bytes)
    (s : Server α) :
    (ofTyped handlers).dispatchAll id (message :: messages) s = (ofTyped handlers).dispatchAll id messages s := by
  obtain ⟨e, herror, hother⟩ := dispatchMessage_of_unaddressed h id s
  exact dispatchAll_of_error herror hother messages

/-- A session that is shutting down takes no message. -/
theorem dispatchAll_of_closed (hid : s.session? id = some x) (hclosed : x.isClosed = true) (messages : List Bytes) :
    (ofTyped handlers).dispatchAll id messages s = s := by
  induction messages with
  | nil => rfl
  | cons message messages ih =>
    cases haddressee : addressee? handlers message with
    | none => exact (dispatchAll_of_unaddressed haddressee id messages s).trans ih
    | some pair => simp only [dispatchAll, dispatchMessage_of_addressed haddressee, hid, hclosed, if_true]

/-- A message that asks for nothing is as good as none. -/
theorem dispatchAll_of_no_invocation (hid : s.session? id = some x) (h : invocation? handlers message = none)
    (messages : List Bytes) :
    (ofTyped handlers).dispatchAll id (message :: messages) s = (ofTyped handlers).dispatchAll id messages s := by
  cases hclosed : x.isClosed with
  | true => rw [dispatchAll_of_closed hid hclosed, dispatchAll_of_closed hid hclosed]
  | false =>
    cases haddressee : addressee? handlers message with
    | none => exact dispatchAll_of_unaddressed haddressee id messages s
    | some pair =>
      have hdispatch := dispatchMessage_of_open haddressee hid hclosed
      rcases handler_of_invocation? haddressee id s with ⟨b, hsome, -⟩ | ⟨-, cause, herror⟩
      · rw [h] at hsome
        cases hsome
      · exact dispatchAll_of_error (hdispatch.trans herror) (fun _ => by simp) messages

/-- A message that asks for a handler gets it from a session that is not shutting down. -/
theorem dispatchAll_of_invocation {i : Invocation onRemoved codec} (hid : s.session? id = some x)
    (hopen : x.isClosed = false) (h : invocation? handlers message = some i) (messages : List Bytes) :
    (ofTyped handlers).dispatchAll id (message :: messages) s =
      (ofTyped handlers).dispatchAll id messages (i.handler.run id i.body s) := by
  cases haddressee : addressee? handlers message with
  | none =>
    rw [invocation?_of_addressee? haddressee] at h
    cases h
  | some pair =>
    have hdispatch := dispatchMessage_of_open haddressee hid hopen
    rcases handler_of_invocation? haddressee id s with ⟨b, hsome, hok⟩ | ⟨hnone, -⟩
    · obtain rfl := Option.some.inj (h.symm.trans hsome)
      rw [dispatchAll, hdispatch, hok]
    · rw [h] at hnone
      cases hnone

end Registry

namespace Server

open Registry

variable {handlers : List (TypedHandler onRemoved codec)} {id : SessionId} {message : Bytes} {messages : List Bytes}
  {s : Server α} {x : Session} {endpoint : Endpoint}

/-- The server after an invocation. -/
def invoke (id : SessionId) (s : Server α) (i : Invocation onRemoved codec) : Server α := i.handler.run id i.body s

/-- The server after invocations, one after the other. -/
def invokeAll (id : SessionId) (s : Server α) (list : List (Invocation onRemoved codec)) : Server α :=
  list.foldl (invoke id) s

/-- Whether a session is shutting down. -/
def isShut (s : Server α) (id : SessionId) : Bool := (s.session? id).any Session.isClosed

theorem isShut_eq (hid : s.session? id = some x) : s.isShut id = x.isClosed := by rw [isShut, hid, Option.any_some]

/-- What the first messages of a list ask for. -/
def asked (handlers : List (TypedHandler onRemoved codec)) (messages : List Bytes) (k : Nat) :
    List (Invocation onRemoved codec) :=
  (messages.take k).filterMap (invocation? handlers)

theorem invokeAll_asked_succ (handlers : List (TypedHandler onRemoved codec)) (id : SessionId) (message : Bytes)
    (messages : List Bytes) (k : Nat) (s : Server α) :
    s.invokeAll id (asked handlers (message :: messages) (k + 1)) =
      (s.invokeAll id (invocation? handlers message).toList).invokeAll id (asked handlers messages k) := by
  rw [asked, List.take_succ_cons, List.filterMap_cons]
  cases invocation? handlers message with
  | none => rfl
  | some i => rfl

/-- The dispatch of messages stops at a place: a message before it that has a handler finds the session open, and the
message there, if there is one, has a handler and finds the session shutting down. -/
structure StopsAt (handlers : List (TypedHandler onRemoved codec)) (id : SessionId) (s : Server α)
    (messages : List Bytes) (stop : Nat) : Prop where
  le : stop ≤ messages.length
  before : ∀ k m, k < stop → messages[k]? = some m → (addressee? handlers m).isSome →
    (s.invokeAll id (asked handlers messages k)).isShut id = false
  here : ∀ m, messages[stop]? = some m → (addressee? handlers m).isSome ∧
    (s.invokeAll id (asked handlers messages stop)).isShut id = true

/-- A message in front that does not end the dispatch: what it asks for is done first. -/
theorem StopsAt.cons {stop : Nat} (hopen : (addressee? handlers message).isSome → s.isShut id = false)
    (h : StopsAt handlers id (s.invokeAll id (invocation? handlers message).toList) messages stop) :
    StopsAt handlers id s (message :: messages) (stop + 1) := by
  refine ⟨Nat.succ_le_succ h.le, fun k m hk hm haddressed => ?_, fun m hm => ?_⟩
  · cases k with
    | zero =>
      obtain rfl := Option.some.inj hm
      exact hopen haddressed
    | succ k =>
      rw [invokeAll_asked_succ]
      exact h.before k m (Nat.lt_of_succ_lt_succ hk) hm haddressed
  · rw [invokeAll_asked_succ]
    exact h.here m hm

/-- A message that does not end the dispatch makes the server do what it asks for. -/
theorem dispatchAll_cons (hid : s.session? id = some x)
    (hopen : (addressee? handlers message).isSome → x.isClosed = false) (messages : List Bytes) :
    (ofTyped handlers).dispatchAll id (message :: messages) s =
      (ofTyped handlers).dispatchAll id messages (s.invokeAll id (invocation? handlers message).toList) := by
  cases hinvocation : invocation? handlers message with
  | none => exact dispatchAll_of_no_invocation hid hinvocation messages
  | some i => exact dispatchAll_of_invocation hid (hopen (isSome_addressee? hinvocation)) hinvocation messages

/-- What a message asks for is done by operations, which leave the session in the table. -/
theorem IsAt.invokeAll (hat : IsAt s id endpoint) (hid : s.session? id = some x)
    (hopen : (addressee? handlers message).isSome → x.isClosed = false) :
    IsAt (s.invokeAll id (invocation? handlers message).toList) id endpoint := by
  cases hinvocation : invocation? handlers message with
  | none => exact hat
  | some i =>
    have hperformed : s.invokeAll id (some i).toList = s.operateAll onRemoved codec (i.handler.ops id i.body s) :=
      i.handler.performed hid (hopen (isSome_addressee? hinvocation))
    rw [hperformed]
    exact operateAll_invariant (P := (IsAt · id endpoint)) hat (fun s op hs => hs.operate op) _

/-- The dispatch does what the messages ask for, up to the place where it stops. -/
theorem exists_stopsAt (hat : IsAt s id endpoint) (messages : List Bytes) :
    ∃ stop, StopsAt handlers id s messages stop ∧
      (ofTyped handlers).dispatchAll id messages s = s.invokeAll id (asked handlers messages stop) := by
  induction messages generalizing s with
  | nil => exact ⟨0, ⟨Nat.le_refl 0, fun k _ hk => absurd hk (Nat.not_lt_zero k), by simp⟩, rfl⟩
  | cons message messages ih =>
    obtain ⟨x, hid, hx⟩ := hat
    by_cases hstop : (addressee? handlers message).isSome ∧ x.isClosed = true
    · refine ⟨0, ⟨Nat.zero_le _, fun k _ hk => absurd hk (Nat.not_lt_zero k), fun m hm => ?_⟩,
        dispatchAll_of_closed hid hstop.2 _⟩
      rw [← Option.some.inj hm]
      exact ⟨hstop.1, (isShut_eq hid).trans hstop.2⟩
    · have hopen : (addressee? handlers message).isSome → x.isClosed = false :=
        fun haddressed => Bool.eq_false_iff.2 fun hclosed => hstop ⟨haddressed, hclosed⟩
      have hat : IsAt s id endpoint := ⟨x, hid, hx⟩
      obtain ⟨stop, hstops, hdispatch⟩ := ih (hat.invokeAll hid hopen)
      refine ⟨stop + 1, hstops.cons fun haddressed => (isShut_eq hid).trans (hopen haddressed), ?_⟩
      rw [dispatchAll_cons hid hopen, hdispatch, invokeAll_asked_succ]

/-- A message that asks for nothing can be left out. -/
theorem dispatchAll_append (hat : IsAt s id endpoint) (h : invocation? handlers message = none)
    (before after : List Bytes) :
    (ofTyped handlers).dispatchAll id (before ++ message :: after) s =
      (ofTyped handlers).dispatchAll id (before ++ after) s := by
  induction before generalizing s with
  | nil =>
    obtain ⟨x, hid, -⟩ := hat
    exact dispatchAll_of_no_invocation hid h after
  | cons first before ih =>
    obtain ⟨x, hid, hx⟩ := hat
    cases hclosed : x.isClosed with
    | true => rw [dispatchAll_of_closed hid hclosed, dispatchAll_of_closed hid hclosed]
    | false =>
      have hopen : (addressee? handlers first).isSome → x.isClosed = false := fun _ => hclosed
      have hat : IsAt s id endpoint := ⟨x, hid, hx⟩
      rw [List.cons_append, List.cons_append, dispatchAll_cons hid hopen, dispatchAll_cons hid hopen,
        ih (hat.invokeAll hid hopen)]

/-! ## A server with typed handlers -/

/-- What typed handlers add to a server. -/
def typedApplication (handlers : List (TypedHandler onRemoved codec)) : Application α :=
  { handlers := ofTyped handlers, onRemoved }

/-- The operations of typed handlers. -/
def typedScript (handlers : List (TypedHandler onRemoved codec)) : Script (typedApplication handlers) codec where
  ops := fun id message s =>
    match s.session? id, invocation? handlers message with
    | some _, some i => i.handler.ops id i.body s
    | _, _ => []
  performed := by
    intro id message s s' hdispatch
    change (ofTyped handlers).dispatchMessage id message s = .ok s' at hdispatch
    cases haddressee : addressee? handlers message with
    | none =>
      obtain ⟨e, herror, -⟩ := dispatchMessage_of_unaddressed haddressee id s
      rw [herror] at hdispatch
      cases hdispatch
    | some pair =>
      rw [dispatchMessage_of_addressed haddressee] at hdispatch
      cases hid : s.session? id with
      | none =>
        rw [hid] at hdispatch
        exact (Except.ok.inj hdispatch).symm
      | some x =>
        simp only [hid] at hdispatch
        split at hdispatch
        · cases hdispatch
        · rename_i hopen
          rcases handler_of_invocation? haddressee id s with ⟨b, hsome, hok⟩ | ⟨-, cause, herror⟩
          · simp only [hsome]
            rw [← Except.ok.inj (hok.symm.trans hdispatch)]
            exact pair.1.performed hid (Bool.eq_false_iff.2 hopen)
          · rw [herror] at hdispatch
            cases hdispatch

/-- What every operation preserves holds behind the acts of a server with typed handlers. -/
theorem perform_typed {P : Server α → Prop} (handlers : List (TypedHandler onRemoved codec)) (hs : P s)
    (hop : ∀ s op, P s → P (s.operate onRemoved codec op)) (acts : List Act) :
    P (s.perform (typedApplication handlers) codec acts) :=
  perform_invariant hs (fun _ a hs => act_invariant (typedScript handlers) hs hop a) acts

/-! ## Records -/

section

variable {β : Type} {record : α → List β} {note : Invocation onRemoved codec → β}

/-- Handlers that put themselves on record are on it as often as they were invoked, and in that order. -/
theorem record_invokeAll {list : List (Invocation onRemoved codec)}
    (hnote : ∀ i id s, i.handler ∈ handlers → record (Server.invoke id s i).app = record s.app ++ [note i])
    (hlist : ∀ i ∈ list, i.handler ∈ handlers) (id : SessionId) (s : Server α) :
    record (s.invokeAll id list).app = record s.app ++ list.map note := by
  induction list generalizing s with
  | nil => simp [invokeAll]
  | cons i list ih =>
    calc
      record (s.invokeAll id (i :: list)).app = record (s.invoke id i).app ++ list.map note :=
        ih (fun j hj => hlist j (List.mem_cons_of_mem i hj)) _
      _ = record s.app ++ [note i] ++ list.map note := by rw [hnote i id s (hlist i List.mem_cons_self)]
      _ = record s.app ++ (i :: list).map note := by simp

theorem record_remove (hlistener : ∀ y a, record (onRemoved y a) = record a) (id : SessionId) (s : Server α) :
    record (s.remove onRemoved id).1.app = record s.app := by
  rcases remove_cases onRemoved s id with ⟨heq, -⟩ | ⟨x, sent, -, -, -, heq⟩
  · rw [heq]
  · rw [heq]
    exact hlistener _ _

theorem record_supersede (hlistener : ∀ y a, record (onRemoved y a) = record a) (endpoint : Endpoint) (bytes : Bytes)
    (s : Server α) : record (s.supersede onRemoved endpoint bytes).app = record s.app := by
  unfold supersede
  split
  · split
    · split
      · exact record_remove hlistener _ s
      · rfl
    · rfl
  · rfl

end

theorem app_openSession {now : Nat} {opened : Server α} (h : s.openSession endpoint now = .ok (id, opened)) :
    opened.app = s.app := by
  rcases of_openSession h with ⟨-, rfl⟩ | ⟨-, -, rfl⟩
  · rfl
  · rfl

theorem mem_of_mem_asked {i : Invocation onRemoved codec} {k : Nat} (h : i ∈ asked handlers messages k) :
    i.handler ∈ handlers := by
  obtain ⟨m, -, hm⟩ := List.mem_filterMap.1 h
  exact mem_of_invocation? hm

/-- A session that takes a datagram with these messages has them dispatched, and is removed if it is shutting down
then. -/
theorem receive_of_ok {app : Application α} {now : Nat} {bytes : Bytes} (hid : s.session? id = some x)
    (hresult : (x.handleDrawing codec now s.seeds bytes).1.result = .ok messages) :
    s.receive app codec now id bytes =
      let last := app.handlers.dispatchAll id messages (s.accept codec id now bytes)
      if last.isShut id then (last.remove app.onRemoved id).1 else last := by
  simp only [receive, accept, hid, hresult]
  rfl

/-- Whatever handlers are registered and whatever happened before, a session takes a datagram that brings messages. The
handlers that the messages ask for are invoked, in order and once each, up to the first message that has a handler and
finds the session shutting down; a message that asks for nothing could as well be left out. Behind the datagram the
session is in the table exactly if it is not shutting down. -/
theorem dispatched_in_order (handlers : List (TypedHandler onRemoved codec)) (config : ProtocolConfig) (limit : Nat)
    (seeds : List UInt32) (state : α) (status : Status) (ops : List (Op α)) (now : Nat) (endpoint : Endpoint)
    (bytes : Bytes) (id : SessionId) (x : Session) (opened : Server α) (messages : List Bytes) :
    let app := typedApplication handlers
    let s := ({ create config limit seeds state with status } : Server α).operateAll onRemoved codec ops
    let s' := s.handleDatagram app codec now endpoint bytes
    (s.supersede onRemoved endpoint bytes).openSession endpoint now = .ok (id, opened) →
    opened.session? id = some x → (x.handleDrawing codec now opened.seeds bytes).1.result = .ok messages →
    let taken := opened.accept codec id now bytes
    (∃ stop, StopsAt handlers id taken messages stop ∧
      let last := taken.invokeAll id (asked handlers messages stop)
      s' = (if last.isShut id then (last.remove onRemoved id).1 else last) ∧
      ∀ (β : Type) (record : α → List β) (note : Invocation onRemoved codec → β),
        (∀ i id s, i.handler ∈ handlers → record (Server.invoke id s i).app = record s.app ++ [note i]) →
        (∀ y a, record (onRemoved y a) = record a) →
        record s'.app = record s.app ++ (asked handlers messages stop).map note) ∧
    (∀ before m after, messages = before ++ m :: after → invocation? handlers m = none →
      app.handlers.dispatchAll id messages taken = app.handlers.dispatchAll id (before ++ after) taken) ∧
    ∃ y, s'.session? id = some y ∧ (id ∉ s'.table.ids ↔ y.isClosed = true) := by
  intro app s s' hopen hid hresult taken
  have hreceive : s' = opened.receive app codec now id bytes := by
    change s.handleDatagram app codec now endpoint bytes = _
    simp only [handleDatagram]
    have hsame : (s.supersede app.onRemoved endpoint bytes).openSession endpoint now = .ok (id, opened) := hopen
    rw [hsame]
  rw [receive_of_ok hid hresult] at hreceive
  have hopened : IsAt opened id x.endpoint := ⟨x, hid, rfl⟩
  have hat : IsAt taken id x.endpoint := by
    change IsAt (opened.operate onRemoved codec (.accept id now bytes)) id x.endpoint
    exact hopened.operate _
  obtain ⟨stop, hstops, hdispatch⟩ := exists_stopsAt hat messages
  have hlast : IsAt (app.handlers.dispatchAll id messages taken) id x.endpoint := by
    have hperform : taken.perform app codec (dispatches app id messages taken) =
        app.handlers.dispatchAll id messages taken := perform_dispatches id messages taken
    rw [← hperform]
    exact perform_typed (P := (IsAt · id x.endpoint)) handlers hat (fun s op hs => hs.operate op) _
  have horderly : Orderly s := by
    refine operateAll_invariant ?_ (fun s op hs => hs.operate op) ops
    exact (orderly_create config limit seeds state).rests ⟨rfl, rfl, List.Perm.refl _⟩
  have horderly' : Orderly s' := by
    change Orderly (s.step app codec (.datagram now endpoint bytes))
    rw [step_eq_perform]
    exact perform_typed handlers horderly (fun s op hs => hs.operate op) _
  refine ⟨⟨stop, hstops, hdispatch ▸ hreceive, fun β record note hnote hlistener => ?_⟩,
    fun before m after hsplit hnone => ?_, ?_⟩
  · have htaken : record taken.app = record s.app := by
      rw [(works_accept codec id now bytes opened).app, app_openSession hopen, record_supersede hlistener]
    have hinvoked : record (taken.invokeAll id (asked handlers messages stop)).app =
        record taken.app ++ (asked handlers messages stop).map note :=
      record_invokeAll hnote (fun i hi => mem_of_mem_asked hi) id taken
    rw [← htaken, ← hinvoked, ← hdispatch, hreceive]
    dsimp only
    split
    · exact record_remove hlistener id _
    · rfl
  · rw [hsplit]
    exact dispatchAll_append hat hnone before after
  · cases hshut : (app.handlers.dispatchAll id messages taken).isShut id with
    | true =>
      have hremoved : s' = ((app.handlers.dispatchAll id messages taken).remove onRemoved id).1 := by
        rw [hreceive]
        exact if_pos hshut
      have hgone : IsAt ((app.handlers.dispatchAll id messages taken).operate onRemoved codec (.remove id)) id
          x.endpoint := hlast.operate _
      obtain ⟨y, hy, -⟩ := hgone
      have hself : s'.session? id = some y := by
        rw [hremoved]
        exact hy
      have hremoving : y.removing = true := removing_remove hy
      have hclosed : y.isClosed = true :=
        (horderly'.isOver_eq hself).symm.trans (horderly'.removed id y hself hremoving)
      exact ⟨y, hself, iff_of_true (horderly'.not_mem_ids hself hremoving) hclosed⟩
    | false =>
      have hstays : s' = app.handlers.dispatchAll id messages taken := by
        rw [hreceive]
        exact if_neg (Bool.eq_false_iff.1 hshut)
      obtain ⟨y, hy, -⟩ := hlast
      have hself : s'.session? id = some y := by
        rw [hstays]
        exact hy
      have hopened : y.isClosed = false := (isShut_eq hy).symm.trans hshut
      refine ⟨y, hself, iff_of_false (not_not_intro ?_) (by simp [hopened])⟩
      exact (horderly'.mem_ids_iff hself).2 (horderly'.not_removing hself hopened)

/-- Handlers that note their opcodes; the second one shuts the session down. Between their messages come one with a
short header, one of an unknown opcode and one without a body, and behind them a message that comes too late. -/
theorem dispatched_in_order_closed :
    let codec : Codec := ⟨fun _ => none, fun _ _ => none⟩
    let onRemoved : Listener (List UInt32) := fun _ noted => noted
    let noting (opcode : UInt32) (more : SessionId → List (Op (List UInt32))) : TypedHandler onRemoved codec :=
      .ofOps onRemoved codec opcode (Decoder.fixed UInt8 .little) fun id _ _ => .tell (· ++ [opcode]) :: more id
    let handlers := [noting 1 fun _ => [], noting 2 fun id => [.shut id .application]]
    let message (opcode : UInt32) (body : Bytes) : Bytes := [0, 0] ++ Fixed.encode .little opcode ++ body
    let messages := [message 1 [5], [1, 0, 2], message 9 [], message 1 [], message 2 [7], message 1 [6]]
    let bytes := Packet.header .data 0 ++ (Bundle.pack messages).toOption.getD []
    let config : ProtocolConfig := { crcLength := 0, compression := false }
    let endpoint : Endpoint := ⟨.v4 10 0 0 1, 5000⟩
    let s := ({ create config 4 [] [] with status := .running } : Server (List UInt32)).operateAll onRemoved codec
      [.enter endpoint 0]
    let s' := s.handleDatagram (typedApplication handlers) codec 3 endpoint bytes
    s'.app = [1, 2] ∧ 0 ∉ s'.table.ids ∧ ∃ stop ≤ 6,
      [1, 2] = (asked handlers messages stop).map fun i => i.handler.opcode := by
  intro codec onRemoved noting handlers message messages bytes config endpoint s s'
  have happ : s'.app = [1, 2] := by decide +kernel
  have hshut : (s'.session? 0).map Session.isClosed = some true := by decide +kernel
  obtain ⟨⟨stop, hstops, -, hrecord⟩, -, y, hy, hlisted⟩ := dispatched_in_order handlers config 4 [] [] .running
    [.enter endpoint 0] 3 endpoint bytes 0 (Session.create endpoint config 0) s messages rfl rfl (by decide +kernel)
  have hclosed : y.isClosed = true := by
    change s'.session? 0 = some y at hy
    rw [hy] at hshut
    exact Option.some.inj hshut
  refine ⟨happ, hlisted.2 hclosed, stop, hstops.le, ?_⟩
  rw [← happ]
  refine hrecord UInt32 id (fun i => i.handler.opcode) ?_ fun _ _ => rfl
  rintro ⟨t, body⟩ id s ht
  rcases List.mem_cons.1 ht with rfl | ht
  · rfl
  · obtain rfl := List.mem_singleton.1 ht
    exact (works_shut id .application { s with app := s.app ++ [2] }).app

end Server

/-! ## The handlers of the service -/

namespace Service

/-- The handlers of the service, with their operations. -/
def typedHandlers (galaxyStatus : UInt8) (codec : Codec) : List (TypedHandler Service.onRemoved codec) :=
  [.ofKind .clientId (login galaxyStatus) (loginOps galaxyStatus) fun hid _ =>
      login_eq_operateAll codec _ hid,
    .ofKind .sceneReady (fun id _ => sceneReady id) (fun id _ => sceneReadyOps id) fun _ _ =>
      sceneReady_eq_operateAll codec _ _,
    .ofKind .heartBeat (fun _ _ s => s) (fun _ _ _ => []) fun _ _ => rfl]

/-- What is said of typed handlers holds of the service. -/
theorem application_eq_typed (galaxyStatus : UInt8) (codec : Codec) :
    application galaxyStatus = typedApplication (typedHandlers galaxyStatus codec) := by
  have hregistered : Registry.ofTyped (typedHandlers galaxyStatus codec) =
      (typedHandlers galaxyStatus codec).map fun t => (t.opcode, t.handler) := rfl
  rw [typedApplication, hregistered]
  simp only [typedHandlers, List.map_cons, List.map_nil, TypedHandler.handler_ofKind]
  rfl

end Service

end GameGateway
