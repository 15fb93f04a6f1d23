import SealedEnvelope.Proofs.Call.Playback

/-!
# `SealedEnvelope.Proofs.Call.LoginState`: what a client remembers and what it sends

A client remembers at most one login, and shows its session key in every request. A transport
that notes the requests (`Transport.noting`) makes them visible and changes nothing else, so that
it can be said of each operation which requests it has sent, whatever the peer answers and
wherever the operation fails.

Main statements:

* `Exchange.Notes.bind`: noting goes through the steps of a computation;
* `Client.notes_outcome`: an operation sends requests with the headers of the client only;
* `Client.login_state`: over whole runs, what a client remembers at each moment and what it sends;
* `Remembers.respects`: what that says of one moment of a run.
-/

set_option autoImplicit false

namespace SealedEnvelope

/-! ## Requests that are noted -/

variable {σ α β : Type}

/-- The same transport, which notes the requests that it gets. -/
def Transport.noting (transport : Transport σ) : Transport (σ × List HttpRequest) :=
  fun request state =>
    let outcome := transport request (state.1, state.2.1)
    (outcome.1, (outcome.2.1, (outcome.2.2, state.2.2 ++ [request])))

namespace Exchange

variable {p : HttpRequest → Prop}

/-- Whether a computation whose requests are noted does what another one does, and has no requests
but such with some property. -/
def Notes (p : HttpRequest → Prop) (x : Exchange σ α)
    (noted : Exchange (σ × List HttpRequest) α) : Prop :=
  ∀ (world : World) (peer : σ) (sent : List HttpRequest), ∃ more : List HttpRequest,
    (∀ request ∈ more, p request)
      ∧ noted (world, (peer, sent))
        = ((x (world, peer)).1, ((x (world, peer)).2.1, ((x (world, peer)).2.2, sent ++ more)))

/-- A computation that does not talk to the peer notes nothing. -/
theorem Notes.of_silent {x : Exchange σ α} {noted : Exchange (σ × List HttpRequest) α}
    (h : ∀ world peer sent, noted (world, (peer, sent))
      = ((x (world, peer)).1, ((x (world, peer)).2.1, ((x (world, peer)).2.2, sent)))) :
    Notes p x noted :=
  fun world peer sent => ⟨[], nofun, by rw [h, List.append_nil]⟩

theorem Notes.pure (a : α) : Notes p (Pure.pure a : Exchange σ α) (Pure.pure a) :=
  .of_silent fun _ _ _ => rfl

theorem Notes.now : Notes p (Exchange.now (σ := σ)) Exchange.now := .of_silent fun _ _ _ => rfl

theorem Notes.draw (drawing : Drawing CallError α) :
    Notes p (Exchange.draw (σ := σ) drawing) (Exchange.draw drawing) :=
  .of_silent fun _ _ _ => rfl

theorem Notes.ofResult (result : Except CallError α) :
    Notes p (Exchange.ofResult (σ := σ) result) (Exchange.ofResult result) :=
  .of_silent fun _ _ _ => rfl

/-- The request that a transport gets is noted. -/
theorem Notes.transport (transport : Transport σ) {request : HttpRequest} (h : p request) :
    Notes p (transport request) (transport.noting request) :=
  fun _ _ _ => ⟨[request], List.forall_mem_singleton.2 h, rfl⟩

/-- The second step, from whatever the first one ends with, notes its requests behind those of the
first. -/
theorem Notes.bind_of_result {x : Exchange σ α} {noted : Exchange (σ × List HttpRequest) α}
    {f : α → Exchange σ β} {notedf : α → Exchange (σ × List HttpRequest) β} (hx : Notes p x noted)
    (hf : ∀ a before, (x before).1 = .ok a → Notes p (f a) (notedf a)) :
    Notes p (x >>= f) (noted >>= notedf) := by
  intro world peer sent
  obtain ⟨more, hmore, hnoted⟩ := hx world peer sent
  cases hresult : x (world, peer) with
  | mk result state =>
    obtain ⟨later, peer'⟩ := state
    rw [hresult] at hnoted
    cases result with
    | error err =>
      -- Nothing is sent after a failure, and what was sent before it stays noted.
      refine ⟨more, hmore, ?_⟩
      rw [bind_of_eq_error hresult, bind_of_eq_error hnoted]
    | ok a =>
      obtain ⟨others, hothers, hnotedf⟩ :=
        hf a (world, peer) (congrArg Prod.fst hresult) later peer' (sent ++ more)
      refine ⟨more ++ others, List.forall_mem_append.2 ⟨hmore, hothers⟩, ?_⟩
      rw [bind_of_eq_ok hresult, bind_of_eq_ok hnoted, hnotedf, List.append_assoc]

theorem Notes.bind {x : Exchange σ α} {noted : Exchange (σ × List HttpRequest) α}
    {f : α → Exchange σ β} {notedf : α → Exchange (σ × List HttpRequest) β} (hx : Notes p x noted)
    (hf : ∀ a, Notes p (f a) (notedf a)) : Notes p (x >>= f) (noted >>= notedf) :=
  hx.bind_of_result fun a _ _ => hf a

/-- A result that is renamed in the end is the one that there was. -/
theorem fst_bind_pure (x : Exchange σ α) (f : α → β) (before : World × σ) :
    ((x >>= fun a => Pure.pure (f a)) before).1 = (x before).1.map f :=
  congrArg Prod.fst (bind_pure_apply x f before)

/-- A computation that ends with a result has had one at its first step. -/
theorem exists_of_bind_eq_ok {x : Exchange σ α} {f : α → Exchange σ β} {before : World × σ} {b : β}
    (h : ((x >>= f) before).1 = .ok b) :
    ∃ a after, x before = (.ok a, after) ∧ (f a after).1 = .ok b := by
  cases hresult : x before with
  | mk result after =>
    cases result with
    | error err =>
      rw [bind_of_eq_error hresult] at h
      cases h
    | ok a =>
      rw [bind_of_eq_ok hresult] at h
      exact ⟨a, after, rfl, h⟩

end Exchange

/-! ## What an operation sends -/

namespace Client

open Exchange (Notes)

variable {s : Suite} {transport : Transport σ} {client : Client}

/-- A handshake sends requests with the headers of the client. -/
theorem notes_handshake (s : Suite) (transport : Transport σ) (client : Client) :
    Notes (·.headers = client.headers) (client.handshake s transport)
      (client.handshake s transport.noting) := by
  refine .bind (.draw _) fun bundle => .bind (.transport transport rfl) fun response => ?_
  exact .ofResult _

/-- A sealed request has the headers of the client. -/
theorem headers_of_sealedRequest_eq_ok {now : Instant} {session : Session} {path : String}
    {payload : List Bytes} {e : Entropy} {request : HttpRequest}
    (h : (client.sealedRequest s now session path payload e).1 = .ok request) :
    request.headers = client.headers := by
  obtain ⟨envelope, e', -, hrequest⟩ := Drawing.exists_of_bind_eq_ok h
  rw [← Except.ok.inj hrequest]
  rfl

/-- What an operation asks of the peer, and what comes of that. -/
def outcome (s : Suite) (transport : Transport σ) (client : Client) :
    Operation → Exchange σ Outcome
  | .handshake => return .handshake (← client.handshake s transport)
  | .call path headers body => return .call (← client.call s transport path headers body)
  | .login user password => return .login (← client.requestLogin s transport user password)
  | .post path body insists => return .post (← client.post transport path body insists)
  | .forget => return .forget

/-- So does a payload that is sent sealed, -/
theorem notes_sendSealed (s : Suite) (transport : Transport σ) (client : Client) (path : String)
    (payload : List Bytes) :
    Notes (·.headers = client.headers) (client.sendSealed s transport path payload)
      (client.sendSealed s transport.noting path payload) := by
  refine .bind (notes_handshake s transport client) fun outcome => ?_
  cases outcome with
  | rejected response => exact .pure _
  | established session =>
    refine .bind .now fun now => .bind_of_result (.draw _) fun request before hrequest => ?_
    have hheaders := headers_of_sealedRequest_eq_ok hrequest
    exact .bind (.transport transport hheaders) fun response => .pure _

/-- and any operation. -/
theorem notes_outcome (s : Suite) (transport : Transport σ) (client : Client)
    (operation : Operation) :
    Notes (·.headers = client.headers) (client.outcome s transport operation)
      (client.outcome s transport.noting operation) := by
  cases operation with
  | handshake => exact .bind (notes_handshake s transport client) fun _ => .pure _
  | call path headers body =>
    refine .bind (.bind (notes_sendSealed s transport client path _) fun outcome => ?_) fun _ => .pure _
    cases outcome with
    | rejected response => exact .pure _
    | answered session response => exact .bind .now fun _ => .ofResult _
  | login user password =>
    refine .bind (.bind (notes_sendSealed s transport client _ _) fun outcome => ?_) fun _ => .pure _
    cases outcome with
    | rejected response => exact .pure _
    | answered session response => exact .bind .now fun _ => .ofResult _
  | post path body insists =>
    refine .bind (.bind (.transport transport rfl) fun response => ?_) fun _ => .pure _
    split <;> exact .pure _
  | forget => exact .pure _

/-! ## How a login is granted -/

/-- A login that is read has a session key. -/
theorem sessionKey_ne_of_read {element : Bytes} {login : Login} (h : Login.read element = .ok login) :
    login.sessionKey ≠ "" := by
  obtain ⟨values, -, hvalues⟩ := exists_of_bind_eq_ok h
  split at hvalues
  · next sessionKey user =>
    split at hvalues
    · cases hvalues
    · next hne =>
      cases hvalues
      exact fun hempty => hne (String.isEmpty_iff.2 hempty)
  · cases hvalues

/-- A response grants a login with what is read of the first element of its envelope. -/
theorem exists_of_readLoginReply {now : Instant} {session : Session} {response : HttpResponse}
    {login : Login} (h : readLoginReply s now session response = .ok (.loggedIn login)) :
    ∃ body envelope first rest, response.isOk = true ∧ response.json = .ok body
      ∧ envelope? body = some envelope ∧ session.unpack s now envelope = .ok (first :: rest)
      ∧ Login.read first = .ok login := by
  rw [readLoginReply] at h
  split at h
  · cases h
  · next hok =>
    obtain ⟨body, hbody, h⟩ := exists_of_bind_eq_ok h
    split at h
    · cases h
    · next envelope henvelope =>
      obtain ⟨payload, hunpack, h⟩ := exists_of_bind_eq_ok h
      split at h
      · cases h
      · next first rest =>
        obtain ⟨granted, hread, h⟩ := exists_of_bind_eq_ok h
        cases h
        exact ⟨body, envelope, first, rest, Decidable.not_not.1 hok,
          CallError.onJson_eq_ok_iff.1 hbody, henvelope, CallError.onEnvelope_eq_ok_iff.1 hunpack, hread⟩

/-- Only a login grants one. -/
theorem exists_of_requestLogin {user password : String} {state : World × σ} {login : Login}
    (h : (client.requestLogin s transport user password state).1 = .ok (.loggedIn login)) :
    ∃ now session response, readLoginReply s now session response = .ok (.loggedIn login) := by
  obtain ⟨outcome, after, -, houtcome⟩ := Exchange.exists_of_bind_eq_ok h
  cases outcome with
  | rejected response => cases houtcome
  | answered session response =>
    obtain ⟨now, after', -, hread⟩ := Exchange.exists_of_bind_eq_ok houtcome
    exact ⟨now, session, response, hread⟩

/-- The session key of a login that is granted is not empty. -/
theorem sessionKey_ne_of_requestLogin {user password : String} {state : World × σ} {login : Login}
    (h : (client.requestLogin s transport user password state).1 = .ok (.loggedIn login)) :
    login.sessionKey ≠ "" := by
  obtain ⟨now, session, response, hreply⟩ := exists_of_requestLogin h
  obtain ⟨body, envelope, first, rest, -, -, -, -, hread⟩ := exists_of_readLoginReply hreply
  exact sessionKey_ne_of_read hread

end Client

/-! ## Runs -/

/-- An operation that has been performed: the client before and after it, the requests that it has
sent, and what has come of it. -/
structure Performed where
  operation : Client.Operation
  before : Client
  sent : List HttpRequest
  result : Except CallError Client.Outcome
  after : Client

namespace Client

/-- What a client makes of an operation, with what it finds around it, and the transport after that.
The requests are those that the same transport notes. -/
def performed (s : Suite) (transport : Transport σ) (client : Client) (operation : Operation)
    (world : World) (peer : σ) : Performed × σ :=
  let outcome := perform s transport operation client (world, peer)
  let noted := perform s transport.noting operation client (world, (peer, []))
  ({ operation := operation, before := client, sent := noted.2.2.2, result := outcome.1.1
     after := outcome.1.2 }, outcome.2.2)

/-- What becomes of a list of operations. Each of them finds a world of its own around it, and the
transport goes on from where it was. -/
def history (s : Suite) (transport : Transport σ) :
    Client → σ → List (World × Operation) → List Performed
  | _, _, [] => []
  | client, peer, (world, operation) :: rest =>
    let (performed, peer) := client.performed s transport operation world peer
    performed :: history s transport performed.after peer rest

end Client

/-- The login that should be remembered after an operation: none after forgetting it, a new one
after a login that is granted, and the same as before after anything else. -/
def loginAfter (login? : Option Login) :
    Client.Operation → Except CallError Client.Outcome → Option Login
  | .forget, _ => none
  | .login _ _, .ok (.login (.loggedIn login)) => some login
  | _, _ => login?

/-- The headers that show a login. -/
def authorization : Option Login → List (String × String)
  | none => []
  | some login => [("Authorization", "Bearer " ++ login.sessionKey)]

/-- Whether a client that remembers a login has performed an operation as it should. -/
structure Performed.Respects (login? : Option Login) (performed : Performed) : Prop where
  before_eq : performed.before.login? = login?
  after_eq : performed.after.login? = loginAfter login? performed.operation performed.result
  /-- A login that is granted has a session key. -/
  sessionKey_ne : ∀ login, performed.result = .ok (.login (.loggedIn login)) → login.sessionKey ≠ ""
  /-- Every request shows the login that is remembered when it is sent, and has no other header. -/
  entries_eq : ∀ request ∈ performed.sent, request.headers.entries = authorization login?

/-- Whether a client that remembers a login has performed some operations as it should, one after
the other. -/
inductive Remembers : Option Login → List Performed → Prop
  | nil (login? : Option Login) : Remembers login? []
  | cons {login? : Option Login} {performed : Performed} {rest : List Performed} :
    performed.Respects login? →
    Remembers (loginAfter login? performed.operation performed.result) rest →
    Remembers login? (performed :: rest)

/-- At each moment of such a run the operation is performed with the login that the operations
before have left. -/
theorem Remembers.respects {login? : Option Login} {earlier later : List Performed} {now : Performed}
    (h : Remembers login? (earlier ++ now :: later)) :
    now.Respects (earlier.foldl
      (fun login? performed => loginAfter login? performed.operation performed.result) login?) := by
  induction earlier generalizing login? with
  | nil =>
    cases h with
    | cons hrespects _ => exact hrespects
  | cons first earlier ih =>
    cases h with
    | cons _ hrest => exact ih hrest

namespace Client

variable {s : Suite} {transport : Transport σ} {client : Client}

/-- The headers of a client show the login that it remembers. -/
theorem entries_headers (client : Client) :
    client.headers.entries = authorization client.login? := by
  unfold headers
  cases client.login? <;> rfl

/-- The client after what has come of an operation. -/
def after (client : Client) : Except CallError Outcome → Client
  | .ok (.login (.loggedIn login)) => { client with login? := some login }
  | .ok .forget => client.forget
  | _ => client

/-- A login leaves the client as it was, unless it is granted. -/
theorem login_apply (s : Suite) (transport : Transport σ) (client : Client) (user password : String)
    (state : World × σ) :
    login s transport user password client state
      = (match (client.requestLogin s transport user password state).1 with
        | .ok (.loggedIn login) => (.ok (.loggedIn login), { client with login? := some login })
        | result => (result, client), (client.requestLogin s transport user password state).2) := by
  rw [login, Updating.get_bind_apply, Updating.bind_apply, Updating.lift_apply]
  cases (client.requestLogin s transport user password state).1 with
  | error err => rfl
  | ok outcome => cases outcome <;> rfl

/-- An operation is what comes of it, and the client after that. -/
theorem perform_eq (s : Suite) (transport : Transport σ) (client : Client) (operation : Operation)
    (state : World × σ) :
    perform s transport operation client state
      = (((client.outcome s transport operation state).1,
          client.after (client.outcome s transport operation state).1),
        (client.outcome s transport operation state).2) := by
  cases operation with
  | handshake =>
    rw [outcome, Exchange.bind_pure_apply, perform, Updating.get_bind_apply,
      Updating.lift_bind_pure_apply]
    cases (client.handshake s transport state).1 <;> rfl
  | call path headers body =>
    rw [outcome, Exchange.bind_pure_apply, perform, Updating.get_bind_apply,
      Updating.lift_bind_pure_apply]
    cases (client.call s transport path headers body state).1 <;> rfl
  | login user password =>
    rw [outcome, Exchange.bind_pure_apply, perform, Updating.bind_apply, login_apply]
    cases (client.requestLogin s transport user password state).1 with
    | error err => rfl
    | ok outcome => cases outcome <;> rfl
  | post path body insists =>
    rw [outcome, Exchange.bind_pure_apply, perform, Updating.get_bind_apply,
      Updating.lift_bind_pure_apply]
    cases (client.post transport path body insists state).1 <;> rfl
  | forget => rfl

/-- Noting the requests changes nothing else. -/
theorem perform_noting (s : Suite) (transport : Transport σ) (client : Client)
    (operation : Operation) (world : World) (peer : σ) :
    let performed := perform s transport operation client (world, peer)
    ∃ sent : List HttpRequest, (∀ request ∈ sent, request.headers = client.headers)
      ∧ perform s transport.noting operation client (world, (peer, []))
        = (performed.1, (performed.2.1, (performed.2.2, sent))) := by
  obtain ⟨sent, hsent, hnoted⟩ := notes_outcome s transport client operation world peer []
  refine ⟨sent, hsent, ?_⟩
  rw [perform_eq, perform_eq, hnoted, List.nil_append]

/-- What comes of an operation is what comes of it alone, under its own name. -/
theorem fst_outcome (s : Suite) (transport : Transport σ) (client : Client) (operation : Operation)
    (state : World × σ) :
    (client.outcome s transport operation state).1 = match operation with
      | .handshake => (client.handshake s transport state).1.map .handshake
      | .call path headers body => (client.call s transport path headers body state).1.map .call
      | .login user password => (client.requestLogin s transport user password state).1.map .login
      | .post path body insists => (client.post transport path body insists state).1.map .post
      | .forget => .ok .forget := by
  cases operation with
  | forget => rfl
  | _ => exact Exchange.fst_bind_pure ..

/-- A login that an operation ends with has a session key. -/
theorem sessionKey_ne_of_outcome {operation : Operation} {state : World × σ} {login : Login}
    (h : (client.outcome s transport operation state).1 = .ok (.login (.loggedIn login))) :
    login.sessionKey ≠ "" := by
  rw [fst_outcome] at h
  cases operation with
  | handshake =>
    obtain ⟨outcome, -, heq⟩ := exists_of_map_eq_ok h
    cases heq
  | call path headers body =>
    obtain ⟨response, -, heq⟩ := exists_of_map_eq_ok h
    cases heq
  | login user password =>
    obtain ⟨outcome, hresult, heq⟩ := exists_of_map_eq_ok h
    cases heq
    exact sessionKey_ne_of_requestLogin hresult
  | post path body insists =>
    obtain ⟨outcome, -, heq⟩ := exists_of_map_eq_ok h
    cases heq
  | forget => cases h

/-- What a client remembers after an operation is what it should. -/
theorem login?_after (s : Suite) (transport : Transport σ) (client : Client) (operation : Operation)
    (state : World × σ) :
    (client.after (client.outcome s transport operation state).1).login?
      = loginAfter client.login? operation (client.outcome s transport operation state).1 := by
  rw [fst_outcome]
  cases operation with
  | handshake =>
    dsimp only
    cases (client.handshake s transport state).1 <;> rfl
  | call path headers body =>
    dsimp only
    cases (client.call s transport path headers body state).1 <;> rfl
  | login user password =>
    dsimp only
    cases (client.requestLogin s transport user password state).1 with
    | error err => rfl
    | ok outcome => cases outcome <;> rfl
  | post path body insists =>
    dsimp only
    cases (client.post transport path body insists state).1 <;> rfl
  | forget => rfl

/-- An operation is performed as it should be. -/
theorem respects_performed (s : Suite) (transport : Transport σ) (client : Client)
    (operation : Operation) (world : World) (peer : σ) :
    (client.performed s transport operation world peer).1.Respects client.login? where
  before_eq := rfl
  after_eq := by
    show (perform s transport operation client (world, peer)).1.2.login?
      = loginAfter client.login? operation (perform s transport operation client (world, peer)).1.1
    rw [perform_eq]
    exact login?_after s transport client operation (world, peer)
  sessionKey_ne := by
    intro login hresult
    have houtcome : (perform s transport operation client (world, peer)).1.1
        = .ok (.login (.loggedIn login)) := hresult
    rw [perform_eq] at houtcome
    exact sessionKey_ne_of_outcome houtcome
  entries_eq := by
    obtain ⟨sent, hsent, hnoted⟩ := perform_noting s transport client operation world peer
    have hsame : (client.performed s transport operation world peer).1.sent = sent :=
      congrArg (fun outcome => outcome.2.2.2) hnoted
    intro request hrequest
    rw [hsent request (hsame ▸ hrequest), entries_headers]

/-- Over every run of operations, whatever the transport does: the login that a client remembers
changes only when it is forgotten and when a login is granted, which leaves the login that is
returned, with a session key that is not empty. A login that is rejected or fails, at whatever
stage, leaves it as it was. Every request that is sent, of a handshake too, shows the session key
that is remembered at that moment, and none if none is. -/
theorem login_state (s : Suite) (transport : Transport σ) (client : Client) (peer : σ)
    (operations : List (World × Operation)) :
    Remembers client.login? (client.history s transport peer operations) := by
  induction operations generalizing client peer with
  | nil => exact .nil _
  | cons first rest ih =>
    obtain ⟨world, operation⟩ := first
    have hrespects := respects_performed s transport client operation world peer
    exact .cons hrespects (hrespects.after_eq ▸ ih _ _)

end Client

end SealedEnvelope
