import SealedEnvelope.Proofs.Call.ExchangeLog
import SealedEnvelope.Proofs.Call.LoginState
import SealedEnvelope.Proofs.Envelope.InTime
import SealedEnvelope.Proofs.Json.Records

/-!
# `SealedEnvelope.Proofs.Call.SecuredExchange`: what a secured operation sends and returns

A call and a login send their payload sealed, each after a handshake of its own. Whatever the peer
says and wherever the transport fails, the sealed request is for the index of the answer that
completed the handshake, and what is in it can be opened by whoever gave that answer.

A call returns one of three things: a rejection of its offer, a reply without an envelope, or what
is in an envelope that its own session opens. An envelope that it does not open is an error, and
never handed on.

Nothing is held back either: the offer is made whenever there are random bytes for it, and the
sealed request follows whenever the offer has led to a session in which the payload can be sealed.

Main statements:

* `Bundle.unpack_eq_ok_iff_of_respond`: what the sealed request holds is opened by the session of
  a responder whose answer completed the handshake, exactly in time;
* `Sent.sendsSealed` and `Sent.callReturns`: what is sent and returned, whichever way it goes;
* `Client.secured_exchanges`: what calls and logins send, and what calls return.
-/

set_option autoImplicit false

namespace SealedEnvelope

variable {σ : Type}

/-! ## What is sent -/

/-- The envelope of an initiator is opened by the session of a responder whose answer completed the
handshake, exactly in time. -/
theorem Bundle.unpack_eq_ok_iff_of_respond {s : Suite} (hdeciphers : s.Deciphers)
    {initiator responder : Bundle} (hfirst : s.Agrees initiator.first.secret responder.first.secret)
    (haccepts : s.AcceptsOwn initiator.signing.seed) {index : String} {answer : Answer}
    {session responded : Session}
    (hrespond : responder.respond s index (initiator.offer s) = .ok (answer, responded))
    (hcomplete : initiator.complete s answer = .ok session) {now later : Instant}
    {payload : List Bytes} {e : Entropy} {envelope : String}
    (hpack : (session.pack s now payload e).1 = .ok envelope) :
    responded.unpack s later envelope = .ok payload ↔ Envelope.InTime now later := by
  obtain ⟨hresponded, rfl⟩ := respond_eq_ok_iff.1 hrespond
  obtain ⟨-, -, -, rfl⟩ := agree_offer_eq_ok_iff.1 hresponded
  obtain ⟨-, -, -, rfl⟩ := agree_offer_eq_ok_iff.1 hcomplete
  -- The responder expects what the initiator seals with, because the first agreement commutes.
  have hkey : ((responder.session s initiator .responder index).opening later).key
      = (initiator.session s responder .initiator index).sealingKey.val :=
    congrArg Subtype.val hfirst.symm
  have hsealed : (Envelope.pack s now index initiator.signing
      ((responder.session s initiator .responder index).opening later).key payload e).1
        = .ok envelope := by
    rw [hkey]
    exact hpack
  exact (Envelope.Opening.unpack_pack_eq_ok_iff hdeciphers haccepts rfl hsealed
    (Text.Respells.refl envelope)).trans (and_iff_right rfl)

/-- What a payload that is sent sealed to a path should have sent. -/
structure SendsSealed (s : Suite) (client : Client) (path : String) (payload : List Bytes)
    (world : World) (log : List Exchanged) : Prop where
  length_le : log.length ≤ 2
  /-- The first request is sent whenever there are random bytes for keys. -/
  begins : world.entropy.has 96 = true → ∃ first, log.head? = some first
  /-- It offers fresh keys. -/
  offers : ∀ first, log.head? = some first → first.Offers s client world
  /-- The second one is sent whenever the first one has led to a session and the payload can be
  sealed in it. -/
  continues : ∀ first found session envelope, log.head? = some first →
    first.Establishes s (Bundle.drawn world.entropy) found session →
    (session.pack s first.after.clock.wall payload first.after.entropy).1 = .ok envelope →
    ∃ second, log = [first, second]
  /-- It is sent only then. It is for the index of the answer, and holds the payload for whoever has
  made the answer to the offer. -/
  sealed : ∀ first second, log = [first, second] → ∃ found session envelope,
    first.Establishes s (Bundle.drawn world.entropy) found session
      ∧ (session.pack s first.after.clock.wall payload first.after.entropy).1 = .ok envelope
      ∧ second.request = client.request path (some (.ofMembers
          (SealedRequest.members { index := found.index, envelope := envelope })))
      ∧ ∀ (responder : Bundle) (responded : Session),
        responder.respond s found.index ((Bundle.drawn world.entropy).offer s) = .ok (found, responded) →
        s.Agrees (Bundle.drawn world.entropy).first.secret responder.first.secret →
        s.AcceptsOwn (Bundle.drawn world.entropy).signing.seed → s.Deciphers →
        ∀ later, responded.unpack s later envelope = .ok payload
          ↔ Envelope.InTime first.after.clock.wall later

/-- A sealed request is made of an envelope, and is for the index of the session. -/
theorem Client.exists_pack_of_sealedRequest {s : Suite} {client : Client} {session : Session}
    {now : Instant} {path : String} {payload : List Bytes} {e : Entropy} {request : HttpRequest}
    (h : (client.sealedRequest s now session path payload e).1 = .ok request) :
    ∃ envelope, (session.pack s now payload e).1 = .ok envelope
      ∧ request = client.request path (some (.ofMembers
          (SealedRequest.members { index := session.index, envelope := envelope }))) := by
  rw [fst_sealedRequest] at h
  obtain ⟨envelope, hpack, hrequest⟩ := exists_of_bind_eq_ok h
  exact ⟨envelope, CallError.onEnvelope_eq_ok_iff.1 hpack, (Except.ok.inj hrequest).symm⟩

/-- An offer alone is what may be sent, if it leads to no session that the payload is sealed in. -/
theorem SendsSealed.of_offers {s : Suite} {client : Client} {path : String} {payload : List Bytes}
    {world : World} {first : Exchanged} (h : first.Offers s client world)
    (hends : ∀ found session, first.Establishes s (Bundle.drawn world.entropy) found session →
      ∀ envelope,
        (session.pack s first.after.clock.wall payload first.after.entropy).1 ≠ .ok envelope) :
    SendsSealed s client path payload world [first] where
  length_le := Nat.le_succ 1
  begins := fun _ => ⟨first, rfl⟩
  offers := by
    intro first' hfirst
    exact Option.some.inj hfirst ▸ h
  continues := by
    intro first' found session envelope hfirst hfound hpack
    obtain rfl := Option.some.inj hfirst
    exact absurd hpack (hends found session hfound envelope)
  sealed := fun _ _ hlog => nomatch hlog

/-- Two requests are what may be sent if the first one leads to a session in which the second one
is sealed. -/
theorem SendsSealed.of_sealed {s : Suite} {client : Client} {path : String} {payload : List Bytes}
    {world : World} {first second : Exchanged} (h : first.Offers s client world) {found : Answer}
    {session : Session} (hfound : first.Establishes s (Bundle.drawn world.entropy) found session)
    (hrequest : (client.sealedRequest s first.after.clock.wall session path payload
      first.after.entropy).1 = .ok second.request) :
    SendsSealed s client path payload world [first, second] where
  length_le := Nat.le_refl 2
  begins := fun _ => ⟨first, rfl⟩
  offers := by
    intro first' hfirst
    exact Option.some.inj hfirst ▸ h
  continues := by
    intro first' found' session' envelope hfirst _ _
    obtain rfl := Option.some.inj hfirst
    exact ⟨second, rfl⟩
  sealed := by
    intro first' second' hlog
    obtain ⟨rfl, rfl⟩ : first = first' ∧ second = second' := by simpa using hlog
    obtain ⟨envelope, hpack, hsent⟩ := Client.exists_pack_of_sealedRequest hrequest
    -- The session keeps the index of the answer that it was made of.
    have hindex := (Bundle.role_index_of_agree hfound.completed).2
    refine ⟨found, session, envelope, hfound, hpack, hindex ▸ hsent, ?_⟩
    intro responder responded hrespond hagrees haccepts hdeciphers later
    exact Bundle.unpack_eq_ok_iff_of_respond hdeciphers hagrees haccepts hrespond
      hfound.completed hpack

/-- Whichever way it goes, a payload sends what it should. -/
theorem Sent.sendsSealed {s : Suite} {client : Client} {path : String} {payload : List Bytes}
    {world later : World} {log : List Exchanged} {result : Except CallError SealedOutcome}
    (h : Sent s client path payload world log result later) :
    SendsSealed s client path payload world log := by
  cases h with
  | dry later hdry =>
    exact
      { length_le := Nat.zero_le 2
        begins := fun hhas => absurd hhas hdry
        offers := fun _ hfirst => nomatch hfirst
        continues := fun _ _ _ _ hfirst => nomatch hfirst
        sealed := fun _ _ hlog => nomatch hlog }
  | failed hoffers hfailed =>
    refine .of_offers hoffers fun found session hfound => ?_
    cases hfailed.symm.trans (Exchanged.handshake_eq_established_iff.2 ⟨found, hfound⟩)
  | rejected hoffers hrejected =>
    refine .of_offers hoffers fun found session hfound => ?_
    cases hrejected.symm.trans (Exchanged.handshake_eq_established_iff.2 ⟨found, hfound⟩)
  | unsealed later hoffers hestablished hunsealed =>
    refine .of_offers hoffers fun found session hfound envelope hpack => ?_
    -- An exchange leads to one session, and in that one nothing is sealed.
    cases hestablished.symm.trans (Exchanged.handshake_eq_established_iff.2 ⟨found, hfound⟩)
    cases hunsealed.symm.trans (Client.sealedRequest_of_pack hpack)
  | sent hoffers hestablished hrequest =>
    obtain ⟨found, hfound⟩ := Exchanged.handshake_eq_established_iff.1 hestablished
    exact .of_sealed hoffers hfound hrequest

/-! ## What a call returns -/

/-- Whether the body of a response is a JSON object with an envelope, a text under the name `d`. -/
def HttpResponse.HoldsEnvelope (response : HttpResponse) (envelope : String) : Prop :=
  ∃ members, response.json = .ok (.object members)
    ∧ Keyed.find? "d" members = some (.string envelope)

/-- What a call should return after what it has exchanged. -/
structure CallReturns (s : Suite) (payload : List Bytes) (world : World) (log : List Exchanged)
    (result : Except CallError HttpResponse) : Prop where
  /-- Without random bytes for keys, the call fails. -/
  dry : log = [] → result = .error .random
  /-- So it does with whatever keeps its offer from an answer, or the answer from being one. -/
  failed : ∀ first err, log.head? = some first →
    first.handshake s (Bundle.drawn world.entropy) = .error err → result = .error err
  /-- The response to the offer is returned as it is if its status is not 200. -/
  rejected : ∀ first response, log.head? = some first → first.result = .ok response →
    response.status ≠ 200 → result = .ok response
  /-- In a session, the call fails with whatever keeps its payload from being sealed, -/
  unsealed : ∀ first found session err, log.head? = some first →
    first.Establishes s (Bundle.drawn world.entropy) found session →
    (session.pack s first.after.clock.wall payload first.after.entropy).1 = .error err →
    result = .error (.envelope err)
  /-- and with whatever keeps the sealed request from a response. -/
  lost : ∀ first second err, log = [first, second] → second.result = .error err →
    result = .error err
  /-- The response to the sealed request is returned as it is if there is no envelope in it. -/
  bare : ∀ first second response, log = [first, second] → second.result = .ok response →
    (∀ envelope, ¬ response.HoldsEnvelope envelope) → result = .ok response
  /-- An envelope in it is opened with the session of this call, and what is in it is decoded. Where
  one of these fails, so does the call. -/
  opened : ∀ first second response envelope found session, log = [first, second] →
    second.result = .ok response → response.HoldsEnvelope envelope →
    first.Establishes s (Bundle.drawn world.entropy) found session →
    result = CallError.onEnvelope (session.unpack s second.after.clock.wall envelope)
      >>= Payload.decodeResponse
  /-- Nothing else is returned. -/
  only : ∀ response, result = .ok response →
    (∃ first, log = [first] ∧ first.result = .ok response ∧ response.status ≠ 200)
      ∨ ∃ first second reply, log = [first, second] ∧ second.result = .ok reply
        ∧ ((∀ envelope, ¬ reply.HoldsEnvelope envelope) ∧ response = reply
          ∨ ∃ envelope found session payload, reply.HoldsEnvelope envelope
            ∧ first.Establishes s (Bundle.drawn world.entropy) found session
            ∧ session.unpack s second.after.clock.wall envelope = .ok payload
            ∧ Payload.decodeResponse payload = .ok response)

namespace Client

variable {s : Suite} {client : Client} {path : String} {world later : World} {log : List Exchanged}

/-- The envelope that a client finds is the one that is there. -/
theorem envelope?_eq_some_iff {response : HttpResponse} {envelope : String} :
    response.json.toOption.bind envelope? = some envelope ↔ response.HoldsEnvelope envelope := by
  unfold HttpResponse.HoldsEnvelope
  cases response.json with
  | error fault => simp [Except.toOption]
  | ok body =>
    simp only [Except.toOption, Option.bind_some, envelope?, Except.ok.injEq]
    cases body with
    | object members =>
      simp only [JsonValue.member?, JsonValue.object.injEq, exists_eq_left']
      cases Keyed.find? "d" members with
      | none => simp
      | some value => cases value <;> simp [JsonValue.text?]
    | _ => simp [JsonValue.member?]

/-- A response without an envelope is handed on. -/
theorem readCallReply_of_bare {now : Instant} {session : Session} {response : HttpResponse}
    (h : ∀ envelope, ¬ response.HoldsEnvelope envelope) :
    readCallReply s now session response = .ok response := by
  have hnone : response.json.toOption.bind envelope? = none :=
    Option.eq_none_iff_forall_ne_some.2 fun envelope hfound =>
      h envelope (envelope?_eq_some_iff.1 hfound)
  rw [readCallReply, hnone]

/-- An envelope is opened and decoded. -/
theorem readCallReply_of_holdsEnvelope {now : Instant} {session : Session} {response : HttpResponse}
    {envelope : String} (h : response.HoldsEnvelope envelope) :
    readCallReply s now session response
      = CallError.onEnvelope (session.unpack s now envelope) >>= Payload.decodeResponse := by
  rw [readCallReply, envelope?_eq_some_iff.2 h]

/-- What a call makes of how far its payload has come. -/
def callResult (s : Suite) (now : Instant) : SealedOutcome → Except CallError HttpResponse
  | .rejected response => .ok response
  | .answered session response => readCallReply s now session response

/-- A call ends where its payload has come to, -/
theorem call_of_sendSealed {transport : Transport σ} {headers : Headers} {body : JsonValue}
    {before after : World × σ} {result : Except CallError SealedOutcome}
    (h : client.sendSealed s transport path (Payload.encodeRequest headers body) before
      = (result, after)) :
    client.call s transport path headers body before
      = (result >>= callResult s after.1.clock.wall, after) := by
  cases result with
  | error err => exact Exchange.bind_of_eq_error h
  | ok outcome =>
    rw [call, Exchange.bind_of_eq_ok h]
    cases outcome <;> rfl

/-- and so does the request of a login. -/
theorem snd_requestLogin_of_sendSealed {transport : Transport σ} {user password : String}
    {before after : World × σ} {result : Except CallError SealedOutcome}
    (h : client.sendSealed s transport client.config.loginPath
      [Utf8.encode user, Utf8.encode password] before = (result, after)) :
    (client.requestLogin s transport user password before).2 = after := by
  cases result with
  | error err => exact congrArg Prod.snd (Exchange.bind_of_eq_error h)
  | ok outcome =>
    rw [requestLogin, Exchange.bind_of_eq_ok h]
    cases outcome <;> rfl

/-- A login that is logged does what it does without, and leaves the log of its request behind. -/
theorem login_logging {transport : Transport σ} {user password : String} {world : World} {peer : σ}
    {log : List Exchanged}
    (h : client.requestLogin s transport.logging user password (world, (peer, []))
      = ((client.requestLogin s transport user password (world, peer)).1,
        ((client.requestLogin s transport user password (world, peer)).2.1,
          ((client.requestLogin s transport user password (world, peer)).2.2, log)))) :
    login s transport.logging user password client (world, (peer, []))
      = ((login s transport user password client (world, peer)).1,
        ((login s transport user password client (world, peer)).2.1,
          ((login s transport user password client (world, peer)).2.2, log))) := by
  rw [login_apply, login_apply, h]

end Client

/-- A call that has sent nothing returns nothing. -/
theorem CallReturns.of_nil {s : Suite} {payload : List Bytes} {world : World} :
    CallReturns s payload world [] (.error .random) where
  dry := fun _ => rfl
  failed := fun _ _ hfirst => nomatch hfirst
  rejected := fun _ _ hfirst => nomatch hfirst
  unsealed := fun _ _ _ _ hfirst => nomatch hfirst
  lost := fun _ _ _ hlog => nomatch hlog
  bare := fun _ _ _ hlog => nomatch hlog
  opened := fun _ _ _ _ _ _ hlog => nomatch hlog
  only := fun _ hresult => nomatch hresult

/-- A call that has had an answer to its offer only returns what it makes of that. -/
theorem CallReturns.of_offer {s : Suite} {payload : List Bytes} {world : World} {first : Exchanged}
    {result : Except CallError HttpResponse}
    (hfailed : ∀ err, first.handshake s (Bundle.drawn world.entropy) = .error err →
      result = .error err)
    (hrejected : ∀ response, result = .ok response
      ↔ first.handshake s (Bundle.drawn world.entropy) = .ok (.rejected response))
    (hunsealed : ∀ session err,
      first.handshake s (Bundle.drawn world.entropy) = .ok (.established session) →
      (session.pack s first.after.clock.wall payload first.after.entropy).1 = .error err →
      result = .error (.envelope err)) :
    CallReturns s payload world [first] result where
  dry := nofun
  failed := by
    intro first' err hfirst
    obtain rfl := Option.some.inj hfirst
    exact hfailed err
  rejected := by
    intro first' response hfirst hresult hstatus
    obtain rfl := Option.some.inj hfirst
    exact (hrejected response).2 (Exchanged.handshake_eq_rejected_iff.2 ⟨hresult, hstatus⟩)
  unsealed := by
    intro first' found session err hfirst hfound
    obtain rfl := Option.some.inj hfirst
    exact hunsealed session err (Exchanged.handshake_eq_established_iff.2 ⟨found, hfound⟩)
  lost := fun _ _ _ hlog => nomatch hlog
  bare := fun _ _ _ hlog => nomatch hlog
  opened := fun _ _ _ _ _ _ hlog => nomatch hlog
  only := by
    intro response hresult
    exact .inl ⟨first, rfl, Exchanged.handshake_eq_rejected_iff.1 ((hrejected response).1 hresult)⟩

/-- A call whose payload has been sent returns what it makes of the reply. -/
theorem CallReturns.of_sent {s : Suite} {payload : List Bytes} {world : World}
    {first second : Exchanged} {session : Session}
    (hestablished : first.handshake s (Bundle.drawn world.entropy) = .ok (.established session))
    {envelope : String}
    (hpack : (session.pack s first.after.clock.wall payload first.after.entropy).1 = .ok envelope) :
    CallReturns s payload world [first, second]
      (second.result >>= Client.readCallReply s second.after.clock.wall session) where
  dry := nofun
  failed := by
    intro first' err hfirst hfailed
    obtain rfl := Option.some.inj hfirst
    cases hestablished.symm.trans hfailed
  rejected := by
    intro first' response hfirst hresult hstatus
    obtain rfl := Option.some.inj hfirst
    -- A session is not established by a response of another status.
    have hboth := hestablished.symm.trans
      (Exchanged.handshake_eq_rejected_iff.2 ⟨hresult, hstatus⟩)
    cases hboth
  unsealed := by
    intro first' found session' err hfirst hfound hunsealed
    obtain rfl := Option.some.inj hfirst
    cases hestablished.symm.trans (Exchanged.handshake_eq_established_iff.2 ⟨found, hfound⟩)
    cases hpack.symm.trans hunsealed
  lost := by
    intro first' second' err hlog hresult
    obtain ⟨rfl, rfl⟩ : first = first' ∧ second = second' := by simpa using hlog
    rw [hresult]
    rfl
  bare := by
    intro first' second' response hlog hresult hbare
    obtain ⟨rfl, rfl⟩ : first = first' ∧ second = second' := by simpa using hlog
    rw [hresult]
    exact Client.readCallReply_of_bare hbare
  opened := by
    intro first' second' response envelope found session' hlog hresult hholds hfound
    obtain ⟨rfl, rfl⟩ : first = first' ∧ second = second' := by simpa using hlog
    have hsame := hestablished.symm.trans (Exchanged.handshake_eq_established_iff.2 ⟨found, hfound⟩)
    obtain rfl : session = session' := by simpa using hsame
    rw [hresult]
    exact Client.readCallReply_of_holdsEnvelope hholds
  only := by
    intro response h
    obtain ⟨reply, hreply, h⟩ := exists_of_bind_eq_ok h
    refine .inr ⟨first, second, reply, rfl, hreply, ?_⟩
    -- There is no envelope, or the one that is there decides.
    by_cases hbare : ∀ envelope, ¬ reply.HoldsEnvelope envelope
    · rw [Client.readCallReply_of_bare hbare] at h
      exact .inl ⟨hbare, (Except.ok.inj h).symm⟩
    · obtain ⟨envelope, hholds⟩ := Classical.not_forall_not.1 hbare
      rw [Client.readCallReply_of_holdsEnvelope hholds] at h
      obtain ⟨payload, hunpack, hdecode⟩ := exists_of_bind_eq_ok h
      obtain ⟨found, hfound⟩ := Exchanged.handshake_eq_established_iff.1 hestablished
      exact .inr ⟨envelope, found, session, payload, hholds, hfound,
        CallError.onEnvelope_eq_ok_iff.1 hunpack, hdecode⟩

/-- Whichever way its payload goes, a call returns what it should. -/
theorem Sent.callReturns {s : Suite} {client : Client} {path : String} {payload : List Bytes}
    {world later : World} {log : List Exchanged} {result : Except CallError SealedOutcome}
    (h : Sent s client path payload world log result later) :
    CallReturns s payload world log (result >>= Client.callResult s later.clock.wall) := by
  cases h with
  | dry later _ => exact .of_nil
  | failed _ hfailed =>
    refine .of_offer ?_ ?_ ?_
    · intro err herror
      cases hfailed.symm.trans herror
      rfl
    · intro response
      rw [hfailed]
      exact iff_of_false (fun h => nomatch h) fun h => nomatch h
    · intro session err hestablished
      cases hfailed.symm.trans hestablished
  | rejected _ hrejected =>
    refine .of_offer ?_ ?_ ?_
    · intro err herror
      cases hrejected.symm.trans herror
    · intro response
      rw [hrejected]
      simp [bind, Except.bind, Client.callResult]
    · intro session err hestablished
      cases hrejected.symm.trans hestablished
  | unsealed later _ hestablished hunsealed =>
    refine .of_offer ?_ ?_ ?_
    · intro err herror
      cases hestablished.symm.trans herror
    · intro response
      rw [hestablished]
      exact iff_of_false (fun h => nomatch h) fun h => nomatch h
    · intro session err hsession hpack
      cases hestablished.symm.trans hsession
      -- The failure of the request is that of the envelope, under the name that a call gives it.
      rw [Client.fst_sealedRequest, hpack] at hunsealed
      cases hunsealed
      rfl
  | @sent first second session _ hestablished hrequest =>
    obtain ⟨envelope, hpack, -⟩ := Client.exists_pack_of_sealedRequest hrequest
    have hresult : second.result.map (SealedOutcome.answered session)
          >>= Client.callResult s second.after.clock.wall
        = second.result >>= Client.readCallReply s second.after.clock.wall session := by
      cases second.result <;> rfl
    rw [hresult]
    exact .of_sent hestablished hpack

/-! ## Calls and logins -/

/-- Over every transport, which may answer or fail as it likes, and of which a log is kept that
changes nothing else. A call and a login go one of the ways of a payload that is sent sealed. They
send two requests at most. The first offers fresh keys at the path for prekeys, and is sent whenever
there are random bytes for them. The second goes to the target, whenever the first has been answered
with the status 200 and an answer that completes the handshake and the payload can be sealed, and
only then. It holds the index of that answer and an envelope; the session of a responder that has
made that answer under that index opens the envelope in time, and only then, to exactly what the
call or the login is for.

A call returns a handshake of another status than 200 as it is, a reply without an envelope as it
is, and nothing else but what is decoded of an envelope that its own session opens. Whatever keeps
it from these is what it fails with. -/
theorem Client.secured_exchanges (s : Suite) (transport : Transport σ) (client : Client)
    (world : World) (peer : σ) :
    (∀ (path : String) (headers : Headers) (body : JsonValue),
      let payload := Payload.encodeRequest headers body
      let called := client.call s transport path headers body (world, peer)
      ∃ log outcome, client.call s transport.logging path headers body (world, (peer, []))
          = (called.1, (called.2.1, (called.2.2, log)))
        ∧ Sent s client path payload world log outcome called.2.1
        ∧ SendsSealed s client path payload world log
        ∧ CallReturns s payload world log called.1)
    ∧ ∀ user password : String,
      let payload := [Utf8.encode user, Utf8.encode password]
      let loggedIn := login s transport user password client (world, peer)
      ∃ log outcome, login s transport.logging user password client (world, (peer, []))
          = (loggedIn.1, (loggedIn.2.1, (loggedIn.2.2, log)))
        ∧ Sent s client client.config.loginPath payload world log outcome loggedIn.2.1
        ∧ SendsSealed s client client.config.loginPath payload world log := by
  constructor
  · intro path headers body payload called
    obtain ⟨log, hlog⟩ := (extends_call s transport client path headers body).exists_log world peer
    obtain ⟨log', outcome, later, peer', hsend, hsent⟩ :=
      exists_sent s transport client path payload world peer
    -- The log is that of a payload on one of its ways, and the result is made of where that ends.
    have hcall := hlog.symm.trans (call_of_sendSealed hsend)
    obtain rfl : log = log' := congrArg (fun outcome => outcome.2.2.2) hcall
    obtain rfl : called.2.1 = later := congrArg (fun outcome => outcome.2.1) hcall
    have hresult : called.1 = outcome >>= callResult s called.2.1.clock.wall :=
      congrArg Prod.fst hcall
    exact ⟨log, outcome, hlog, hsent, hsent.sendsSealed, hresult ▸ hsent.callReturns⟩
  · intro user password payload loggedIn
    obtain ⟨log, hlog⟩ :=
      (extends_requestLogin s transport client user password).exists_log world peer
    obtain ⟨log', outcome, later, peer', hsend, hsent⟩ :=
      exists_sent s transport client client.config.loginPath payload world peer
    have hlast := (congrArg Prod.snd hlog).symm.trans (snd_requestLogin_of_sendSealed hsend)
    obtain rfl : log = log' := congrArg (fun state => state.2.2) hlast
    -- What is made of the client afterwards takes no time.
    have hrest : loggedIn.2 = (client.requestLogin s transport user password (world, peer)).2 :=
      congrArg Prod.snd (login_apply s transport client user password (world, peer))
    obtain rfl : loggedIn.2.1 = later := (congrArg Prod.fst hrest).trans (congrArg Prod.fst hlast)
    exact ⟨log, outcome, login_logging hlog, hsent, hsent.sendsSealed⟩

namespace RefusedCall

/-- A client that has never logged in. -/
def client : Client := { config := { baseUrl := "http://gw.test" } }

/-- Its world, with random bytes for the keys of seed zero. -/
def offering : World where
  clock := { wall := .ofUnixNanos 1700000000000000000, steady := 0 }
  entropy := .ofBytes (List.replicate 32 0 ++ 2 :: List.replicate 31 0 ++ 3 :: List.replicate 31 0)

/-- Its world with the answer, with random bytes for one envelope. -/
def sealing : World where
  clock := { wall := .ofUnixNanos 1700000000123456789, steady := 0 }
  entropy := .ofBytes (List.replicate 48 6)

/-- An answer as a response. -/
def answering (found : Answer) : HttpResponse where
  status := 200
  headers := .empty
  body := (JsonValue.object found.members).bytes

theorem body_answering (found : Answer) :
    (answering found).body = (JsonValue.object found.members).bytes := by
  rw [answering]

/-- What a peer says that cannot open what it gets. It is no JSON. -/
def refusal : HttpResponse where
  status := 422
  headers := .empty
  body := Utf8.encode "what?"

/-- A peer that gives an answer and then refuses. -/
def peer (found : Answer) : Playback where
  replies := [(answering found, sealing), (refusal, sealing)]

/-- The exchange of the offer for an answer. -/
def first (found : Answer) : Exchanged where
  before := { offering with entropy := offering.entropy.advance 96 }
  request := client.offerRequest .twoSigners (Bundle.drawn offering.entropy)
  result := .ok (answering found)
  after := sealing

theorem drawn_offering : Bundle.drawn offering.entropy = .zeroKeys := by
  decide +kernel

/-- The answer of keys that go together with those of the offer leads to a session. -/
theorem establishes_first {responder : Bundle}
    (h : Bundle.zeroKeys.Compatible .twoSigners responder) (index : String) :
    (first (responder.answer .twoSigners index)).Establishes .twoSigners
      (Bundle.drawn offering.entropy) (responder.answer .twoSigners index)
      (Bundle.zeroKeys.session .twoSigners responder .initiator index) := by
  have hread : JsonReader.whole Answer.reading
      (answering (responder.answer .twoSigners index)).body
        = .ok (responder.answer .twoSigners index) := by
    rw [body_answering]
    exact JsonReader.whole_eq_ok (Answer.reading_members _)
  rw [drawn_offering]
  exact ⟨⟨_, rfl, rfl, hread⟩, h.complete index⟩

/-- With that session a handshake ends. -/
theorem handshake_first {found : Answer} {session : Session}
    (h : (first found).Establishes .twoSigners (Bundle.drawn offering.entropy) found session) :
    client.handshake .twoSigners Playback.transport.logging (offering, (peer found, []))
      = (.ok (.established session), ((first found).after,
          ({ replies := [(refusal, sealing)], sent := [(first found).request] }, [first found]))) := by
  have hhas : offering.entropy.has 96 = true := by
    decide +kernel
  refine (Client.handshake_logging hhas Playback.transport (peer found)).trans ?_
  rw [← Exchanged.handshake_eq_established_iff.2 ⟨found, h⟩]
  rfl

/-- There is no envelope in the refusal. -/
theorem not_holdsEnvelope_refusal (envelope : String) : ¬ refusal.HoldsEnvelope envelope := by
  have hnone : refusal.json.toOption.bind Client.envelope? = none := by
    decide +kernel
  intro h
  cases hnone.symm.trans (Client.envelope?_eq_some_iff.2 h)

end RefusedCall

open RefusedCall in
/-- A call over a peer that answers its offer and refuses its request sends both and returns the
refusal. What it has sent is opened by the answering keys 299 seconds later. -/
theorem Client.secured_exchanges_refusedCall :
    let found := Bundle.oneKeys.answer .twoSigners "p1"
    ∃ second envelope,
      (client.call .twoSigners Playback.transport.logging "/echo" .empty .null
          (offering, (peer found, []))).2.2.2 = [first found, second]
        ∧ second.request = client.request "/echo" (some (.ofMembers
            (SealedRequest.members { index := "p1", envelope := envelope })))
        ∧ (Bundle.oneKeys.session .twoSigners .zeroKeys .responder "p1").unpack .twoSigners
            (.ofUnixNanos 1700000299000000000) envelope = .ok (Payload.encodeRequest .empty .null)
        ∧ (client.call .twoSigners Playback.transport "/echo" .empty .null (offering, peer found)).1
          = .ok refusal := by
  intro found
  obtain ⟨log, -, hlog, -, hsends, hreturns⟩ := (secured_exchanges .twoSigners Playback.transport client
    offering (peer found)).1 "/echo" .empty .null
  -- Both requests are sent, because the answer leads to a session and the payload can be sealed.
  have hcompatible := Bundle.Compatible.of_zeroKeys
  have hfound := establishes_first hcompatible "p1"
  have hseal : (((Bundle.zeroKeys.session .twoSigners .oneKeys .initiator "p1").pack .twoSigners
      sealing.clock.wall (Payload.encodeRequest .empty .null) sealing.entropy).1).isOk = true := by
    decide +kernel
  obtain ⟨text, hpack⟩ := exists_of_isOk hseal
  have hrequesting : (client.sealedRequest .twoSigners sealing.clock.wall _ "/echo" _
      sealing.entropy).1 = .ok _ :=
    sealedRequest_of_pack hpack
  obtain ⟨e, hsealed⟩ := Drawing.exists_of_fst_eq_ok hrequesting
  have hcall := call_of_sendSealed (sendSealed_logging (handshake_first hfound) hsealed)
  have hboth := congrArg (fun outcome => outcome.2.2.2) (hlog.symm.trans hcall)
  -- The answer that the log tells of is the one that was given.
  obtain ⟨found', session, envelope, hestablishes, -, hrequest, hopened⟩ := hsends.sealed _ _ hboth
  obtain ⟨rfl, -⟩ := hfound.unique hestablishes
  rw [drawn_offering] at hopened
  have hunpack := hopened .oneKeys _ (hcompatible.respond "p1") hcompatible.first
    hcompatible.initiator_acceptsOwn Suite.twoSigners_deciphers (.ofUnixNanos 1700000299000000000)
  have htime : Envelope.InTime sealing.clock.wall (.ofUnixNanos 1700000299000000000) := by
    decide +kernel
  refine ⟨_, envelope, (congrArg (fun outcome => outcome.2.2.2) hlog).trans hboth, hrequest,
    hunpack.2 htime, ?_⟩
  exact hreturns.bare _ _ refusal hboth rfl not_holdsEnvelope_refusal

end SealedEnvelope
