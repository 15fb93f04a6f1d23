import SealedEnvelope.Proofs.Gateway.Interleaving
import SealedEnvelope.Proofs.Gateway.LoginOutcome

/-!
# `SealedEnvelope.Proofs.Gateway.DryEntropy`: replies for which the random bytes do not suffice

The reply to a login or to an echo takes random bytes: a session key, if it is a login, then a nonce,
then an initial vector. Where one of these draws fails, the request has long been opened.

A draw of the session key that fails is an error of the call, and is answered as an error of the
server. A draw of the nonce or of the initial vector that fails is an error of the envelope. Among
those, `errorStatus` tells only an envelope that is not encrypted from one that is not opened, so
that this one is answered as if the request had not been opened.

Main statements:

* `Gateway.grantLogin_of_runsDry` and `Responder.replyWith_of_runsDry`: the errors;
* `Gateway.response_of_runsDry`: the responses;
* `Gateway.dryReply_is_unprocessable`: a response that blames the client.
-/

set_option autoImplicit false

namespace SealedEnvelope

open Drawing (RunsDry DriesUp)

variable {s : Suite} {session : Session} {e : Entropy}

/-! ## Errors -/

/-- A reply that is not sealed since the random bytes have run out is told of so by its envelope. -/
theorem Responder.driesUp_reply (s : Suite) (now : Instant) (session : Session)
    (payload : List Bytes) : DriesUp (· = .envelope .random) (reply s now session payload) := by
  have hpack : DriesUp (· = CallError.envelope .random)
      (Drawing.mapError .envelope (session.pack s now payload)) :=
    (Envelope.driesUp_pack s now _ _ _ payload).mapError fun _ herr => congrArg CallError.envelope herr
  exact hpack.bind fun _ => Drawing.driesUp_pure _ _

theorem Responder.replyWith_of_runsDry {now : Instant} {response : HttpResponse}
    (h : RunsDry (replyWith s now session response) e) :
    (replyWith s now session response e).1 = .error (.envelope .random) := by
  obtain ⟨error, rfl, herror⟩ := (driesUp_reply s now session _).exists_of_runsDry h
  exact herror

namespace Gateway

/-- Which error a login ends with depends on whether there have been bytes for the session key. -/
theorem grantLogin_of_runsDry {clock : Clock} (h : RunsDry (grantLogin s clock session) e) :
    (grantLogin s clock session e).1
      = .error (if e.has sessionKeyLength = true then .envelope .random else .random) := by
  by_cases he : e.has sessionKeyLength = true
  · have hsealing := (Responder.driesUp_reply s clock.wall session (loginReply (drawnKey e))).bind
      fun reply => Drawing.driesUp_pure _ (drawnKey e, reply)
    have hdry : RunsDry (Responder.reply s clock.wall session (loginReply (drawnKey e)) >>=
        fun reply => pure (drawnKey e, reply)) (e.advance sessionKeyLength) := by
      -- The session key is the same on an endless source, and so is what is left of it.
      intro hsame
      refine h ?_
      rw [grantLogin_of_has he, grantLogin_of_has (e.has_endless sessionKeyLength)]
      exact hsame
    obtain ⟨error, rfl, herror⟩ := hsealing.exists_of_runsDry hdry
    rw [if_pos he, grantLogin_of_has he, herror]
  · rw [if_neg he, grantLogin, Drawing.bind_apply, Drawing.bytes_of_not_has he]

end Gateway

/-! ## Calls that are opened -/

/-- A login that would be granted runs dry if there are fewer than 80 random bytes. -/
theorem FirstLogin.Ready.runsDry_grantLogin {l : FirstLogin} {g : Gateway} (h : l.Ready s g)
    (he : ¬ e.has 80 = true) :
    RunsDry (Gateway.grantLogin s l.admitting.clock (l.sessions s .responder)) e := by
  have hsize : Envelope.stampedLength l.admitting.clock.wall (l.sessions s .responder).index
      (Gateway.loginReply (Gateway.drawnKey e.endless)) < LengthValue.ceiling :=
    stampedLength_loginReply_lt h e.endless
  obtain ⟨reply, hgrant⟩ := Gateway.exists_grantLogin (s := s) (e.has_endless 80) hsize
  exact (Gateway.takes_grantLogin s l.admitting.clock _).runsDry hgrant he

/-- The sealed request of a call comes in and is opened, if its prekey is there. -/
theorem EchoCall.Ready.exists_opened {lifetime : Milliseconds} {call : EchoCall}
    (h : call.Ready s lifetime) (hdeciphers : s.Deciphers) {g : Gateway}
    (hlifetime : g.prekeys.limits.lifetime = lifetime)
    (hfind : g.prekeys.find? call.index = some (call.entry s)) :
    ∃ (arrived : HttpCall) (request : SealedRequest), arrived.IsTo .echo
      ∧ Gateway.readBody SealedRequest.reading arrived = .ok request
      ∧ (Responder.receiveRequest s call.echoing.clock g.prekeys request).1 = .ok (call.opened s) := by
  obtain ⟨envelope, htext, hlength⟩ := exists_request h
  obtain ⟨arrived, -, hroute, hmethod, hread⟩ := exists_arrival_request h hlength
  exact ⟨arrived, _, ⟨hroute, hmethod⟩, hread, receiveRequest_eq hdeciphers h hlifetime hfind htext⟩

/-- Its echo runs dry if there are fewer than 48 random bytes. -/
theorem EchoCall.Ready.runsDry_replyWith {lifetime : Milliseconds} {call : EchoCall}
    (h : call.Ready s lifetime) (he : ¬ e.has 48 = true) :
    RunsDry (Responder.replyWith s call.echoing.clock.wall (call.opened s).session
      (Gateway.echoResponse (call.opened s))) e := by
  obtain ⟨envelope, hpack, -⟩ := Envelope.exists_pack_of_lt (s := s) (call.opened s).session.signing
    h.echoing_stampable.year_nonneg h.echoing_stampable.year_le (ofBytes?_secret _)
    (e.has_endless 48) (valueLength_reply_lt h)
  exact (Responder.takes_reply s call.echoing.clock.wall _ _).runsDry
    (Responder.reply_of_pack_ok hpack) he

namespace Gateway

/-! ## Responses -/

/-- What is told of random bytes that have run out before the session key, -/
theorem rejectError_random :
    rejectError .random = reject 500 "RANDOM_SOURCE_FAILED" "random source unavailable" := rfl

/-- and of those that have run out in an envelope. -/
theorem rejectError_envelope_random :
    rejectError (.envelope .random)
      = reject 422 "RANDOM_SOURCE_FAILED" "envelope error: random source unavailable" := rfl

variable {g : Gateway} {clock : Clock} {call : HttpCall} {request : SealedRequest}

theorem answerLogin_of_runsDry {user password : Bytes} {rest : List Bytes}
    (hreceive : (Responder.receive s clock g.prekeys request).1 = .ok (session, user :: password :: rest))
    (hmatch : g.credentialsMatch user password = true)
    (hdry : RunsDry (grantLogin s clock session) e) :
    (g.answerLogin s clock request e).1.1
      = if e.has sessionKeyLength = true then
          reject 422 "RANDOM_SOURCE_FAILED" "envelope error: random source unavailable"
        else reject 500 "RANDOM_SOURCE_FAILED" "random source unavailable" := by
  rw [answerLogin_of_grant_error hreceive hmatch (grantLogin_of_runsDry hdry),
    ← rejectError_envelope_random, ← rejectError_random, apply_ite rejectError]

theorem answerEcho_of_runsDry {opened : Responder.Opened}
    (hreceive : (Responder.receiveRequest s clock g.prekeys request).1 = .ok opened)
    (hdry : RunsDry (Responder.replyWith s clock.wall opened.session (echoResponse opened)) e) :
    (g.answerEcho s clock request e).1.1
      = reject 422 "RANDOM_SOURCE_FAILED" "envelope error: random source unavailable" := by
  rw [answerEcho_of_receiveRequest_ok hreceive, Responder.replyWith_of_runsDry hdry,
    ← rejectError_envelope_random]
  rfl

/-- What is told of a sealed request that has been opened, and for a login has been found to have the
right user and password, but whose reply is not sealed since the random bytes run out: that the
server is at fault, with the status 500, exactly if it is a login and they run out before the session
key has been drawn. If they run out at the nonce or at the initial vector, the status is 422, with the
same code. -/
theorem response_of_runsDry (s : Suite) (g : Gateway) (world : World) {call : HttpCall}
    {request : SealedRequest} (hread : readBody SealedRequest.reading call = .ok request) :
    (call.IsTo .login → ∀ (session : Session) (user password : Bytes) (rest : List Bytes),
        (Responder.receive s world.clock g.prekeys request).1
          = .ok (session, user :: password :: rest) →
        g.credentialsMatch user password = true →
        RunsDry (grantLogin s world.clock session) world.entropy →
        (g.answer s world.clock call world.entropy).1.1
          = if world.entropy.has 32 = true then
              reject 422 "RANDOM_SOURCE_FAILED" "envelope error: random source unavailable"
            else reject 500 "RANDOM_SOURCE_FAILED" "random source unavailable")
      ∧ (call.IsTo .echo → ∀ opened : Responder.Opened,
        (Responder.receiveRequest s world.clock g.prekeys request).1 = .ok opened →
        RunsDry (Responder.replyWith s world.clock.wall opened.session (echoResponse opened))
          world.entropy →
        (g.answer s world.clock call world.entropy).1.1
          = reject 422 "RANDOM_SOURCE_FAILED" "envelope error: random source unavailable") := by
  constructor
  · intro hroute session user password rest hreceive hmatch hdry
    rw [answer_of_login hroute hread]
    exact answerLogin_of_runsDry hreceive hmatch hdry
  · intro hroute opened hreceive hdry
    rw [answer_of_echo hroute.1 hroute.2 hread]
    exact answerEcho_of_runsDry hreceive hdry

/-- A login and an echo with every number of random bytes that does not suffice. -/
theorem response_of_runsDry_everyDraw :
    (∃ (g : Gateway) (call : HttpCall), ∀ n < 80,
        (g.answer .twoSigners FirstLogin.oneSecondLater.admitting.clock call
            (.ofBytes (List.replicate n 7))).1.1
          = if 32 ≤ n then
              reject 422 "RANDOM_SOURCE_FAILED" "envelope error: random source unavailable"
            else reject 500 "RANDOM_SOURCE_FAILED" "random source unavailable")
      ∧ ∃ (g : Gateway) (call : HttpCall), ∀ n < 48,
        (g.answer .twoSigners (Traffic.twoCalls false).echoing.clock call
            (.ofBytes (List.replicate n 7))).1.1
          = reject 422 "RANDOM_SOURCE_FAILED" "envelope error: random source unavailable" := by
  constructor
  · have h := FirstLogin.ready_oneSecondLater
    obtain ⟨envelope, hroute, hread, hreceive⟩ := h.exists_opened Suite.twoSigners_deciphers
    generalize ((ofConfig {}).perform .twoSigners
      (FirstLogin.oneSecondLater.offer .twoSigners)).2 = g at hreceive
    refine ⟨g, FirstLogin.oneSecondLater.call envelope, fun n hn => ?_⟩
    have hdry : ¬ (Entropy.ofBytes (List.replicate n 7)).has 80 = true := by
      rw [Entropy.has_ofBytes_iff, List.length_replicate]
      omega
    have hresponse := (response_of_runsDry .twoSigners g
      { clock := FirstLogin.oneSecondLater.admitting.clock, entropy := .ofBytes (List.replicate n 7) }
      hread).1 hroute _ _ _ _ hreceive (credentialsMatch_iff.2 ⟨rfl, rfl⟩) (h.runsDry_grantLogin hdry)
    simpa only [Entropy.has_ofBytes_iff, List.length_replicate] using hresponse
  · have h := Traffic.ready_twoCalls false
    let g : Gateway := { ofConfig {} with
      prekeys := (ofConfig {}).prekeys.insert ((Traffic.twoCalls false).entry .twoSigners) }
    have hfind : g.prekeys.find? (Traffic.twoCalls false).index
        = some ((Traffic.twoCalls false).entry .twoSigners) :=
      PrekeyStore.find?_insert_self _ _
    obtain ⟨arrived, request, hroute, hread, hreceive⟩ :=
      h.exists_opened Suite.twoSigners_deciphers rfl hfind
    refine ⟨g, arrived, fun n hn => ?_⟩
    have hdry : ¬ (Entropy.ofBytes (List.replicate n 7)).has 48 = true := by
      rw [Entropy.has_ofBytes_iff, List.length_replicate]
      omega
    exact (response_of_runsDry .twoSigners g
      { clock := (Traffic.twoCalls false).echoing.clock, entropy := .ofBytes (List.replicate n 7) }
      hread).2 hroute _ hreceive (h.runsDry_replyWith hdry)

/-- A login that has been opened, and whose reply is not sealed since there is no byte left for the
nonce: it is answered with the status of a request that cannot be opened. -/
theorem dryReply_is_unprocessable :
    ∃ (g : Gateway) (call : HttpCall) (request : SealedRequest) (session : Session)
        (user password : Bytes),
      call.IsTo .login
        ∧ readBody SealedRequest.reading call = .ok request
        ∧ (Responder.receive .twoSigners FirstLogin.oneSecondLater.admitting.clock g.prekeys request).1
          = .ok (session, [user, password])
        ∧ g.credentialsMatch user password = true
        ∧ RunsDry (grantLogin .twoSigners FirstLogin.oneSecondLater.admitting.clock session)
          (.ofBytes (List.replicate 32 7))
        ∧ (g.answer .twoSigners FirstLogin.oneSecondLater.admitting.clock call
          (.ofBytes (List.replicate 32 7))).1.1.status = 422 := by
  have h := FirstLogin.ready_oneSecondLater
  obtain ⟨envelope, hroute, hread, hreceive⟩ := h.exists_opened Suite.twoSigners_deciphers
  generalize ((ofConfig {}).perform .twoSigners
    (FirstLogin.oneSecondLater.offer .twoSigners)).2 = g at hreceive
  have hmatch : g.credentialsMatch (Utf8.encode g.user) (Utf8.encode g.password) = true :=
    credentialsMatch_iff.2 ⟨rfl, rfl⟩
  have hdry : RunsDry (grantLogin .twoSigners FirstLogin.oneSecondLater.admitting.clock _) _ :=
    h.runsDry_grantLogin (e := .ofBytes (List.replicate 32 7)) (by decide)
  refine ⟨g, _, _, _, _, _, hroute, hread, hreceive, hmatch, hdry, ?_⟩
  rw [answer_of_login hroute hread, answerLogin_of_runsDry hreceive hmatch hdry,
    if_pos (by decide)]
  rfl

end Gateway

end SealedEnvelope
