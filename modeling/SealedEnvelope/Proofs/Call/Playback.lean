import SealedEnvelope.Call.Client
import SealedEnvelope.Proofs.Handshake.Completion

/-!
# `SealedEnvelope.Proofs.Call.Playback`: calls that wait for their responses

A client that has sent a request does nothing until the response is there. What it has done up
to then is what it does with a transport that plays the responses it has had so far back to it
and then gives none: `Playback` is such a transport. It notes the requests, and the last one
that it notes is the one that is waited for.

Main statements:

* `Client.call_of_nil`: without responses a call has sent an offer;
* `Client.call_of_singleton`: with the answer to the offer it has sent a sealed request;
* `Client.call_of_pair`: with the reply to that it ends.
-/

set_option autoImplicit false

namespace SealedEnvelope

/-! ## Computations that talk to a peer -/

namespace Exchange

variable {σ α β : Type} {x : Exchange σ α} {f : α → Exchange σ β} {before after : World × σ}

/-- A computation goes on from where its first step has ended. -/
theorem bind_of_eq_ok {a : α} (h : x before = (.ok a, after)) : (x >>= f) before = f a after := by
  show ExceptT.bind x f before = _
  simp only [ExceptT.bind, ExceptT.mk, bind, StateT.bind, h]
  rfl

/-- It ends where a step fails. -/
theorem bind_of_eq_error {err : CallError} (h : x before = (.error err, after)) :
    (x >>= f) before = (.error err, after) := by
  show ExceptT.bind x f before = _
  simp only [ExceptT.bind, ExceptT.mk, bind, StateT.bind, h]
  rfl

/-- The time on the wall is that of the world. -/
theorem now_apply (world : World) (peer : σ) :
    now (world, peer) = (.ok world.clock.wall, (world, peer)) :=
  rfl

/-- Random bytes are drawn from the world. -/
theorem draw_of_eq_ok {drawing : Drawing CallError α} {world : World} {a : α} {e : Entropy}
    (h : drawing world.entropy = (.ok a, e)) (peer : σ) :
    draw drawing (world, peer) = (.ok a, ({ world with entropy := e }, peer)) := by
  rw [draw, World.draw, h]

/-- What is made of the result of a computation, and nothing else done. -/
theorem bind_ofResult (x : Exchange σ α) (f : α → Except CallError β) (before : World × σ) :
    (x >>= fun a => ofResult (f a)) before = ((x before).1 >>= f, (x before).2) := by
  cases hresult : x before with
  | mk result after =>
    cases result with
    | error err =>
      rw [bind_of_eq_error hresult]
      rfl
    | ok a =>
      rw [bind_of_eq_ok hresult]
      rfl

/-- A result that is renamed in the end. -/
theorem bind_pure_apply (x : Exchange σ α) (f : α → β) (before : World × σ) :
    (x >>= fun a => Pure.pure (f a)) before = ((x before).1.map f, (x before).2) := by
  refine (bind_ofResult x (fun a => .ok (f a)) before).trans ?_
  cases (x before).1 <;> rfl

end Exchange

/-! ## The transport -/

/-- The responses that a client has had, each with the world that it found around it then, and
the requests that it has sent. -/
structure Playback where
  replies : List (HttpResponse × World)
  sent : List HttpRequest := []

namespace Playback

/-- Answers a request with the next response, and fails if there is none. -/
def transport : Transport Playback := fun request state =>
  match state.2.replies with
  | [] =>
    (.error (.transport "no response yet"),
      (state.1, { replies := [], sent := state.2.sent ++ [request] }))
  | (response, later) :: replies =>
    (.ok response, (later, { replies := replies, sent := state.2.sent ++ [request] }))

theorem transport_nil (request : HttpRequest) (world : World) (sent : List HttpRequest) :
    transport request (world, { replies := [], sent := sent })
      = (.error (.transport "no response yet"),
        (world, { replies := [], sent := sent ++ [request] })) :=
  rfl

theorem transport_cons (request : HttpRequest) (world later : World) (response : HttpResponse)
    (replies : List (HttpResponse × World)) (sent : List HttpRequest) :
    transport request (world, { replies := (response, later) :: replies, sent := sent })
      = (.ok response, (later, { replies := replies, sent := sent ++ [request] })) :=
  rfl

end Playback

/-! ## Secured calls -/

namespace Client

open Playback (transport transport_nil transport_cons)

variable {s : Suite} {client : Client} {path : String} {headers : Headers} {body : JsonValue}
  {world sealing opening : World} {answer reply : HttpResponse} {session : Session}
  {request : HttpRequest}

/-- An answer that leads to a session establishes it. -/
theorem readAnswer_of_isOk {bundle : Bundle} (hok : answer.isOk = true) {found : Answer}
    (hread : JsonReader.whole Answer.reading answer.body = .ok found)
    (hcomplete : bundle.complete s found = .ok session) :
    readAnswer s bundle answer = .ok (.established session) := by
  unfold readAnswer
  simp only [hok, not_true_eq_false, if_false, hread, CallError.onJson_ok, bind,
    Except.bind, hcomplete, CallError.onEnvelope_ok]
  rfl

/-- A sealed request is made of an envelope, and is for the index of the session. -/
theorem fst_sealedRequest (s : Suite) (now : Instant) (client : Client) (session : Session)
    (path : String) (payload : List Bytes) (e : Entropy) :
    (client.sealedRequest s now session path payload e).1
      = CallError.onEnvelope (session.pack s now payload e).1 >>= fun envelope =>
          .ok (client.request path (some (.ofMembers
            (SealedRequest.members { index := session.index, envelope := envelope })))) :=
  Drawing.fst_bind_pure (Drawing.mapError CallError.envelope (session.pack s now payload)) _ e

/-- It is made once its envelope is. -/
theorem sealedRequest_of_pack {now : Instant} {payload : List Bytes} {e : Entropy}
    {envelope : String} (h : (session.pack s now payload e).1 = .ok envelope) :
    (client.sealedRequest s now session path payload e).1
      = .ok (client.request path (some (.ofMembers
          (SealedRequest.members { index := session.index, envelope := envelope })))) := by
  rw [fst_sealedRequest, h]
  rfl

/-- A handshake begins with the keys and the offer of them. -/
theorem handshake_of_has (s : Suite) (client : Client) (he : world.entropy.has 96 = true)
    (playback : Playback) :
    ∃ e, client.handshake s transport (world, playback)
      = ((transport (client.offerRequest s (Bundle.drawn world.entropy)) >>= fun response =>
          Exchange.ofResult (readAnswer s (Bundle.drawn world.entropy) response)) :
            Exchange Playback HandshakeOutcome) ({ world with entropy := e }, playback) :=
  ⟨_, Exchange.bind_of_eq_ok (Exchange.draw_of_eq_ok
    (Drawing.mapError_of_eq_ok (Bundle.draw_of_has he) fun _ => .random) playback)⟩

/-- With an answer that leads to a session, the handshake ends. -/
theorem handshake_of_cons (he : world.entropy.has 96 = true)
    (hanswer : readAnswer s (Bundle.drawn world.entropy) answer = .ok (.established session))
    (replies : List (HttpResponse × World)) :
    client.handshake s transport (world, { replies := (answer, sealing) :: replies })
      = (.ok (.established session), (sealing,
        { replies := replies, sent := [client.offerRequest s (Bundle.drawn world.entropy)] })) := by
  obtain ⟨e, hhandshake⟩ := handshake_of_has s client he
    { replies := (answer, sealing) :: replies }
  rw [hhandshake, Exchange.bind_of_eq_ok (transport_cons ..), Exchange.ofResult, hanswer]
  rfl

/-- Without responses a call has sent an offer. -/
theorem call_of_nil (he : world.entropy.has 96 = true) :
    (client.call s transport path headers body (world, { replies := [] })).2.2.sent
      = [client.offerRequest s (Bundle.drawn world.entropy)] := by
  obtain ⟨e, hhandshake⟩ := handshake_of_has s client he { replies := [] }
  rw [Exchange.bind_of_eq_error (transport_nil ..)] at hhandshake
  rw [call, sendSealed, Exchange.bind_of_eq_error (Exchange.bind_of_eq_error hhandshake)]
  rfl

/-- With an answer the sealed request is made in the world that the client then finds. -/
theorem sendSealed_of_cons (he : world.entropy.has 96 = true)
    (hanswer : readAnswer s (Bundle.drawn world.entropy) answer = .ok (.established session))
    {payload : List Bytes}
    (hrequest : (client.sealedRequest s sealing.clock.wall session path payload sealing.entropy).1
      = .ok request) (replies : List (HttpResponse × World)) :
    ∃ e, client.sendSealed s transport path payload (world, { replies := (answer, sealing) :: replies })
      = ((transport request >>= fun response => pure (.answered session response)) :
          Exchange Playback SealedOutcome) ({ sealing with entropy := e },
        { replies := replies, sent := [client.offerRequest s (Bundle.drawn world.entropy)] }) := by
  obtain ⟨e, hdraw⟩ := Drawing.exists_of_fst_eq_ok hrequest
  refine ⟨e, ?_⟩
  rw [sendSealed, Exchange.bind_of_eq_ok (handshake_of_cons he hanswer replies)]
  refine (Exchange.bind_of_eq_ok (Exchange.now_apply sealing _)).trans ?_
  exact Exchange.bind_of_eq_ok (Exchange.draw_of_eq_ok hdraw _)

/-- With the answer to the offer it has sent a sealed request. -/
theorem call_of_singleton (he : world.entropy.has 96 = true)
    (hanswer : readAnswer s (Bundle.drawn world.entropy) answer = .ok (.established session))
    (hrequest : (client.sealedRequest s sealing.clock.wall session path
      (Payload.encodeRequest headers body) sealing.entropy).1 = .ok request) :
    (client.call s transport path headers body (world, { replies := [(answer, sealing)] })).2.2.sent
      = [client.offerRequest s (Bundle.drawn world.entropy), request] := by
  obtain ⟨e, hsend⟩ := sendSealed_of_cons he hanswer hrequest []
  rw [Exchange.bind_of_eq_error (transport_nil ..)] at hsend
  rw [call, Exchange.bind_of_eq_error hsend]
  rfl

/-- With the reply to that it ends. -/
theorem call_of_pair (he : world.entropy.has 96 = true)
    (hanswer : readAnswer s (Bundle.drawn world.entropy) answer = .ok (.established session))
    (hrequest : (client.sealedRequest s sealing.clock.wall session path
      (Payload.encodeRequest headers body) sealing.entropy).1 = .ok request) :
    (client.call s transport path headers body
        (world, { replies := [(answer, sealing), (reply, opening)] })).1
      = readCallReply s opening.clock.wall session reply := by
  obtain ⟨e, hsend⟩ := sendSealed_of_cons he hanswer hrequest [(reply, opening)]
  rw [Exchange.bind_of_eq_ok (transport_cons ..)] at hsend
  rw [call, Exchange.bind_of_eq_ok hsend]
  rfl

end Client

end SealedEnvelope
