import SealedEnvelope.Proofs.Call.LoginState
import SealedEnvelope.Proofs.Json.Records

/-!
# `SealedEnvelope.Proofs.Call.AnsweredLogin`: a login that is answered

A login sends two requests. If a transport answers both of them, whatever it is and whatever time
passes at the client meanwhile, the login ends with what the client makes of the second response
(`Client.perform_login`). A response of another status than 200 is a rejection, and one of the
status 200 grants a login if its envelope holds one.

Main statements:

* `Client.requestLogin_of_answers`: a login over a transport that answers both requests;
* `Client.perform_login` and `Client.perform_post`: what becomes of the client;
* `Client.readLoginReply_of_unpack`: what the client reads of a reply that grants a login;
* `Login.read_written`: a login is read back from the JSON that grants it.
-/

set_option autoImplicit false

namespace SealedEnvelope

open Utf8 (encodeChars)
open JsonReader (Gathers fieldMember)

variable {σ : Type}

/-- Whether a transport answers a request with a response, whatever the client finds around it
when it sends the request. -/
def Transport.Answers (transport : Transport σ) (request : HttpRequest) (peer : σ)
    (response : HttpResponse) (later : World) (peer' : σ) : Prop :=
  ∀ world, transport request (world, peer) = (.ok response, (later, peer'))

namespace Client

variable {s : Suite} {transport : Transport σ} {client : Client} {world sealing opening : World}
  {peer peer' peer'' : σ} {answer reply : HttpResponse} {session : Session} {request : HttpRequest}
  {user password : String}

/-! ## The two requests -/

/-- A handshake whose offer is answered ends with what is read of the answer. -/
theorem handshake_of_answers (he : world.entropy.has 96 = true)
    (hoffer : transport.Answers (client.offerRequest s (Bundle.drawn world.entropy)) peer answer
      sealing peer')
    (hanswer : readAnswer s (Bundle.drawn world.entropy) answer = .ok (.established session)) :
    client.handshake s transport (world, peer) = (.ok (.established session), (sealing, peer')) := by
  have hdraw := Exchange.draw_of_eq_ok
    (Drawing.mapError_of_eq_ok (Bundle.draw_of_has he) fun _ => CallError.random) peer
  rw [handshake, Exchange.bind_of_eq_ok hdraw, Exchange.bind_of_eq_ok (hoffer _), hanswer]
  rfl

/-- A payload is sent sealed in the world that the client finds with the answer. -/
theorem sendSealed_of_answers (he : world.entropy.has 96 = true)
    (hoffer : transport.Answers (client.offerRequest s (Bundle.drawn world.entropy)) peer answer
      sealing peer')
    (hanswer : readAnswer s (Bundle.drawn world.entropy) answer = .ok (.established session))
    {path : String} {payload : List Bytes}
    (hrequest : (client.sealedRequest s sealing.clock.wall session path payload sealing.entropy).1
      = .ok request)
    (hsent : transport.Answers request peer' reply opening peer'') :
    client.sendSealed s transport path payload (world, peer)
      = (.ok (.answered session reply), (opening, peer'')) := by
  obtain ⟨e, hdraw⟩ := Drawing.exists_of_fst_eq_ok hrequest
  rw [sendSealed, Exchange.bind_of_eq_ok (handshake_of_answers he hoffer hanswer)]
  refine (Exchange.bind_of_eq_ok (Exchange.now_apply sealing _)).trans ?_
  refine (Exchange.bind_of_eq_ok (Exchange.draw_of_eq_ok hdraw _)).trans ?_
  exact Exchange.bind_of_eq_ok (hsent _)

/-- A login ends with what is read of the reply. -/
theorem requestLogin_of_answers (he : world.entropy.has 96 = true)
    (hoffer : transport.Answers (client.offerRequest s (Bundle.drawn world.entropy)) peer answer
      sealing peer')
    (hanswer : readAnswer s (Bundle.drawn world.entropy) answer = .ok (.established session))
    (hrequest : (client.sealedRequest s sealing.clock.wall session client.config.loginPath
      [Utf8.encode user, Utf8.encode password] sealing.entropy).1 = .ok request)
    (hsent : transport.Answers request peer' reply opening peer'') :
    client.requestLogin s transport user password (world, peer)
      = (readLoginReply s opening.clock.wall session reply, (opening, peer'')) := by
  rw [requestLogin, Exchange.bind_of_eq_ok (sendSealed_of_answers he hoffer hanswer hrequest hsent)]
  exact Exchange.bind_of_eq_ok (Exchange.now_apply opening peer'')

/-- A login whose offer is not sent ends with that, and leaves the peer as it is. -/
theorem exists_requestLogin_of_unsent (he : world.entropy.has 96 = true) {err : CallError}
    (hoffer : ∀ world', transport (client.offerRequest s (Bundle.drawn world.entropy)) (world', peer)
      = (.error err, (world', peer))) :
    ∃ later, client.requestLogin s transport user password (world, peer)
      = (.error err, (later, peer)) := by
  have hdraw := Exchange.draw_of_eq_ok
    (Drawing.mapError_of_eq_ok (Bundle.draw_of_has he) fun _ => CallError.random) peer
  have hhandshake : client.handshake s transport (world, peer) = _ :=
    (Exchange.bind_of_eq_ok hdraw).trans (Exchange.bind_of_eq_error (hoffer _))
  exact ⟨_, Exchange.bind_of_eq_error (Exchange.bind_of_eq_error hhandshake)⟩

/-! ## What becomes of the client -/

/-- A login is what comes of it, and the client that has made of it what it should. -/
theorem perform_login {before after : World × σ} {result : Except CallError LoginOutcome}
    (h : client.requestLogin s transport user password before = (result, after)) :
    perform s transport (.login user password) client before
      = ((result.map .login, client.after (result.map .login)), after) := by
  have houtcome : client.outcome s transport (.login user password) before
      = (result.map .login, after) := by
    rw [outcome, Exchange.bind_pure_apply, h]
  rw [perform_eq, houtcome]

/-- A plain request that is answered with the status 200 ends with the response, and leaves the
client as it is. -/
theorem perform_post {path : String} {body : Option JsonValue} (insists : Bool)
    (hsent : transport.Answers (client.request path body) peer reply opening peer')
    (hok : reply.isOk = true) (world : World) :
    perform s transport (.post path body insists) client (world, peer)
      = ((.ok (.post (.answered reply)), client), (opening, peer')) := by
  have hpost : client.post transport path body insists (world, peer)
      = (.ok (.answered reply), (opening, peer')) := by
    rw [post, Exchange.bind_of_eq_ok (hsent world), hok, Bool.not_true, Bool.and_false]
    rfl
  have houtcome : client.outcome s transport (.post path body insists) (world, peer)
      = (.ok (.post (.answered reply)), (opening, peer')) := Exchange.bind_of_eq_ok hpost
  rw [perform_eq, houtcome]
  rfl

/-! ## What is read of a reply -/

/-- A response of another status than 200 is a rejection. -/
theorem readLoginReply_of_not_isOk {now : Instant} (h : reply.isOk = false) :
    readLoginReply s now session reply = .ok (.rejected reply) := by
  rw [readLoginReply, if_pos (by rw [h]; exact Bool.false_ne_true)]
  rfl

/-- A reply whose envelope holds a login grants it. -/
theorem readLoginReply_of_unpack {now : Instant} (hok : reply.isOk = true) {body : JsonValue}
    (hjson : reply.json = .ok body) {envelope : String} (hmember : envelope? body = some envelope)
    {first : Bytes} {rest : List Bytes} (hunpack : session.unpack s now envelope = .ok (first :: rest))
    {granted : Login} (hread : Login.read first = .ok granted) :
    readLoginReply s now session reply = .ok (.loggedIn granted) := by
  rw [readLoginReply, if_neg (not_not_intro hok), hjson]
  simp only [CallError.onJson_ok, hmember, hunpack, CallError.onEnvelope_ok, bind, Except.bind, hread]
  rfl

end Client

/-! ## The JSON that grants a login -/

namespace Login

/-- The members are found in the order in which they are written. -/
theorem gathers_fields (key user : String) :
    Gathers (fieldMember (JsonReader.maxDepth - 1) fields) []
      (textMembers [("session_key", key), ("user_id", user)])
      [("user_id", .string user), ("session_key", .string key)] := by
  have huser : Gathers (fieldMember (JsonReader.maxDepth - 1) fields)
      [("session_key", .string key)] [("user_id", .string user)]
      [("user_id", .string user), ("session_key", .string key)] := by
    refine .cons rfl (fun rest hrest => ?_) (.nil _)
    show Except.map _ (JsonReader.value JsonReader.strict _
      (encodeChars (JsonValue.string user).chars ++ rest)) = _
    rw [JsonReader.value_written (.string user) (.string user) (Nat.zero_le _) hrest]
    rfl
  refine .cons rfl (fun rest _ => ?_) huser
  show Except.map _ (Except.map _
    (JsonReader.string (encodeChars (JsonValue.string key).chars ++ rest))) = _
  rw [JsonReader.string_written]
  rfl

/-- A login with a session key is read back. -/
theorem read_written {key : String} (hkey : key ≠ "") (user : String) :
    read (JsonValue.ofMembers [("session_key", .string key), ("user_id", .string user)]).bytes
      = .ok { sessionKey := key, userId := user } := by
  have hmembers : JsonValue.ofMembers [("session_key", .string key), ("user_id", .string user)]
      = .object (textMembers [("session_key", key), ("user_id", user)]) :=
    JsonValue.ofMembers_eq (.of_keys ["session_key", "user_id"] rfl (by decide)) (.refl _)
  have hrecord : JsonReader.record fields
      (encodeChars (JsonValue.object
        (textMembers [("session_key", key), ("user_id", user)])).chars ++ [])
        = .ok ([.string key, .string user], []) := by
    rw [JsonReader.encodeChars_object, JsonReader.record, JsonReader.skipBlanks_cons (by decide)]
    show (JsonReader.members JsonReader.stringText _ _ true [] _ >>= _) = _
    rw [JsonReader.members_of_gathers (gathers_fields key user) []]
    rfl
  rw [List.append_nil, ← JsonValue.bytes_eq] at hrecord
  have hnonempty : ¬ key.isEmpty = true := fun h => hkey (String.isEmpty_iff.1 h)
  rw [hmembers, read, JsonReader.whole_eq_ok hrecord]
  exact if_neg hnonempty

end Login

end SealedEnvelope
