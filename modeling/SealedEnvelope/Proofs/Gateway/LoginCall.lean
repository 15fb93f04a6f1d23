import SealedEnvelope.Proofs.Gateway.EchoCall
import SealedEnvelope.Proofs.Gateway.LoginTable

/-!
# `SealedEnvelope.Proofs.Gateway.LoginCall`: a login that is granted

What a gateway grants is told in `Served.Grants`. Here is what has to be so for it to grant a
login: the prekey of the request is there, its session opens the envelope, the user and the
password are the right ones, and there are random bytes for the session key and the reply.

Main statements:

* `Gateway.answerLogin_of_opened`: what becomes of a login that has been opened;
* `Gateway.grants_of_unpack`: a login for which all of that is so is granted;
* `FirstLogin.Ready.exists_grants`: a client with the right password logs in after its offer.
-/

set_option autoImplicit false

namespace SealedEnvelope

namespace Gateway

variable {s : Suite} {g : Gateway} {world : World} {call : HttpCall} {session : Session}

/-- Where there are random bytes for the session key, what remains is to seal the reply. -/
theorem grantLogin_of_has {clock : Clock} {e : Entropy} (he : e.has sessionKeyLength = true) :
    grantLogin s clock session e
      = (Responder.reply s clock.wall session (loginReply (drawnKey e)) >>= fun reply =>
          pure (drawnKey e, reply)) (e.advance sessionKeyLength) := by
  unfold grantLogin
  rw [Drawing.bind_of_eq_ok (Drawing.bytes_of_has he _)]
  rfl

/-- A login is granted where there are random bytes for it and the reply fits. -/
theorem exists_grantLogin {clock : Clock} {e : Entropy} (he : e.has 80 = true)
    (hsize : Envelope.stampedLength clock.wall session.index (loginReply (drawnKey e))
      < LengthValue.ceiling) :
    ∃ reply, (grantLogin s clock session e).1 = .ok (drawnKey e, reply) := by
  have hreply : (e.advance sessionKeyLength).has 48 = true := Entropy.has_advance he
  obtain ⟨envelope, hpack, -⟩ := Envelope.exists_pack_of_stampedLength_lt (s := s) session.signing
    (EchoCall.ofBytes?_secret session.sealingKey) hreply hsize
  obtain ⟨e', hsealed⟩ := Drawing.exists_of_fst_eq_ok (Responder.reply_of_pack_ok hpack)
  refine ⟨{ envelope := Hex.encode envelope }, ?_⟩
  rw [grantLogin_of_has (Entropy.has_of_le he (by decide))]
  exact congrArg Prod.fst (Drawing.bind_of_eq_ok hsealed)

/-- A user and a password match exactly if they are, byte for byte, the ones of the gateway. -/
theorem credentialsMatch_iff {user password : Bytes} :
    g.credentialsMatch user password = true
      ↔ user = Utf8.encode g.user ∧ password = Utf8.encode g.password := by
  rw [credentialsMatch, Bool.and_eq_true, beq_iff_eq, beq_iff_eq]
  exact and_congr eq_comm eq_comm

theorem credentialsMatch_encode_iff {user password : String} :
    g.credentialsMatch (Utf8.encode user) (Utf8.encode password) = true
      ↔ user = g.user ∧ password = g.password := by
  rw [credentialsMatch_iff]
  constructor
  · rintro ⟨huser, hpassword⟩
    exact ⟨Utf8.encode_inj huser, Utf8.encode_inj hpassword⟩
  · rintro ⟨rfl, rfl⟩
    exact ⟨rfl, rfl⟩

section
variable {clock : Clock} {request : SealedRequest} {user password : Bytes} {rest : List Bytes}
  {e : Entropy}

/-- What becomes of a login that has been opened to a user and a password. -/
theorem answerLogin_of_opened
    (hreceive : (Responder.receive s clock g.prekeys request).1 = .ok (session, user :: password :: rest)) :
    (g.answerLogin s clock request e).1
      = if g.credentialsMatch user password = true then
          match (grantLogin s clock session e).1 with
          | .ok (key, reply) =>
            (sealedResponse (.ok reply),
              { g with prekeys := (Responder.receive s clock g.prekeys request).2
                       logins := g.logins.insert (LoginTable.hashOf s key) (loginRecord clock) })
          | .error error =>
            (rejectError error, { g with prekeys := (Responder.receive s clock g.prekeys request).2 })
        else
          (reject 401 "INVALID_CREDENTIAL" "user or password mismatch",
            { g with prekeys := (Responder.receive s clock g.prekeys request).2 }) := by
  unfold answerLogin
  generalize Responder.receive s clock g.prekeys request = received at hreceive
  obtain ⟨received, prekeys⟩ := received
  obtain rfl : received = .ok _ := hreceive
  by_cases hmatch : g.credentialsMatch user password = true
  · rw [if_pos hmatch]
    refine (congrArg Prod.fst (congrFun (if_pos hmatch) e)).trans ?_
    simp only [bind, StateT.bind, ExceptT.run]
    generalize grantLogin s clock session e = granted
    obtain ⟨granted, e'⟩ := granted
    cases granted with
    | ok granted => rfl
    | error error => rfl
  · rw [if_neg hmatch]
    exact (congrArg Prod.fst (congrFun (if_neg hmatch) e)).trans rfl

/-- A login with the right user and password is told its reply, if there is one, and is kept
under the hash of its session key. -/
theorem answerLogin_of_match {key : String} {reply : SealedReply}
    (hreceive : (Responder.receive s clock g.prekeys request).1 = .ok (session, user :: password :: rest))
    (hmatch : g.credentialsMatch user password = true)
    (hgrant : (grantLogin s clock session e).1 = .ok (key, reply)) :
    (g.answerLogin s clock request e).1
      = (sealedResponse (.ok reply),
        { g with prekeys := (Responder.receive s clock g.prekeys request).2
                 logins := g.logins.insert (LoginTable.hashOf s key) (loginRecord clock) }) := by
  rw [answerLogin_of_opened hreceive, if_pos hmatch, hgrant]

/-- If there is none, it is told why, and the logins stay as they are. -/
theorem answerLogin_of_grant_error {error : CallError}
    (hreceive : (Responder.receive s clock g.prekeys request).1 = .ok (session, user :: password :: rest))
    (hmatch : g.credentialsMatch user password = true)
    (hgrant : (grantLogin s clock session e).1 = .error error) :
    (g.answerLogin s clock request e).1
      = (rejectError error, { g with prekeys := (Responder.receive s clock g.prekeys request).2 }) := by
  rw [answerLogin_of_opened hreceive, if_pos hmatch, hgrant]

/-- A login with another user or password is turned away, and the logins stay as they are. -/
theorem answerLogin_of_mismatch
    (hreceive : (Responder.receive s clock g.prekeys request).1 = .ok (session, user :: password :: rest))
    (hmismatch : ¬ g.credentialsMatch user password = true) :
    (g.answerLogin s clock request e).1
      = (reject 401 "INVALID_CREDENTIAL" "user or password mismatch",
        { g with prekeys := (Responder.receive s clock g.prekeys request).2 }) := by
  rw [answerLogin_of_opened hreceive, if_neg hmismatch]

end

/-- A login is granted if its prekey is there, the session of the prekey opens the envelope, and
the user and the password in it are the right ones. -/
theorem grants_of_unpack {request : SealedRequest} {rest : List Bytes}
    (hposts : call.Posts .login (.ofMembers request.members))
    (hlength : (JsonValue.ofMembers request.members).bytes.length ≤ maxBodyLength)
    (htake : (g.prekeys.take world.clock.steady request.index).1 = .ok session)
    (hunpack : session.unpack s world.clock.wall request.envelope
      = .ok (Utf8.encode g.user :: Utf8.encode g.password :: rest))
    (hentropy : world.entropy.has 80 = true)
    (hsize : Envelope.stampedLength world.clock.wall session.index
      (loginReply (drawnKey world.entropy)) < LengthValue.ceiling) :
    Served.Grants s ⟨world, call, (g.answer s world.clock call world.entropy).1.1⟩
      (drawnKey world.entropy) := by
  have hmethod : call.method ∈ Route.methods .login := by
    rw [hposts.method]
    decide
  have hread := readBody_of_posts hposts hlength request.reading_members
  obtain ⟨reply, hgrant⟩ := exists_grantLogin (s := s) hentropy hsize
  have hanswer : (g.answer s world.clock call world.entropy).1.1 = sealedResponse (.ok reply) := by
    rw [answer_of_route hposts.target hmethod, answerRoute, hread]
    exact congrArg Prod.fst (answerLogin_of_match (Responder.receive_of_take_ok htake hunpack)
      (credentialsMatch_encode_iff.2 ⟨rfl, rfl⟩) hgrant)
  obtain ⟨-, envelope, hpack, rfl⟩ := of_grantLogin_eq_ok hgrant
  exact ⟨⟨hposts.target, hmethod⟩, rfl, session, envelope, hpack, hanswer⟩

end Gateway

/-! ## A login after an offer -/

namespace HttpCall

/-- A post of a JSON value to a path. -/
def post (path : String) (value : JsonValue) : HttpCall where
  method := "POST"
  target := { path := path }
  headers := [("content-type", Utf8.encode "application/json")]
  body := value.bytes

theorem posts_post {path : String} {route : Route} (h : Route.ofPath? path = some route)
    (value : JsonValue) : (post path value).Posts route value where
  method := rfl
  target := h
  contentType := headerText?_of_headers_eq_cons rfl (by decide +kernel) (by decide +kernel)
  body := rfl

/-- A post without a body that bears a token. -/
def withToken (path token : String) : HttpCall where
  method := "POST"
  target := { path := path }
  headers := [("authorization", Utf8.encode ("Bearer " ++ token))]
  body := []

theorem isTo_withToken {path : String} {route : Route} (h : Route.ofPath? path = some route)
    (hmethod : "POST" ∈ route.methods) (token : String) : (withToken path token).IsTo route :=
  ⟨h, hmethod⟩

theorem bears_withToken {token : String} (path : String)
    (hvisible : (Utf8.encode ("Bearer " ++ token)).all
      (fun b => (0x20 ≤ b.toNat && b.toNat < 0x7F) || b == 0x09) = true) :
    (withToken path token).Bears token :=
  headerText?_of_headers_eq_cons rfl (by decide +kernel) hvisible

end HttpCall

/-- A client that makes an offer to a gateway and then logs in. -/
structure FirstLogin where
  /-- The keys of the client. -/
  initiator : Bundle
  /-- Around the gateway, when it answers the offer. -/
  offering : World
  /-- Around the client, when it seals the login. -/
  sealing : World
  /-- Around the gateway, when it is asked for the login. -/
  admitting : World

namespace FirstLogin

/-- The keys of the gateway. -/
def responder (l : FirstLogin) : Bundle := PrekeyStore.drawnKeys l.offering.entropy

/-- The index of the prekey. -/
def index (l : FirstLogin) : String := PrekeyStore.drawnIndex l.offering.entropy

/-- The sessions of both. -/
def sessions (s : Suite) (l : FirstLogin) : Role → Session :=
  Role.pick (l.initiator.session s l.responder .initiator l.index)
    (l.responder.session s l.initiator .responder l.index)

/-- The offer comes in. -/
def offer (s : Suite) (l : FirstLogin) : GatewayEvent :=
  .call l.offering (.post "/self/prekey" (.ofMembers (l.initiator.offer s).members))

/-- What the client seals. -/
def writing (l : FirstLogin) (user password : String) : Attempt where
  writer := .initiator
  now := l.sealing.clock.wall
  payload := [Utf8.encode user, Utf8.encode password]
  entropy := l.sealing.entropy

/-- The sealed login. -/
def call (l : FirstLogin) (envelope : String) : HttpCall :=
  .post "/self/login" (.ofMembers (SealedRequest.members { index := l.index, envelope := envelope }))

/-- The session key that the login is granted with. -/
def sessionKey (l : FirstLogin) : String := Gateway.drawnKey l.admitting.entropy

/-- What has to be so for the login to be granted by a gateway. -/
structure Ready (s : Suite) (g : Gateway) (l : FirstLogin) : Prop where
  /-- The keys go together. -/
  compatible : l.initiator.Compatible s l.responder
  /-- There are random bytes for the keys, the index, the envelopes and the session key. -/
  has_offering : l.offering.entropy.has 112 = true
  has_sealing : l.sealing.entropy.has 48 = true
  has_admitting : l.admitting.entropy.has 80 = true
  /-- The user and the password fit into a body. -/
  fits : 47 + 2 * (4 + Envelope.valueLength l.index (l.writing g.user g.password).payload)
    ≤ Gateway.maxBodyLength
  /-- The prekey does not wait longer than it can be used. -/
  waits : l.admitting.clock.steady - l.offering.clock.steady ≤ g.prekeys.limits.lifetime
  /-- The envelopes can be stamped, and the login comes in at most 299 seconds later. -/
  sealing_stampable : EchoCall.Stampable l.sealing.clock.wall
  admitting_stampable : EchoCall.Stampable l.admitting.clock.wall
  age : l.admitting.clock.wall.unixNanos - l.sealing.clock.wall.unixNanos ≤ 299 * nanosPerSecond

variable {s : Suite} {g : Gateway} {l : FirstLogin}

/-- What the reply to a login seals is always as long. -/
theorem length_loginReply (e : Entropy) :
    Envelope.payloadLength (Gateway.loginReply (Gateway.drawnKey e)) = 100 := by
  have hname : (Utf8.encodeChars (quoteChars "session_key")).length = 13
      ∧ (Utf8.encodeChars (quoteChars "user_id")).length = 9
      ∧ (Utf8.encodeChars (JsonValue.string Gateway.userId).chars).length = 3 := by
    decide +kernel
  have hkey : (Utf8.encodeChars (JsonValue.string (Gateway.drawnKey e)).chars).length = 66 := by
    rw [Gateway.drawnKey, length_string_hex, (e.peek _).property]
    rfl
  have hmembers : JsonValue.ofMembers [("session_key", .string (Gateway.drawnKey e)),
      ("user_id", .string Gateway.userId)] = .object [("session_key", .string (Gateway.drawnKey e)),
        ("user_id", .string Gateway.userId)] :=
    JsonValue.ofMembers_eq (.of_keys ["session_key", "user_id"] rfl (by decide)) (.refl _)
  simp only [Envelope.payloadLength, Gateway.loginReply, hmembers, List.flatMap_cons,
    List.flatMap_nil, List.append_nil, LengthValue.length_element, LengthValue.markLength,
    JsonValue.length_bytes_object, membersLength, length_memberText, hname, hkey]

/-- The reply to a login that fits can be sealed. -/
theorem stampedLength_loginReply_lt (h : l.Ready s g) (e : Entropy) :
    Envelope.stampedLength l.admitting.clock.wall l.index (Gateway.loginReply (Gateway.drawnKey e))
      < LengthValue.ceiling := by
  have hfits := h.fits
  rw [Envelope.stampedLength_eq h.admitting_stampable.year_nonneg h.admitting_stampable.year_le,
    Envelope.valueLength, length_loginReply, LengthValue.ceiling]
  rw [Envelope.valueLength, Gateway.maxBodyLength] at hfits
  omega

/-- The offer leaves a prekey behind. -/
theorem perform_offer (h : l.Ready s g) :
    (g.perform s (l.offer s)).2 = { g with
      prekeys := g.prekeys.insert (PrekeyStore.drawnEntry s l.offering.clock.steady l.initiator
        l.offering.entropy) } :=
  congrArg Prod.snd (Gateway.answer_offer (HttpCall.posts_post rfl _) h.has_offering h.compatible g)

/-- The prekey is still there when the login comes in. -/
theorem take_perform_offer (h : l.Ready s g) :
    ((g.perform s (l.offer s)).2.prekeys.take l.admitting.clock.steady l.index).1
      = .ok (l.sessions s .responder) := by
  let entry := PrekeyStore.drawnEntry s l.offering.clock.steady l.initiator l.offering.entropy
  have hfind : (g.prekeys.insert entry).find? l.index = some entry :=
    PrekeyStore.find?_insert_self g.prekeys entry
  have hlive : PrekeyStore.isLive (g.prekeys.insert entry).limits l.admitting.clock.steady entry
      = true :=
    decide_eq_true h.waits
  rw [perform_offer h, PrekeyStore.take_of_find?_eq_some _ hfind, if_pos hlive]
  rfl

/-- The login is sealed, and is short enough to come in. -/
theorem exists_text (h : l.Ready s g) :
    ∃ envelope : String, (l.writing g.user g.password).text s (l.sessions s) = .ok envelope
      ∧ (JsonValue.ofMembers (SealedRequest.members
          { index := l.index, envelope := envelope })).bytes.length ≤ Gateway.maxBodyLength := by
  have hsize : Envelope.valueLength l.index (l.writing g.user g.password).payload
      < LengthValue.ceiling := by
    have hfits := h.fits
    rw [Gateway.maxBodyLength] at hfits
    rw [LengthValue.ceiling]
    omega
  obtain ⟨envelope, htext, hlength⟩ := Envelope.exists_pack_of_lt (s := s) l.initiator.signing
    h.sealing_stampable.year_nonneg h.sealing_stampable.year_le (EchoCall.ofBytes?_secret _)
    h.has_sealing hsize
  refine ⟨Hex.encode envelope, htext, ?_⟩
  have hrequest := SealedRequest.length_bytes
    (l.offering.entropy.peek PrekeyStore.indexLength).val envelope
  rw [(l.offering.entropy.peek PrekeyStore.indexLength).property, hlength] at hrequest
  have hindex : PrekeyStore.indexLength = 16 := rfl
  refine Nat.le_trans (Nat.le_of_eq hrequest) (Nat.le_trans ?_ h.fits)
  omega

/-- The gateway opens what the client has sealed. -/
theorem unpack_text (hdeciphers : s.Deciphers) (h : l.Ready s g) {envelope : String}
    (htext : (l.writing g.user g.password).text s (l.sessions s) = .ok envelope) :
    (l.sessions s .responder).unpack s l.admitting.clock.wall envelope
      = .ok [Utf8.encode g.user, Utf8.encode g.password] :=
  h.compatible.unpack_text hdeciphers htext h.sealing_stampable.isLeap
    h.sealing_stampable.year_nonneg h.sealing_stampable.year_le h.admitting_stampable.isLeap h.age

/-- They are still the user and the password of the gateway, since the offer changes neither. -/
theorem unpack_text_perform_offer (hdeciphers : s.Deciphers) (h : l.Ready s g) {envelope : String}
    (htext : (l.writing g.user g.password).text s (l.sessions s) = .ok envelope) :
    (l.sessions s .responder).unpack s l.admitting.clock.wall envelope
      = .ok [Utf8.encode (g.perform s (l.offer s)).2.user,
        Utf8.encode (g.perform s (l.offer s)).2.password] := by
  rw [perform_offer h]
  exact unpack_text hdeciphers h htext

/-- The login of a client with the right user and password comes in after its offer, and is opened. -/
theorem Ready.exists_opened (h : l.Ready s g) (hdeciphers : s.Deciphers) :
    ∃ envelope : String, (l.call envelope).IsTo .login
      ∧ Gateway.readBody SealedRequest.reading (l.call envelope)
        = .ok { index := l.index, envelope := envelope }
      ∧ (Responder.receive s l.admitting.clock (g.perform s (l.offer s)).2.prekeys
          { index := l.index, envelope := envelope }).1
        = .ok (l.sessions s .responder, [Utf8.encode (g.perform s (l.offer s)).2.user,
          Utf8.encode (g.perform s (l.offer s)).2.password]) := by
  obtain ⟨envelope, htext, hlength⟩ := exists_text h
  have hposts : (l.call envelope).Posts .login (.ofMembers (SealedRequest.members
      { index := l.index, envelope := envelope })) :=
    HttpCall.posts_post rfl _
  exact ⟨envelope, ⟨rfl, List.mem_singleton_self "POST"⟩,
    Gateway.readBody_of_posts hposts hlength (SealedRequest.reading_members _),
    Responder.receive_of_take_ok (take_perform_offer h)
      (unpack_text_perform_offer hdeciphers h htext)⟩

/-- What happens at the gateway. -/
def events (s : Suite) (l : FirstLogin) (envelope : String) : List GatewayEvent :=
  [l.offer s, .call l.admitting (l.call envelope)]

/-- A client with the right user and password logs in after its offer. -/
theorem Ready.exists_grants (h : l.Ready s g) (hdeciphers : s.Deciphers) :
    ∃ (envelope : String) (offered login : Served),
      g.served s (l.events s envelope) = [offered, login]
        ∧ login.Grants s l.sessionKey ∧ login.world = l.admitting := by
  obtain ⟨envelope, htext, hlength⟩ := exists_text h
  have hunpack := unpack_text_perform_offer hdeciphers h htext
  refine ⟨envelope, _, _, rfl, ?_, rfl⟩
  exact Gateway.grants_of_unpack (HttpCall.posts_post rfl _) hlength (take_perform_offer h) hunpack
    h.has_admitting (stampedLength_loginReply_lt h _)

/-- A login with the keys of seeds zero and one, one second after the offer. -/
def oneSecondLater : FirstLogin where
  initiator := .zeroKeys
  offering :=
    { clock := { wall := .ofUnixNanos 1700000000000000000, steady := 0 }
      entropy := .ofBytes (List.replicate 16 8 ++ 1 :: List.replicate 31 0
        ++ 4 :: List.replicate 31 0 ++ 5 :: List.replicate 31 0) }
  sealing :=
    { clock := { wall := .ofUnixNanos 1700000000123456789, steady := 0 }
      entropy := .ofBytes (List.replicate 48 6) }
  admitting :=
    { clock := { wall := .ofUnixNanos 1700000001000000000, steady := 1000 }
      entropy := .ofBytes (List.replicate 80 7) }

/-- It is granted with the settings that a gateway has by default. -/
theorem ready_oneSecondLater : oneSecondLater.Ready .twoSigners (.ofConfig {}) := by
  have hkeys : oneSecondLater.responder = .oneKeys := by decide +kernel
  exact
    { compatible := hkeys ▸ .of_zeroKeys
      has_offering := by decide +kernel
      has_sealing := by decide +kernel
      has_admitting := by decide +kernel
      fits := by decide +kernel
      waits := by decide +kernel
      sealing_stampable :=
        { isLeap := by decide +kernel, year_nonneg := by decide +kernel, year_le := by decide +kernel }
      admitting_stampable :=
        { isLeap := by decide +kernel, year_nonneg := by decide +kernel, year_le := by decide +kernel }
      age := by decide +kernel }

/-- Its session key can be borne. -/
theorem bears_oneSecondLater (path : String) :
    (HttpCall.withToken path oneSecondLater.sessionKey).Bears oneSecondLater.sessionKey :=
  HttpCall.bears_withToken path (by decide +kernel)

end FirstLogin

end SealedEnvelope
