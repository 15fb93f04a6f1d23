import SealedEnvelope.Proofs.Gateway.Honours
import SealedEnvelope.Proofs.Gateway.Line

/-!
# `SealedEnvelope.Proofs.Gateway.ClientLogin`: a client logs in at a gateway

A client logs in over a line to a gateway: it offers its keys, seals the user and the password, and
reads the reply. `ClientLogin` is such a login with the worlds that the two find around them, and
`ClientLogin.Ready` is what has to be so for the login to be decided. It is then decided by the
user and the password alone (`Ready.login_decides`), and the two sides agree on what has come of it:
either the client remembers the session key under the hash of which the gateway keeps the login, or
neither of them has changed.

One thing can come before that. A client shows the session key that it remembers with every request,
that for a new login too. If no header can hold the key, nothing is sent and the login fails, with
the right user and password as well (`login_decides_lineBreak`). The client has to forget the login
first.

An `Inquiry` is a request of the client some time after that, for what the gateway tells of the
login.

Main statements:

* `ClientLogin.Ready.performed_of_match`, `ClientLogin.Ready.performed_of_mismatch` and
  `ClientLogin.Ready.exists_performed_of_not_canSend`: what comes of a login on both sides;
* `Inquiry.Timely.result_eq`: what a client is told while its login counts;
* `ClientLogin.Ready.login_decides`: who is logged in, and for how long.
-/

set_option autoImplicit false

namespace SealedEnvelope

variable {s : Suite} {g : Gateway}

/-! ## Logins -/

/-- A client that logs in at a gateway, with what the two find around them. -/
structure ClientLogin where
  client : Client
  user : String
  password : String
  /-- Around the client, when it makes its offer. -/
  offering : World
  /-- Around the gateway, when it answers the offer. -/
  issuing : World
  /-- Around the client, when it has the answer. -/
  sealing : World
  /-- Around the gateway, when the sealed login comes in. -/
  admitting : World
  /-- Around the client, when it has the reply. -/
  opening : World

namespace ClientLogin

/-- What the gateway has to do with it: it is a login with the keys that the client draws. -/
def first (l : ClientLogin) : FirstLogin where
  initiator := Bundle.drawn l.offering.entropy
  offering := l.issuing
  sealing := l.sealing
  admitting := l.admitting

/-- The line to the gateway, with the moments of the two requests. -/
def line (g : Gateway) (l : ClientLogin) : Line where
  gateway := g
  moments := [(l.issuing, l.sealing), (l.admitting, l.opening)]

/-- What the client makes of the login, and what it leaves behind. -/
def performed (s : Suite) (g : Gateway) (l : ClientLogin) :
    (Except CallError Client.Outcome × Client) × World × Line :=
  Client.perform s (Line.transport s) (.login l.user l.password) l.client (l.offering, l.line g)

/-- What comes of the login. -/
def result (s : Suite) (g : Gateway) (l : ClientLogin) : Except CallError Client.Outcome :=
  (l.performed s g).1.1

/-- The client after the login. -/
def clientAfter (s : Suite) (g : Gateway) (l : ClientLogin) : Client := (l.performed s g).1.2

/-- The gateway after the login. -/
def gatewayAfter (s : Suite) (g : Gateway) (l : ClientLogin) : Gateway :=
  (l.performed s g).2.2.gateway

/-- What has to be so for a login to be decided by the user and the password. -/
structure Ready (s : Suite) (g : Gateway) (l : ClientLogin) : Prop where
  /-- The addresses of the client lead to the gateway. -/
  leads_prekey : l.client.config.leadsTo l.client.config.prekeyPath .prekey = true
  leads_login : l.client.config.leadsTo l.client.config.loginPath .login = true
  /-- There are random bytes for the keys of the client. -/
  has_offering : l.offering.entropy.has 96 = true
  /-- A gateway that had this user and this password would grant the login: the keys go together,
  there are random bytes for the rest, the login fits into a body, and it comes in soon enough. -/
  first : l.first.Ready s { g with user := l.user, password := l.password }
  /-- The reply is opened at most 299 seconds after it was sealed. -/
  opening_isLeap : l.opening.clock.wall.isLeap = false
  reply_age :
    l.opening.clock.wall.unixNanos - l.admitting.clock.wall.unixNanos ≤ 299 * nanosPerSecond

variable {l : ClientLogin}

/-- What comes of a login, and what it leaves on both sides. -/
theorem of_performed {result : Except CallError Client.Outcome} {client : Client} {world : World}
    {line : Line} (h : l.performed s g = ((result, client), (world, line))) :
    l.result s g = result ∧ l.clientAfter s g = client ∧ l.gatewayAfter s g = line.gateway :=
  ⟨congrArg (fun run => run.1.1) h, congrArg (fun run => run.1.2) h,
    congrArg (fun run => run.2.2.gateway) h⟩

/-- The gateway that has answered the offer. -/
def offered (s : Suite) (g : Gateway) (l : ClientLogin) : Gateway :=
  { g with
    prekeys := g.prekeys.insert
      (PrekeyStore.drawnEntry s l.issuing.clock.steady l.first.initiator l.issuing.entropy) }

/-- The sealed login. -/
def sealed (l : ClientLogin) (envelope : String) : SealedRequest where
  index := l.first.index
  envelope := envelope

/-- The login that a client has been granted. -/
def granted (l : ClientLogin) : Login where
  sessionKey := l.first.sessionKey
  userId := Gateway.userId

/-- Its session key is not empty. -/
theorem sessionKey_granted_ne (l : ClientLogin) : l.granted.sessionKey ≠ "" := by
  intro hempty
  have hdigits : l.granted.sessionKey.toList
      = (l.admitting.entropy.peek Gateway.sessionKeyLength).val.flatMap Hex.encodeByte :=
    String.toList_ofList
  have hlength := congrArg List.length hdigits
  rw [hempty, Hex.length_flatMap_encodeByte, (l.admitting.entropy.peek _).property] at hlength
  exact absurd hlength (by decide)

/-- What a gateway says to another user or password. -/
def refusal : HttpResponse := Gateway.reject 401 "INVALID_CREDENTIAL" "user or password mismatch"

namespace Ready

/-! ## The two requests -/

/-- The offer is answered, if it can be sent. -/
theorem answers_offer (h : l.Ready s g) (hsend : l.client.CanSend) :
    (Line.transport s).Answers (l.client.offerRequest s l.first.initiator) (l.line g)
      (Gateway.jsonResponse 200 (.object (l.first.responder.answer s l.first.index).members))
      l.sealing { gateway := l.offered s g, moments := [(l.admitting, l.opening)] } := by
  obtain ⟨call, harrival, hposts⟩ := Client.exists_arrival
    (Client.reaches_iff.2 ⟨hsend, h.leads_prekey⟩) (.ofMembers (l.first.initiator.offer s).members)
  exact Line.answers harrival
    (Gateway.answer_offer hposts h.first.has_offering h.first.compatible g) _

/-- The sealed login is answered with what the gateway makes of it. -/
theorem answers_login (h : l.Ready s g) (hsend : l.client.CanSend) {envelope : String}
    (hlength : (JsonValue.ofMembers (l.sealed envelope).members).bytes.length ≤ Gateway.maxBodyLength)
    {response : HttpResponse} {g' : Gateway}
    (hanswer : ((l.offered s g).answerLogin s l.admitting.clock (l.sealed envelope)
      l.admitting.entropy).1 = (response, g')) :
    (Line.transport s).Answers
      (l.client.request l.client.config.loginPath (some (.ofMembers (l.sealed envelope).members)))
      { gateway := l.offered s g, moments := [(l.admitting, l.opening)] } response l.opening
      { gateway := g', moments := [] } := by
  obtain ⟨call, harrival, hposts⟩ := Client.exists_arrival
    (Client.reaches_iff.2 ⟨hsend, h.leads_login⟩) (.ofMembers (l.sealed envelope).members)
  have hmethod : call.method ∈ Route.methods .login := by
    rw [hposts.method]
    decide
  have hread := Gateway.readBody_of_posts hposts hlength (l.sealed envelope).reading_members
  refine Line.answers harrival ?_ _
  rw [Gateway.answer_of_route hposts.target hmethod, Gateway.answerRoute, hread]
  exact hanswer

/-- The gateway opens what the client has sealed. -/
theorem receive_eq (h : l.Ready s g) (hdeciphers : s.Deciphers) {envelope : String}
    (htext : (l.first.writing l.user l.password).text s (l.first.sessions s) = .ok envelope) :
    (Responder.receive s l.admitting.clock (l.offered s g).prekeys (l.sealed envelope)).1
      = .ok (l.first.sessions s .responder, [Utf8.encode l.user, Utf8.encode l.password]) := by
  have htake := FirstLogin.take_perform_offer h.first
  rw [FirstLogin.perform_offer h.first] at htake
  exact Responder.receive_of_take_ok htake (FirstLogin.unpack_text hdeciphers h.first htext)

/-- The login ends with what the client reads of the reply. -/
theorem performed_of_answer (h : l.Ready s g) (hsend : l.client.CanSend) {envelope : String}
    (htext : (l.first.writing l.user l.password).text s (l.first.sessions s) = .ok envelope)
    (hlength : (JsonValue.ofMembers (l.sealed envelope).members).bytes.length ≤ Gateway.maxBodyLength)
    {response : HttpResponse} {g' : Gateway}
    (hanswer : ((l.offered s g).answerLogin s l.admitting.clock (l.sealed envelope)
      l.admitting.entropy).1 = (response, g')) {outcome : LoginOutcome}
    (hread : Client.readLoginReply s l.opening.clock.wall (l.first.sessions s .initiator) response
      = .ok outcome) :
    l.performed s g = ((.ok (.login outcome), l.client.after (.ok (.login outcome))),
      (l.opening, { gateway := g', moments := [] })) := by
  have hsession : Client.readAnswer s (Bundle.drawn l.offering.entropy)
      (Gateway.jsonResponse 200 (.object (l.first.responder.answer s l.first.index).members))
        = .ok (.established (l.first.sessions s .initiator)) :=
    Client.readAnswer_of_compatible h.first.compatible l.first.index
  have hlogin := Client.requestLogin_of_answers h.has_offering (h.answers_offer hsend) hsession
    (Client.sealedRequest_of_pack htext) (h.answers_login hsend hlength hanswer)
  rw [hread] at hlogin
  exact Client.perform_login hlogin

/-! ## What comes of it -/

/-- A client that cannot send fails with that, and nothing has changed on either side. -/
theorem exists_performed_of_not_canSend (h : l.Ready s g) (hsend : ¬ l.client.CanSend) :
    ∃ later : World, l.performed s g
      = ((.error Line.undelivered, l.client), (later, l.line g)) := by
  obtain ⟨later, hlogin⟩ := Client.exists_requestLogin_of_unsent h.has_offering fun world =>
    Line.transport_of_arrival?_eq_none (Client.arrival?_eq_none hsend _ _) world (l.line g)
  exact ⟨later, Client.perform_login hlogin⟩

/-- With another user or password the client is turned away, and neither what it remembers nor the
logins of the gateway have changed. -/
theorem performed_of_mismatch (h : l.Ready s g) (hsend : l.client.CanSend)
    (hdeciphers : s.Deciphers) (hmismatch : ¬ (l.user = g.user ∧ l.password = g.password)) :
    ∃ prekeys : PrekeyStore, l.performed s g
      = ((.ok (.login (.rejected refusal)), l.client),
        (l.opening, { gateway := { g with prekeys := prekeys }, moments := [] })) := by
  obtain ⟨envelope, htext, hlength⟩ := FirstLogin.exists_text h.first
  have hno : ¬ (l.offered s g).credentialsMatch (Utf8.encode l.user) (Utf8.encode l.password) = true :=
    fun hmatch => hmismatch (Gateway.credentialsMatch_encode_iff.1 hmatch)
  have hanswer := Gateway.answerLogin_of_mismatch (h.receive_eq hdeciphers htext) hno
    (e := l.admitting.entropy)
  exact ⟨_, h.performed_of_answer hsend htext hlength hanswer
    (Client.readLoginReply_of_not_isOk rfl)⟩

/-- The client opens the reply that grants the login, and reads the session key in it. -/
theorem readLoginReply_eq (h : l.Ready s g) (hdeciphers : s.Deciphers) {envelope : String}
    (hpack : ((l.first.sessions s .responder).pack s l.admitting.clock.wall
      (Gateway.loginReply l.first.sessionKey)
      (l.admitting.entropy.advance Gateway.sessionKeyLength)).1 = .ok envelope) :
    Client.readLoginReply s l.opening.clock.wall (l.first.sessions s .initiator)
        (Gateway.sealedResponse (.ok { envelope := envelope })) = .ok (.loggedIn l.granted) := by
  let replying : Attempt :=
    { writer := .responder
      now := l.admitting.clock.wall
      payload := Gateway.loginReply l.first.sessionKey
      entropy := l.admitting.entropy.advance Gateway.sessionKeyLength }
  have hreply : replying.text s (l.first.sessions s) = .ok envelope := hpack
  have hunpack : (l.first.sessions s .initiator).unpack s l.opening.clock.wall envelope
      = .ok (Gateway.loginReply l.first.sessionKey) :=
    h.first.compatible.unpack_text hdeciphers hreply h.first.admitting_stampable.isLeap
      h.first.admitting_stampable.year_nonneg h.first.admitting_stampable.year_le h.opening_isLeap
      h.reply_age
  have hread := Login.read_written l.sessionKey_granted_ne Gateway.userId
  exact Client.readLoginReply_of_unpack rfl (json_sealedReply envelope) rfl hunpack hread

/-- With the right ones the client is granted a login, which it remembers, and which the gateway
keeps under the hash of its session key. -/
theorem performed_of_match (h : l.Ready s g) (hsend : l.client.CanSend)
    (hdeciphers : s.Deciphers) (hmatch : l.user = g.user ∧ l.password = g.password) :
    ∃ prekeys : PrekeyStore, l.performed s g
      = ((.ok (.login (.loggedIn l.granted)), { l.client with login? := some l.granted }),
        (l.opening,
          { gateway :=
              { g with
                prekeys := prekeys
                logins := g.logins.insert (LoginTable.hashOf s l.granted.sessionKey)
                  (Gateway.loginRecord l.admitting.clock) }
            moments := [] })) := by
  obtain ⟨envelope, htext, hlength⟩ := FirstLogin.exists_text h.first
  have hgrants : ∃ reply, (Gateway.grantLogin s l.admitting.clock (l.first.sessions s .responder)
      l.admitting.entropy).1 = .ok (l.first.sessionKey, reply) :=
    Gateway.exists_grantLogin h.first.has_admitting (FirstLogin.stampedLength_loginReply_lt h.first _)
  obtain ⟨reply, hgrant⟩ := hgrants
  have hyes : (l.offered s g).credentialsMatch (Utf8.encode l.user) (Utf8.encode l.password) = true :=
    Gateway.credentialsMatch_encode_iff.2 hmatch
  have hanswer := Gateway.answerLogin_of_match (h.receive_eq hdeciphers htext) hyes hgrant
  obtain ⟨-, text, hpack, rfl⟩ := Gateway.of_grantLogin_eq_ok hgrant
  exact ⟨_, h.performed_of_answer hsend htext hlength hanswer (h.readLoginReply_eq hdeciphers hpack)⟩

end Ready

end ClientLogin

/-! ## Inquiries -/

/-- A client that asks a gateway who is logged in. -/
structure Inquiry where
  client : Client
  body : Option JsonValue
  insists : Bool
  /-- What happens at the gateway before it is asked. -/
  events : List GatewayEvent
  /-- Around the client, when it asks. -/
  sending : World
  /-- Around the gateway, when it is asked. -/
  asking : World
  /-- Around the client, when it is told. -/
  telling : World

namespace Inquiry

/-- The path of the route that tells who is logged in. -/
def path : String := "/self/detail"

/-- What the client is told. -/
def result (s : Suite) (g : Gateway) (i : Inquiry) : Except CallError Client.Outcome :=
  (Client.perform s (Line.transport s) (.post path i.body i.insists) i.client
    (i.sending, { gateway := g.after s i.events, moments := [(i.asking, i.telling)] })).1.1

/-- Whether a client asks while a login that a gateway has granted it at some time still counts. -/
structure Timely (s : Suite) (g : Gateway) (login : Login) (since : Milliseconds) (i : Inquiry) :
    Prop where
  /-- The client has neither logged in anew nor forgotten the login, and still has the gateway at
  the other end. -/
  remembers : i.client.login? = some login
  leads : i.client.config.leadsTo path .detail = true
  /-- The login is younger than the lifetime of a login. -/
  young : i.asking.clock.steady - since < g.loginLifetime
  /-- What has happened at the gateway lies in between, and no logout of the key is part of it. -/
  between : ∀ event ∈ i.events, since ≤ event.time ∧ event.time ≤ i.asking.clock.steady
  kept : ∀ served ∈ g.served s i.events, ¬ served.Ends s (LoginTable.hashOf s login.sessionKey)

/-- What is told of the one user. -/
def told (loggedInAt : String) : HttpResponse :=
  Gateway.jsonResponse 200
    (.ofMembers [("user_id", .string "1"), ("logged_in_at", .string loggedInAt)])

/-- A client that asks in time is told of the user. -/
theorem Timely.result_eq {login : Login} {since : Milliseconds} {i : Inquiry}
    (h : i.Timely s g login since) {bytes : Bytes} (hkey : login.sessionKey = Hex.encode bytes)
    (hhonours : g.logins.Honours (LoginTable.hashOf s login.sessionKey) since) :
    ∃ loggedInAt : String, i.result s g = .ok (.post (.answered (told loggedInAt))) := by
  obtain ⟨call, harrival, hisTo, hbears⟩ :=
    Client.exists_bearing_call h.remembers hkey h.leads (by decide) i.body
  have hage : ∀ event ∈ i.events, event.time - since < g.loginLifetime := fun event hevent =>
    Nat.lt_of_le_of_lt (Nat.sub_le_sub_right (h.between event hevent).2 since) h.young
  have hstill := Gateway.honours_after hhonours (fun event hevent => (h.between event hevent).1)
    hage h.kept
  have hyoung : i.asking.clock.steady - since < (g.after s i.events).loginLifetime := by
    rw [Gateway.loginLifetime_after]
    exact h.young
  obtain ⟨loggedInAt, hdetail⟩ := Gateway.answerDetail_of_honours hstill hbears hyoung
  have hanswer : ((g.after s i.events).answer s i.asking.clock call i.asking.entropy).1
      = (told loggedInAt, g.after s i.events) := by
    rw [Gateway.answer_of_route hisTo.1 hisTo.2]
    exact Prod.ext hdetail rfl
  have hsent : (Line.transport s).Answers (i.client.request path i.body)
      { gateway := g.after s i.events, moments := [(i.asking, i.telling)] } (told loggedInAt)
      i.telling { gateway := g.after s i.events, moments := [] } :=
    Line.answers harrival hanswer []
  refine ⟨loggedInAt, ?_⟩
  rw [result, Client.perform_post i.insists hsent rfl]

end Inquiry

/-! ## Both together -/

namespace ClientLogin

variable {l : ClientLogin}

/-- A client that can send is decided upon: its login ends with the user being logged in exactly if
the user and the password are those of the gateway. If they are not, the login is rejected with the
status 401 and `INVALID_CREDENTIAL`, the client remembers what it did before, and the gateway has the
logins that it had. If they are, the client remembers the login, and is told of the user whenever it
asks while the login counts: sooner than the lifetime of a login after it was granted, and before a
logout of its key, a newer login or its being forgotten.

A client that cannot send, because of the session key that it remembers, fails with that whatever
the user and the password are. It remembers the same key after that, and the gateway has not changed
at all. -/
theorem Ready.login_decides (h : l.Ready s g) (hdeciphers : s.Deciphers) :
    (l.client.CanSend →
      ((∃ login : Login, l.result s g = .ok (.login (.loggedIn login)) ∧ login.userId = "1")
          ↔ l.user = g.user ∧ l.password = g.password)
        ∧ (¬ (l.user = g.user ∧ l.password = g.password) →
          l.result s g = .ok (.login (.rejected refusal))
            ∧ l.clientAfter s g = l.client
            ∧ (l.gatewayAfter s g).logins = g.logins)
        ∧ ∀ login : Login, l.result s g = .ok (.login (.loggedIn login)) →
          l.clientAfter s g = { l.client with login? := some login }
            ∧ ∀ i : Inquiry, i.Timely s (l.gatewayAfter s g) login l.admitting.clock.steady →
              ∃ loggedInAt : String, i.result s (l.gatewayAfter s g)
                = .ok (.post (.answered (Inquiry.told loggedInAt))))
      ∧ (¬ l.client.CanSend →
        l.result s g = .error Line.undelivered
          ∧ l.clientAfter s g = l.client
          ∧ l.gatewayAfter s g = g) := by
  constructor
  · intro hsend
    by_cases hmatch : l.user = g.user ∧ l.password = g.password
    · obtain ⟨prekeys, hperformed⟩ := h.performed_of_match hsend hdeciphers hmatch
      obtain ⟨hresult, hclient, hgateway⟩ := of_performed hperformed
      refine ⟨iff_of_true ⟨_, hresult, rfl⟩ hmatch, fun hmismatch => absurd hmatch hmismatch, ?_⟩
      intro login hlogin
      cases hresult.symm.trans hlogin
      refine ⟨hclient, fun i htimely => htimely.result_eq rfl ?_⟩
      -- The login stands from the moment at which the gateway has granted it.
      rw [hgateway]
      exact LoginTable.honours_insert_self g.logins _ (Nat.le_refl _)
    · obtain ⟨prekeys, hperformed⟩ := h.performed_of_mismatch hsend hdeciphers hmatch
      obtain ⟨hresult, hclient, hgateway⟩ := of_performed hperformed
      have hnone : ∀ login : Login, l.result s g ≠ .ok (.login (.loggedIn login)) := by
        intro login hlogin
        cases hresult.symm.trans hlogin
      refine ⟨iff_of_false (fun ⟨login, hlogin, _⟩ => hnone login hlogin) hmatch, fun _ => ?_,
        fun login hlogin => absurd hlogin (hnone login)⟩
      exact ⟨hresult, hclient, by rw [hgateway]⟩
  · intro hsend
    obtain ⟨later, hperformed⟩ := h.exists_performed_of_not_canSend hsend
    exact of_performed hperformed

/-- A login at a gateway with the settings that it has by default, by a client that remembers
another login, with the right password or with one that begins as it does. -/
def demo (right : Bool) : ClientLogin where
  client := { config := { baseUrl := "http://gw.test" }, login? := some ⟨"old", "7"⟩ }
  user := "demo"
  password := if right then "demo-password" else "demo-pass"
  offering :=
    { clock := { wall := .ofUnixNanos 1700000000000000000, steady := 0 }
      entropy := .ofBytes (List.replicate 32 0 ++ 2 :: List.replicate 31 0
        ++ 3 :: List.replicate 31 0) }
  issuing := FirstLogin.oneSecondLater.offering
  sealing := FirstLogin.oneSecondLater.sealing
  admitting := FirstLogin.oneSecondLater.admitting
  opening :=
    { clock := { wall := .ofUnixNanos 1700000002000000000, steady := 0 }
      entropy := .ofBytes [] }

/-- It is ready to be decided. -/
theorem ready_demo (right : Bool) : (demo right).Ready .twoSigners (.ofConfig {}) := by
  have hkeys : ∀ right, Bundle.drawn (demo right).offering.entropy = .zeroKeys := by
    decide +kernel
  have hfirst : ∀ right, (demo right).first = .oneSecondLater := fun right =>
    congrArg (fun bundle => { FirstLogin.oneSecondLater with initiator := bundle }) (hkeys right)
  exact
    { leads_prekey := by revert right; decide +kernel
      leads_login := by revert right; decide +kernel
      has_offering := by revert right; decide +kernel
      first := by
        rw [hfirst]
        exact { FirstLogin.ready_oneSecondLater with fits := by revert right; decide +kernel }
      opening_isLeap := by revert right; decide +kernel
      reply_age := by revert right; decide +kernel }

/-- Its client can send. -/
theorem canSend_demo (right : Bool) : (demo right).client.CanSend := by
  rintro _ ⟨rfl⟩
  decide +kernel

/-- One hour after the login, when the logins have been tidied up once. -/
def oneHourLater (client : Client) : Inquiry where
  client := client
  body := none
  insists := true
  events := [.purgeLogins { wall := .ofUnixNanos 0, steady := 1800000 }]
  sending := FirstLogin.oneSecondLater.sealing
  asking :=
    { clock := { wall := .ofUnixNanos 1700003600000000000, steady := 3600000 }
      entropy := .ofBytes [] }
  telling := FirstLogin.oneSecondLater.sealing

/-- With the right password the client is told of the user an hour later, and with the other one it
is rejected. -/
theorem login_decides_demo :
    (∃ login : Login, (demo true).result .twoSigners (.ofConfig {}) = .ok (.login (.loggedIn login))
        ∧ login.userId = "1"
        ∧ ∃ loggedInAt : String,
          (oneHourLater ((demo true).clientAfter .twoSigners (.ofConfig {}))).result .twoSigners
              ((demo true).gatewayAfter .twoSigners (.ofConfig {}))
            = .ok (.post (.answered (Inquiry.told loggedInAt))))
      ∧ (demo false).result .twoSigners (.ofConfig {}) = .ok (.login (.rejected refusal))
      ∧ (demo false).clientAfter .twoSigners (.ofConfig {}) = (demo false).client
      ∧ ((demo false).gatewayAfter .twoSigners (.ofConfig {})).logins = {} := by
  obtain ⟨hiff, -, hgranted⟩ :=
    ((ready_demo true).login_decides Suite.twoSigners_deciphers).1 (canSend_demo true)
  obtain ⟨-, hrejected, -⟩ :=
    ((ready_demo false).login_decides Suite.twoSigners_deciphers).1 (canSend_demo false)
  obtain ⟨login, hlogin, huser⟩ := hiff.2 (by decide)
  obtain ⟨hclient, htold⟩ := hgranted login hlogin
  obtain ⟨prekeys, hperformed⟩ :=
    (ready_demo true).performed_of_match (canSend_demo true) Suite.twoSigners_deciphers (by decide)
  have htimely : (oneHourLater ((demo true).clientAfter .twoSigners (.ofConfig {}))).Timely
      .twoSigners ((demo true).gatewayAfter .twoSigners (.ofConfig {})) login 1000 :=
    { remembers := congrArg Client.login? hclient
      leads := by
        rw [oneHourLater, hclient]
        show (demo true).client.config.leadsTo _ _ = true
        decide +kernel
      young := by
        rw [(of_performed hperformed).2.2]
        show 3600000 - 1000 < 86400000
        decide
      between := by decide
      kept := nofun }
  exact ⟨⟨login, hlogin, huser, htold _ htimely⟩, hrejected (by decide)⟩

/-- A login with the right password, by a client that remembers a session key with a line break in
it. -/
def lineBreak : ClientLogin where
  __ := demo true
  client := { config := { baseUrl := "http://gw.test" }, login? := some ⟨"a\nb", "7"⟩ }

/-- The user and the password are those of the gateway and nothing is in the way of a decision, and
yet the user is not logged in, because nothing is sent. -/
theorem login_decides_lineBreak :
    lineBreak.Ready .twoSigners (.ofConfig {})
      ∧ (lineBreak.user = (Gateway.ofConfig {}).user
        ∧ lineBreak.password = (Gateway.ofConfig {}).password)
      ∧ lineBreak.result .twoSigners (.ofConfig {}) = .error Line.undelivered
      ∧ ¬ ∃ login : Login,
        lineBreak.result .twoSigners (.ofConfig {}) = .ok (.login (.loggedIn login)) := by
  have hready : lineBreak.Ready .twoSigners (.ofConfig {}) := { ready_demo true with }
  have hsend : ¬ lineBreak.client.CanSend := fun h =>
    absurd (h ⟨"a\nb", "7"⟩ rfl) (by decide +kernel)
  obtain ⟨later, hperformed⟩ := hready.exists_performed_of_not_canSend hsend
  obtain ⟨hresult, -, -⟩ := of_performed hperformed
  refine ⟨hready, by decide, hresult, fun ⟨login, hlogin⟩ => ?_⟩
  cases hresult.symm.trans hlogin

end ClientLogin

end SealedEnvelope
