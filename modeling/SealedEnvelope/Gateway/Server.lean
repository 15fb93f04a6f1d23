import SealedEnvelope.Gateway.Config
import SealedEnvelope.Gateway.Logins
import SealedEnvelope.Http.Call
import SealedEnvelope.Http.MediaType
import SealedEnvelope.Peer.Responder

/-!
# `SealedEnvelope.Gateway.Server`: a peer behind HTTP

The gateway answers offers, opens sealed logins, tells who is logged in and logs out,
and echoes sealed requests. `Gateway.answer` takes a call and gives a response and the
gateway after it.

A body is looked at in this order: whether its content type announces JSON, whether it
is small enough, whether it is the JSON that the route takes. What follows the JSON in a
body is not looked at. Whatever comes after a prekey has been found, it has been used up.
-/

set_option autoImplicit false

namespace SealedEnvelope

/-- What a gateway does. -/
inductive Route where
  | health
  | prekey
  | login
  | detail
  | logout
  | echo
  deriving DecidableEq, Repr

namespace Route

/-- The route of a path. -/
def ofPath? (path : String) : Option Route :=
  if path = "/health" then some health
  else if path = "/self/prekey" then some prekey
  else if path = "/self/login" then some login
  else if path = "/self/detail" then some detail
  else if path = "/self/logout" then some logout
  else if path = "/e2ee/echo" then some echo
  else none

/-- The methods of a route. -/
def methods : Route → List String
  | health => ["GET", "HEAD"]
  | _ => ["POST"]

end Route

/-- A gateway at one moment. -/
structure Gateway where
  user : String
  password : String
  loginLifetime : Milliseconds
  prekeys : PrekeyStore
  logins : LoginTable := {}

namespace Gateway

/-- The gateway with these settings, before its first call. -/
def ofConfig (config : GatewayConfig) : Gateway where
  user := config.user
  password := config.password
  loginLifetime := config.loginLifetime
  prekeys := { limits := config.prekeys }

/-- The version that the gateway tells. -/
def version : String := "0.1.0"

/-- The largest number of bytes of a body. -/
def maxBodyLength : Nat := 2097152

/-- The user that every login is for. -/
def userId : String := "1"

/-- The number of bytes that a session key is made of. -/
def sessionKeyLength : Nat := 32

/-! ## Responses -/

/-- The headers that every response has. -/
def openHeaders : Headers := Headers.empty.insert "access-control-allow-origin" "*"

/-- A response without a body. -/
def bare (status : UInt16) : HttpResponse := { status := status, headers := openHeaders, body := [] }

/-- A response with a JSON value. -/
def jsonResponse (status : UInt16) (value : JsonValue) : HttpResponse :=
  { status := status, headers := openHeaders.insert "content-type" "application/json"
    body := value.bytes }

/-- A response with a sentence. -/
def textResponse (status : UInt16) (text : String) : HttpResponse :=
  { status := status, headers := openHeaders.insert "content-type" "text/plain; charset=utf-8"
    body := Utf8.encode text }

/-- A response that tells an error. -/
def reject (status : UInt16) (code reason : String) : HttpResponse :=
  jsonResponse status (.object [("error", .string code), ("reason", .string reason)])

/-- The status for an error of a call: the caller's fault, unless the gateway itself could
not do what it should. -/
def errorStatus : CallError → UInt16
  | .random => 500
  | .envelope (.encryption _) => 500
  | _ => 422

/-- The response to an error of a call. -/
def rejectError (error : CallError) : HttpResponse :=
  reject (errorStatus error) error.code error.message

/-- The response to a call that no login stands behind. -/
def unauthorized : HttpResponse := reject 401 "UNAUTHORIZED" "missing or unknown session key"

/-- What a body holds, or the response to a body that does not hold it. -/
def readBody {α : Type} (reading : JsonReader.Reading α) (call : HttpCall) : Except HttpResponse α :=
  if ¬ (call.headerText? "content-type").any fun t => MediaType.isJson (Utf8.encode t) then
    .error (textResponse 415 "Expected request with `Content-Type: application/json`")
  else if maxBodyLength < call.body.length then
    .error (textResponse 413 "Failed to buffer the request body: length limit exceeded")
  else
    match reading call.body with
    | .ok (found, _) => .ok found
    | .error .malformed => .error (textResponse 400 "Failed to parse the request body as JSON")
    | .error .wrongShape =>
      .error (textResponse 422 "Failed to deserialize the JSON body into the target type")

/-! ## The routes -/

/-- Whether a user and a password are the ones that can log in. -/
def credentialsMatch (g : Gateway) (user password : Bytes) : Bool :=
  Utf8.encode g.user == user && Utf8.encode g.password == password

/-- The login that stands behind a call, if there is one and it still counts. -/
def loginOf? (s : Suite) (clock : Clock) (g : Gateway) (call : HttpCall) : Option LoginRecord :=
  call.bearerToken?.bind fun token =>
    (g.logins.find? (LoginTable.hashOf s token)).filter
      (LoginTable.isLive g.loginLifetime clock.steady)

/-- The gateway without the logins that no longer count. -/
def purgeLogins (clock : Clock) (g : Gateway) : Gateway :=
  { g with logins := g.logins.purge g.loginLifetime clock.steady }

/-- The gateway without the prekeys that can no longer be used. -/
def purgePrekeys (clock : Clock) (g : Gateway) : Gateway :=
  { g with prekeys := g.prekeys.purge clock.steady }

/-- The response to a sealed reply, or to why there is none. -/
def sealedResponse : Except CallError SealedReply → HttpResponse
  | .ok reply => jsonResponse 200 (.object reply.members)
  | .error error => rejectError error

/-- Answers an offer. -/
def answerOffer (s : Suite) (clock : Clock) (g : Gateway) (offer : Offer) :
    StateM Entropy (HttpResponse × Gateway) := do
  let (issued, prekeys) ← PrekeyStore.issue s clock.steady offer g.prekeys
  let g := { g with prekeys := prekeys }
  match issued with
  | .ok answer => return (jsonResponse 200 (.object answer.members), g)
  | .error error => return (rejectError error, g)

/-- What the reply to a login seals. -/
def loginReply (sessionKey : String) : List Bytes :=
  [(JsonValue.ofMembers [("session_key", .string sessionKey), ("user_id", .string userId)]).bytes]

/-- A fresh session key, and the reply that seals it. -/
def grantLogin (s : Suite) (clock : Clock) (session : Session) :
    Drawing CallError (String × SealedReply) := do
  let raw ← Drawing.bytes .random sessionKeyLength
  let sessionKey := Hex.encode raw.val
  let reply ← Responder.reply s clock.wall session (loginReply sessionKey)
  return (sessionKey, reply)

/-- The record of a login made now. -/
def loginRecord (clock : Clock) : LoginRecord :=
  { userId := userId, loggedInAt := Rfc3339.writeFull clock.wall, issuedAt := clock.steady }

/-- Answers a sealed login. The login is kept only if the reply could be sealed. -/
def answerLogin (s : Suite) (clock : Clock) (g : Gateway) (request : SealedRequest) :
    StateM Entropy (HttpResponse × Gateway) := do
  let (received, prekeys) := Responder.receive s clock g.prekeys request
  let g := { g with prekeys := prekeys }
  match received with
  | .error error => return (rejectError error, g)
  | .ok (session, user :: password :: _) =>
    if g.credentialsMatch user password then
      -- The table changes last, so that no login is kept that nobody was told of.
      match ← (grantLogin s clock session).run with
      | .error error => return (rejectError error, g)
      | .ok (sessionKey, reply) =>
        let logins := g.logins.insert (LoginTable.hashOf s sessionKey) (loginRecord clock)
        return (sealedResponse (.ok reply), { g with logins := logins })
    else return (reject 401 "INVALID_CREDENTIAL" "user or password mismatch", g)
  | .ok _ => return (rejectError (.missingField "password"), g)

/-- Tells who is logged in. -/
def answerDetail (s : Suite) (clock : Clock) (g : Gateway) (call : HttpCall) : HttpResponse :=
  match g.loginOf? s clock call with
  | none => unauthorized
  | some record =>
    jsonResponse 200 (.ofMembers
      [("user_id", .string record.userId), ("logged_in_at", .string record.loggedInAt)])

/-- Logs out. The age of the login does not matter. -/
def answerLogout (s : Suite) (g : Gateway) (call : HttpCall) : HttpResponse × Gateway :=
  match call.bearerToken? with
  | none => (unauthorized, g)
  | some token =>
    let hash := LoginTable.hashOf s token
    match g.logins.find? hash with
    | none => (unauthorized, g)
    | some _ =>
      (jsonResponse 200 (.object [("status", .string "logged_out")]),
        { g with logins := g.logins.remove hash })

/-- What an echo says: the headers and the body of the request. -/
def echoBody (opened : Responder.Opened) : JsonValue :=
  .ofMembers [("header", opened.headers.toJson), ("body", opened.body)]

/-- Echoes a sealed request. -/
def answerEcho (s : Suite) (clock : Clock) (g : Gateway) (request : SealedRequest) :
    StateM Entropy (HttpResponse × Gateway) := do
  let (received, prekeys) := Responder.receiveRequest s clock g.prekeys request
  let g := { g with prekeys := prekeys }
  match received with
  | .error error => return (rejectError error, g)
  | .ok opened =>
    let response : HttpResponse :=
      { status := 200, headers := Headers.empty.insert "Content-Type" "application/json"
        body := (echoBody opened).bytes }
    return (sealedResponse (← (Responder.replyWith s clock.wall opened.session response).run), g)

/-- Tells that the gateway is there. -/
def health : HttpResponse :=
  jsonResponse 200 (.ofMembers [("status", .string "ok"), ("version", .string version)])

/-- Answers a call of the right method to a route. -/
def answerRoute (s : Suite) (clock : Clock) (g : Gateway) (call : HttpCall) :
    Route → StateM Entropy (HttpResponse × Gateway)
  | .health =>
    return (if call.method = "HEAD" then { health with body := [] } else health, g)
  | .prekey =>
    match readBody Offer.reading call with
    | .error response => return (response, g)
    | .ok offer => answerOffer s clock g offer
  | .login =>
    match readBody SealedRequest.reading call with
    | .error response => return (response, g)
    | .ok request => answerLogin s clock g request
  | .detail => return (answerDetail s clock g call, g)
  | .logout => return answerLogout s g call
  | .echo =>
    match readBody SealedRequest.reading call with
    | .error response => return (response, g)
    | .ok request => answerEcho s clock g request

/-- The value of the `allow` header for a route. -/
def allowed (route : Route) : String := ",".intercalate route.methods

/-- Answers a call. A call with the method `OPTIONS` is told which methods there are. -/
def answer (s : Suite) (clock : Clock) (g : Gateway) (call : HttpCall) :
    StateM Entropy (HttpResponse × Gateway) :=
  let route := Route.ofPath? call.target.path
  let withAllow := fun (response : HttpResponse) =>
    match route with
    | none => response
    | some route => { response with headers := response.headers.insert "allow" (allowed route) }
  -- A browser asks for leave before it calls, and has it for any path.
  if call.method = "OPTIONS" then return (withAllow (bare 200), g)
  else
    match route with
    | none => return (bare 404, g)
    | some route =>
      if call.method ∈ route.methods then answerRoute s clock g call route
      else return (withAllow (bare 405), g)

end Gateway

end SealedEnvelope
