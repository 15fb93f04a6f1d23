import SealedEnvelope.Call.Body
import SealedEnvelope.Call.Config
import SealedEnvelope.Call.Exchange
import SealedEnvelope.Call.Login
import SealedEnvelope.Call.Payload
import SealedEnvelope.Updating

/-!
# `SealedEnvelope.Call.Client`: the client side of secured calls

A client makes handshakes, sends sealed requests and plain ones, and remembers at most
one login. Every sealed request has a handshake of its own, so that no two share keys.

An operation is made of steps that talk to nobody: what the client sends (`offerRequest`,
`sealedRequest`) and what it makes of the response (`readAnswer`, `readCallReply`,
`readLoginReply`). `handshake`, `sendSealed`, `call`, `requestLogin` and `post` put a transport
between them, and leave the client as it is. `login` and `forget` change the login that it
remembers. `perform` runs any operation.
-/

set_option autoImplicit false

namespace SealedEnvelope

/-- A client. -/
structure Client where
  config : ClientConfig
  login? : Option Login := none

/-- How a handshake ends. -/
inductive HandshakeOutcome where
  | established (session : Session)
  /-- The peer does not take the offer. -/
  | rejected (response : HttpResponse)

/-- How far a sealed request comes. -/
inductive SealedOutcome where
  /-- It is answered; the session can read the response. -/
  | answered (session : Session) (response : HttpResponse)
  /-- It is not sent, because the peer does not take the offer. -/
  | rejected (response : HttpResponse)

/-- How a login ends. -/
inductive LoginOutcome where
  | loggedIn (login : Login)
  /-- The peer does not take the offer or the login. -/
  | rejected (response : HttpResponse)

/-- How a plain request ends. -/
inductive PostOutcome where
  | answered (response : HttpResponse)
  /-- The caller insists on the status 200, and the status is another. -/
  | halted (url : String) (status : UInt16)

/-- The last words of a caller that insists on the status 200. -/
def haltMessage (url : String) (status : UInt16) : String :=
  url ++ ": status code is " ++ Numeral.render status.toNat ++ " (execution halted)"

namespace Client

/-! ## What is sent -/

/-- The headers of every request: the session key, if there is a login. -/
def headers (client : Client) : Headers :=
  match client.login? with
  | none => Headers.empty
  | some login => Headers.empty.insert "Authorization" ("Bearer " ++ login.sessionKey)

/-- A request to a path of the peer. -/
def request (client : Client) (path : String) (body : Option JsonValue) : HttpRequest :=
  { url := client.config.url path, headers := client.headers, body := body }

/-- The request that offers a handshake. -/
def offerRequest (s : Suite) (client : Client) (bundle : Bundle) : HttpRequest :=
  client.request client.config.prekeyPath (some (.ofMembers (bundle.offer s).members))

/-- The request that sends a payload sealed. -/
def sealedRequest (s : Suite) (now : Instant) (client : Client) (session : Session) (path : String)
    (payload : List Bytes) : Drawing CallError HttpRequest := do
  let envelope ← Drawing.mapError .envelope (session.pack s now payload)
  let body : SealedRequest := { index := session.index, envelope := envelope }
  return client.request path (some (.ofMembers body.members))

/-! ## What is made of a response -/

/-- What the response to an offer makes of a handshake. -/
def readAnswer (s : Suite) (bundle : Bundle) (response : HttpResponse) :
    Except CallError HandshakeOutcome := do
  if ¬ response.isOk then return .rejected response
  let answer ← CallError.onJson (JsonReader.whole Answer.reading response.body)
  let session ← CallError.onEnvelope (bundle.complete s answer)
  return .established session

/-- The envelope in the body of a sealed reply. -/
def envelope? (body : JsonValue) : Option String := (body.member? "d").bind JsonValue.text?

/-- The response to a call. A response without an envelope is not from within the session:
it is what a peer says that could not open the request, and it is handed on as it is. -/
def readCallReply (s : Suite) (now : Instant) (session : Session) (response : HttpResponse) :
    Except CallError HttpResponse :=
  match response.json.toOption.bind envelope? with
  | none => .ok response
  | some envelope => do
    let payload ← CallError.onEnvelope (session.unpack s now envelope)
    Payload.decodeResponse payload

/-- What the response to a login makes of it. -/
def readLoginReply (s : Suite) (now : Instant) (session : Session) (response : HttpResponse) :
    Except CallError LoginOutcome := do
  if ¬ response.isOk then return .rejected response
  let body ← CallError.onJson response.json
  match envelope? body with
  | none => throw (.missingField "d")
  | some envelope =>
    match ← CallError.onEnvelope (session.unpack s now envelope) with
    | [] => throw (.missingField "session")
    -- Only the first element counts; a peer may add others.
    | first :: _ => return .loggedIn (← Login.read first)

/-! ## Operations -/

variable {σ : Type}

/-- Makes a handshake. -/
def handshake (s : Suite) (transport : Transport σ) (client : Client) :
    Exchange σ HandshakeOutcome := do
  let bundle ← Exchange.draw (Drawing.mapError (fun _ => .random) Bundle.draw)
  let response ← transport (client.offerRequest s bundle)
  Exchange.ofResult (readAnswer s bundle response)

/-- Makes a handshake and sends a payload sealed. -/
def sendSealed (s : Suite) (transport : Transport σ) (client : Client) (path : String)
    (payload : List Bytes) : Exchange σ SealedOutcome := do
  match ← client.handshake s transport with
  | .rejected response => return .rejected response
  | .established session =>
    let request ← Exchange.draw (client.sealedRequest s (← Exchange.now) session path payload)
    return .answered session (← transport request)

/-- Makes a secured call. -/
def call (s : Suite) (transport : Transport σ) (client : Client) (path : String) (headers : Headers)
    (body : JsonValue) : Exchange σ HttpResponse := do
  match ← client.sendSealed s transport path (Payload.encodeRequest headers body) with
  | .rejected response => return response
  | .answered session response =>
    Exchange.ofResult (readCallReply s (← Exchange.now) session response)

/-- Asks the peer for a login. -/
def requestLogin (s : Suite) (transport : Transport σ) (client : Client)
    (user password : String) : Exchange σ LoginOutcome := do
  let payload := [Utf8.encode user, Utf8.encode password]
  match ← client.sendSealed s transport client.config.loginPath payload with
  | .rejected response => return .rejected response
  | .answered session response =>
    Exchange.ofResult (readLoginReply s (← Exchange.now) session response)

/-- Logs in. A login that is granted takes the place of the one that is remembered. -/
def login (s : Suite) (transport : Transport σ) (user password : String) :
    Updating Client (StateM (World × σ)) CallError LoginOutcome := do
  let client ← get
  match ← Updating.lift (client.requestLogin s transport user password) with
  | .rejected response => return .rejected response
  | .loggedIn login =>
    set { client with login? := some login }
    return .loggedIn login

/-- Forgets the login. -/
def forget (client : Client) : Client := { client with login? := none }

/-- Sends a plain request, with `insists` for a caller that insists on the status 200. -/
def post (transport : Transport σ) (client : Client) (path : String) (body : Option JsonValue)
    (insists : Bool) : Exchange σ PostOutcome := do
  let response ← transport (client.request path body)
  if insists && !response.isOk then return .halted (client.config.url path) response.status
  else return .answered response

/-! ## Runs -/

/-- Something that a client does. -/
inductive Operation where
  | handshake
  | call (path : String) (headers : Headers) (body : JsonValue)
  | login (user password : String)
  | post (path : String) (body : Option JsonValue) (insists : Bool)
  /-- Forgets the login. -/
  | forget

/-- What comes of an operation. -/
inductive Outcome where
  | handshake (outcome : HandshakeOutcome)
  | call (response : HttpResponse)
  | login (outcome : LoginOutcome)
  | post (outcome : PostOutcome)
  | forget

/-- Performs an operation. Only two of them can change the client. -/
def perform (s : Suite) (transport : Transport σ) :
    Operation → Updating Client (StateM (World × σ)) CallError Outcome
  | .handshake => do
    let client ← get
    return .handshake (← Updating.lift (client.handshake s transport))
  | .call path headers body => do
    let client ← get
    return .call (← Updating.lift (client.call s transport path headers body))
  | .login user password => return .login (← login s transport user password)
  | .post path body insists => do
    let client ← get
    return .post (← Updating.lift (client.post transport path body insists))
  | .forget => do
    modify forget
    return .forget

end Client

end SealedEnvelope
