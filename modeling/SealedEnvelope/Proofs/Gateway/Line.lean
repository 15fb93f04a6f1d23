import SealedEnvelope.Proofs.Call.AnsweredLogin
import SealedEnvelope.Proofs.Gateway.LoginCall

/-!
# `SealedEnvelope.Proofs.Gateway.Line`: a client that talks to a gateway

`Delivery` says what comes in of a request. Here a transport delivers the requests of a client to
a gateway and brings the responses back (`Line.transport`). The two sides have clocks and random
bytes of their own, so that each request comes with two worlds: what the gateway finds around it
when it answers, and what the client finds around it when it has the response.

A session key that a gateway has granted is made of digits. It can be sent as it is, and is found
again at the other end. A peer can grant any text that is not empty, though, and a client that
remembers one that no header can hold sends nothing at all (`Client.CanSend`).

Main statements:

* `Line.answers`: a request that can be sent is answered by the gateway;
* `Client.arrival?_eq_none`: what does not come in from a client that can send nothing;
* `Client.exists_bearing_call`: a request of a client that is logged in bears its session key.
-/

set_option autoImplicit false

namespace SealedEnvelope

/-! ## Session keys in headers -/

/-- The session key of digits can be seen in the header that shows it. -/
theorem visible_bearer (bytes : Bytes) :
    ∀ b ∈ Utf8.encode ("Bearer " ++ Hex.encode bytes), 0x20 ≤ b.toNat ∧ b.toNat < 0x7F := by
  have hscheme : ("Bearer ".toList.all fun c => decide (0x20 ≤ c.toNat ∧ c.toNat < 0x7F)) = true := by
    decide
  have hdigit : ∀ n < 16, 0x20 ≤ (Hex.digit n).toNat ∧ (Hex.digit n).toNat < 0x7F := by
    decide
  have hchars : ∀ c ∈ ("Bearer " ++ Hex.encode bytes).toList, 0x20 ≤ c.toNat ∧ c.toNat < 0x7F := by
    have hdigits : (Hex.encode bytes).toList = bytes.flatMap Hex.encodeByte := String.toList_ofList
    intro c hc
    rw [String.toList_append, hdigits, List.mem_append] at hc
    rcases hc with hc | hc
    · exact of_decide_eq_true (List.all_eq_true.1 hscheme c hc)
    · obtain ⟨n, hn, rfl⟩ := Hex.exists_digit_of_mem hc
      exact hdigit n hn
  have hlow : ∀ c ∈ ("Bearer " ++ Hex.encode bytes).toList, c.toNat < 0x80 := fun c hc =>
    Nat.lt_trans (hchars c hc).2 (by decide)
  rw [Utf8.encode_of_lt hlow]
  intro b hb
  obtain ⟨c, hc, rfl⟩ := List.mem_map.1 hb
  have hbounds := hchars c hc
  rw [UInt8.toNat_ofNat']
  omega

/-- Whether the address of a path leads to a route. -/
def ClientConfig.leadsTo (config : ClientConfig) (path : String) (route : Route) : Bool :=
  (RequestTarget.ofText? (config.url path)).any fun target => Route.ofPath? target.path == some route

namespace Client

variable {client : Client} {login : Login} {bytes : Bytes} {path : String} {route : Route}

/-- Whether a client can send anything: the session key that it remembers, if any, can stand in a
header. -/
def CanSend (client : Client) : Prop :=
  ∀ login, client.login? = some login →
    HttpCall.isHeaderValue (Utf8.encode ("Bearer " ++ login.sessionKey)) = true

/-- It can if its headers can be sent, since there is nothing else in them. -/
theorem canSend_iff : client.CanSend ↔ (client.headers.entries.all fun entry =>
    HttpCall.isHeaderName entry.1 && HttpCall.isHeaderValue (Utf8.encode entry.2)) = true := by
  have hname : HttpCall.isHeaderName "Authorization" = true := by
    decide +kernel
  rw [entries_headers, CanSend]
  cases client.login? with
  | none => exact iff_of_true (fun other hother => absurd hother.symm (Option.some_ne_none other)) rfl
  | some login =>
    rw [authorization, List.all_cons, hname, List.all_nil, Bool.true_and, Bool.and_true]
    exact ⟨fun h => h login rfl, fun h _ heq => Option.some.inj heq ▸ h⟩

/-- A client that can send reaches what its addresses lead to. -/
theorem reaches_iff : client.reaches path route = true
    ↔ client.CanSend ∧ client.config.leadsTo path route = true := by
  rw [canSend_iff, ← Bool.and_eq_true]
  rfl

/-- Of one that cannot send nothing comes in. -/
theorem arrival?_eq_none (h : ¬ client.CanSend) (path : String) (body : Option JsonValue) :
    (client.request path body).arrival? = none := by
  have hrefused : ¬ ((client.request path body).sentHeaders.all fun entry =>
      HttpCall.isHeaderName entry.1 && HttpCall.isHeaderValue entry.2) = true := by
    intro hsends
    rw [HttpRequest.sentHeaders, List.all_cons, List.all_map, Bool.and_eq_true] at hsends
    exact h (canSend_iff.2 hsends.2)
  rw [HttpRequest.arrival?, HttpCall.ofParts?, Bool.eq_false_iff.2 hrefused, Bool.and_false]
  rfl

/-- A session key of digits can be sent. -/
theorem reaches_of_leadsTo (hlogin : client.login? = some login)
    (hkey : login.sessionKey = Hex.encode bytes) (h : client.config.leadsTo path route = true) :
    client.reaches path route = true := by
  refine reaches_iff.2 ⟨fun other hother => ?_, h⟩
  obtain rfl := Option.some.inj (hlogin.symm.trans hother)
  rw [hkey, HttpCall.isHeaderValue, List.all_eq_true]
  intro b hb
  obtain ⟨hlow, hhigh⟩ := visible_bearer bytes b hb
  rw [decide_eq_true hlow, bne_iff_ne.2 (Nat.ne_of_lt hhigh)]
  rfl

/-- What it sends there bears the session key, with or without a body. -/
theorem exists_bearing_call (hlogin : client.login? = some login)
    (hkey : login.sessionKey = Hex.encode bytes) (h : client.config.leadsTo path route = true)
    (hmethod : "POST" ∈ route.methods) (body : Option JsonValue) :
    ∃ call, (client.request path body).arrival? = some call ∧ call.IsTo route
      ∧ call.Bears login.sessionKey := by
  obtain ⟨call, harrival, hpost, htarget, hheaders, -⟩ :=
    exists_call (reaches_of_leadsTo hlogin hkey h) body
  refine ⟨call, harrival, ⟨htarget, hpost ▸ hmethod⟩, ?_⟩
  have hsent : call.headers = [("content-type", Utf8.encode "application/json"),
      ("Authorization", Utf8.encode ("Bearer " ++ login.sessionKey))] := by
    rw [hheaders, HttpRequest.sentHeaders, request, entries_headers, hlogin]
    rfl
  have hother : ("content-type".map Char.toLower == "authorization") = false := by
    decide +kernel
  have hname : ("Authorization".map Char.toLower == "authorization") = true := by
    decide +kernel
  have hfind : (call.headers.find? fun entry => entry.1.map Char.toLower == "authorization")
      = some ("Authorization", Utf8.encode ("Bearer " ++ login.sessionKey)) := by
    simp only [hsent, List.find?_cons, hother, hname]
  refine HttpCall.headerText?_of_find? hfind ?_
  rw [hkey, List.all_eq_true]
  intro b hb
  obtain ⟨hlow, hhigh⟩ := visible_bearer bytes b hb
  rw [decide_eq_true hlow, decide_eq_true hhigh]
  rfl

end Client

/-! ## Lines -/

/-- A gateway at the other end of a line. Each request has its moment: the world around the gateway
when it answers, and the world around the client when it has the response. -/
structure Line where
  gateway : Gateway
  moments : List (World × World)

namespace Line

/-- The failure of a request that is not sent. -/
def undelivered : CallError := .transport "not delivered"

/-- Has the gateway answer a request, and fails if there is no moment for it or if it cannot be
sent. -/
def transport (s : Suite) : Transport Line := fun request (world, line) =>
  match request.arrival?, line.moments with
  | some call, (there, back) :: moments =>
    let outcome := (line.gateway.answer s there.clock call there.entropy).1
    (.ok outcome.1, (back, { gateway := outcome.2, moments := moments }))
  | _, _ => (.error undelivered, (world, line))

/-- A request that can be sent is answered with what the gateway says to it. -/
theorem answers {s : Suite} {request : HttpRequest} {call : HttpCall} {there back : World}
    {g g' : Gateway} {response : HttpResponse} (harrival : request.arrival? = some call)
    (hanswer : (g.answer s there.clock call there.entropy).1 = (response, g'))
    (moments : List (World × World)) :
    (transport s).Answers request { gateway := g, moments := (there, back) :: moments } response back
      { gateway := g', moments := moments } := by
  intro world
  simp only [transport, harrival, hanswer]

/-- One that cannot be sent changes nothing. -/
theorem transport_of_arrival?_eq_none {s : Suite} {request : HttpRequest}
    (h : request.arrival? = none) (world : World) (line : Line) :
    transport s request (world, line) = (.error undelivered, (world, line)) := by
  simp only [transport, h]

end Line

end SealedEnvelope
