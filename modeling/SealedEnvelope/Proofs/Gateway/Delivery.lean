import SealedEnvelope.Call.Client
import SealedEnvelope.Proofs.Gateway.History
import SealedEnvelope.Proofs.Json.Records
import SealedEnvelope.Proofs.Text.Spelling

/-!
# `SealedEnvelope.Proofs.Gateway.Delivery`: requests of a client come in at a gateway

A request is sent as a post with JSON in it. If its address names a route of the gateway, it
comes in there, and the body is read if it is not too long.

Main statements:

* `Client.exists_arrival`: what comes in of a request;
* `Gateway.readBody_of_posts`: what is read of it;
* `Gateway.answer_offer`: an offer is answered, and leaves an entry behind;
* `Bundle.length_offer` and `SealedRequest.length_bytes`: how long the bodies are.
-/

set_option autoImplicit false

namespace SealedEnvelope

open Utf8 (encodeChars)

/-! ## How long the bodies are -/

/-- Where no character is escaped, each one is a byte of the string. -/
theorem length_flatMap_escapeChar {chars : List Char}
    (h : ∀ c ∈ chars, escapeChar c = [c] ∧ c.toNat < 0x80) :
    (encodeChars (chars.flatMap escapeChar)).length = chars.length := by
  induction chars with
  | nil => rfl
  | cons c chars ih =>
    obtain ⟨⟨hescape, hlow⟩, hchars⟩ := List.forall_mem_cons.1 h
    rw [List.flatMap_cons, Utf8.encodeChars_append, List.length_append, ih hchars, hescape,
      Utf8.encodeChars_cons, Utf8.encodeChar_of_lt hlow, List.length_cons]
    exact Nat.add_comm ..

/-- A text of hexadecimal digits is quoted as it is. -/
theorem length_string_hex (bytes : Bytes) :
    (encodeChars (JsonValue.string (Hex.encode bytes)).chars).length = 2 * bytes.length + 2 := by
  have hdigit : ∀ n < 16, escapeChar (Hex.digit n) = [Hex.digit n] ∧ (Hex.digit n).toNat < 0x80 := by
    decide
  have hplain : ∀ c ∈ bytes.flatMap Hex.encodeByte, escapeChar c = [c] ∧ c.toNat < 0x80 := by
    intro c hc
    obtain ⟨n, hn, rfl⟩ := Hex.exists_digit_of_mem hc
    exact hdigit n hn
  have hquoted := congrArg List.length (JsonReader.encodeChars_quoteChars (Hex.encode bytes) [])
  rw [List.append_nil] at hquoted
  rw [JsonValue.chars, hquoted, Hex.encode, String.toList_ofList, List.length_cons,
    List.length_append, length_flatMap_escapeChar hplain, Hex.length_flatMap_encodeByte,
    List.length_singleton]

/-- A member is its name, a colon and its text. -/
theorem length_memberText (name : String) (v : JsonValue) :
    (encodeChars (JsonValue.memberText (name, v))).length
      = (encodeChars (quoteChars name)).length + 1 + (encodeChars v.chars).length := by
  rw [JsonValue.memberText, Utf8.encodeChars_append, Utf8.encodeChars_cons, List.length_append,
    List.length_append, Utf8.encodeChar_of_lt (by decide), List.length_singleton, Nat.add_assoc]

/-- How long members are, with a comma or a brace after each of them. -/
def membersLength : List (String × JsonValue) → Nat
  | [] => 0
  | m :: ms => (encodeChars (JsonValue.memberText m)).length + 1 + membersLength ms

/-- After a member come the others, each with a comma before it. -/
theorem length_commaMembers (ms : List (String × JsonValue)) :
    (encodeChars (ms.flatMap fun m => ',' :: JsonValue.memberText m)).length = membersLength ms := by
  induction ms with
  | nil => rfl
  | cons m ms ih =>
    rw [List.flatMap_cons, Utf8.encodeChars_append, List.length_append, ih, Utf8.encodeChars_cons,
      List.length_append, Utf8.encodeChar_of_lt (by decide), List.length_singleton, Nat.add_comm 1,
      membersLength]

/-- An object is its members after a brace. -/
theorem JsonValue.length_bytes_object (m : String × JsonValue) (ms : List (String × JsonValue)) :
    (JsonValue.object (m :: ms)).bytes.length = 1 + membersLength (m :: ms) := by
  have hobject := congrArg List.length (JsonReader.encodeChars_object (m :: ms) [])
  rw [List.append_nil] at hobject
  rw [bytes_eq, hobject, memberChars_cons, Utf8.encodeChars_append, List.length_cons,
    List.length_append, List.length_append, length_commaMembers, List.length_singleton,
    membersLength]
  omega

/-- How long the offer of a side is. -/
theorem Bundle.length_offer (s : Suite) (bundle : Bundle) :
    (JsonValue.ofMembers (bundle.offer s).members).bytes.length = 217 := by
  have hname : ∀ name ∈ ["a0", "a1", "a2"], (encodeChars (quoteChars name)).length = 4 := by
    decide +kernel
  rw [Offer.ofMembers_members]
  simp only [offer, VerifyingKey.hex, ExchangeKey.publicHex, textMembers, List.map_cons,
    List.map_nil, JsonValue.length_bytes_object, membersLength, length_memberText,
    length_string_hex, (bundle.signing.verifyingKey s).bytes.property,
    (bundle.first.publicKey s).property, (bundle.second.publicKey s).property,
    hname "a0" (by decide), hname "a1" (by decide), hname "a2" (by decide)]

/-- How long a sealed request is. -/
theorem SealedRequest.length_bytes (index envelope : Bytes) :
    (JsonValue.ofMembers (members
      { index := Hex.encode index, envelope := Hex.encode envelope })).bytes.length
        = 15 + 2 * index.length + 2 * envelope.length := by
  have hname : ∀ name ∈ ["d", "i"], (encodeChars (quoteChars name)).length = 3 := by
    decide +kernel
  rw [SealedRequest.ofMembers_members]
  simp only [textMembers, List.map_cons, List.map_nil, JsonValue.length_bytes_object,
    membersLength, length_memberText, length_string_hex, hname "d" (by decide),
    hname "i" (by decide)]
  omega

/-! ## What comes in -/

/-- The headers with which a request is sent: it says that it brings JSON. -/
def HttpRequest.sentHeaders (request : HttpRequest) : List (String × Bytes) :=
  ("content-type", Utf8.encode "application/json")
    :: request.headers.entries.map fun entry => (entry.1, Utf8.encode entry.2)

/-- The call as which a request comes in, if it can be sent at all. -/
def HttpRequest.arrival? (request : HttpRequest) : Option HttpCall :=
  HttpCall.ofParts? "POST" request.url request.sentHeaders
    ((request.body.map JsonValue.bytes).getD [])

/-- Whether what a client sends to a path comes in at a route. -/
def Client.reaches (client : Client) (path : String) (route : Route) : Bool :=
  (client.headers.entries.all fun entry =>
      HttpCall.isHeaderName entry.1 && HttpCall.isHeaderValue (Utf8.encode entry.2))
    && (RequestTarget.ofText? (client.config.url path)).any fun target =>
      Route.ofPath? target.path == some route

/-- Whether a call posts a JSON value to a route. -/
structure HttpCall.Posts (call : HttpCall) (route : Route) (value : JsonValue) : Prop where
  method : call.method = "POST"
  target : Route.ofPath? call.target.path = some route
  contentType : call.headerText? "content-type" = some "application/json"
  body : call.body = value.bytes

/-- A header is found under its name in lower case, if its value can be seen. -/
theorem HttpCall.headerText?_of_find? {call : HttpCall} {name found value : String}
    (hfind : (call.headers.find? fun entry => entry.1.map Char.toLower == name)
      = some (found, Utf8.encode value))
    (hvisible : (Utf8.encode value).all
      (fun b => (0x20 ≤ b.toNat && b.toNat < 0x7F) || b == 0x09) = true) :
    call.headerText? name = some value := by
  rw [headerText?, hfind]
  exact (if_pos hvisible).trans (Utf8.decode?_encode value)

/-- The first header is found under its name. -/
theorem HttpCall.headerText?_of_headers_eq_cons {call : HttpCall} {name value : String}
    {rest : List (String × Bytes)} (hheaders : call.headers = (name, Utf8.encode value) :: rest)
    (hname : (name.map Char.toLower == name) = true)
    (hvisible : (Utf8.encode value).all
      (fun b => (0x20 ≤ b.toNat && b.toNat < 0x7F) || b == 0x09) = true) :
    call.headerText? name = some value := by
  have hfind : (call.headers.find? fun entry => entry.1.map Char.toLower == name)
      = some (name, Utf8.encode value) := by
    rw [hheaders]
    exact List.find?_cons_of_pos hname
  exact headerText?_of_find? hfind hvisible

/-- What a client sends to a path comes in at its route, with or without a body. -/
theorem Client.exists_call {client : Client} {path : String} {route : Route}
    (h : client.reaches path route = true) (body : Option JsonValue) :
    ∃ call, (client.request path body).arrival? = some call ∧ call.method = "POST"
      ∧ Route.ofPath? call.target.path = some route
      ∧ call.headers = (client.request path body).sentHeaders
      ∧ call.body = (body.map JsonValue.bytes).getD [] := by
  rw [reaches, Bool.and_eq_true] at h
  obtain ⟨hheaders, htarget⟩ := h
  obtain ⟨target, hread, hroute⟩ := (Option.any_eq_true ..).1 htarget
  have hjson : (HttpCall.isHeaderName "content-type"
      && HttpCall.isHeaderValue (Utf8.encode "application/json")) = true := by
    decide +kernel
  have hmethod : Http.isToken (Utf8.encode "POST") = true := by decide +kernel
  have hsends : ((client.request path body).sentHeaders.all fun entry =>
      HttpCall.isHeaderName entry.1 && HttpCall.isHeaderValue entry.2) = true := by
    rw [HttpRequest.sentHeaders, List.all_cons, hjson, List.all_map]
    exact hheaders
  refine ⟨{ method := "POST", target := target, headers := (client.request path body).sentHeaders
            body := (body.map JsonValue.bytes).getD [] }, ?_, rfl, eq_of_beq hroute, rfl, rfl⟩
  rw [HttpRequest.arrival?, HttpCall.ofParts?, hmethod]
  show (if _ then (RequestTarget.ofText? (client.config.url path)).map _ else none) = _
  rw [hread]
  exact if_pos hsends

/-- A JSON value that a client sends to a path is posted to its route. -/
theorem Client.exists_arrival {client : Client} {path : String} {route : Route}
    (h : client.reaches path route = true) (value : JsonValue) :
    ∃ call, (client.request path (some value)).arrival? = some call ∧ call.Posts route value := by
  obtain ⟨call, harrival, hmethod, htarget, hheaders, hbody⟩ := Client.exists_call h (some value)
  refine ⟨call, harrival,
    { method := hmethod, target := htarget, contentType := ?_, body := hbody }⟩
  exact HttpCall.headerText?_of_headers_eq_cons hheaders (by decide +kernel) (by decide +kernel)

namespace Gateway

/-- What is read of a body that is not too long. -/
theorem readBody_of_posts {α : Type} {call : HttpCall} {route : Route} {value : JsonValue}
    (h : call.Posts route value) (hlength : value.bytes.length ≤ maxBodyLength)
    {reading : JsonReader.Reading α} {found : α} {rest : Bytes}
    (hread : reading value.bytes = .ok (found, rest)) : readBody reading call = .ok found := by
  have hjson : MediaType.isJson (Utf8.encode "application/json") = true := by decide +kernel
  rw [readBody, h.contentType, Option.any_some, hjson, if_neg (by decide), h.body,
    if_neg (Nat.not_lt.2 hlength), hread]

/-- An offer of keys that go together with those that are drawn is answered, and leaves an entry
behind. -/
theorem answer_offer {s : Suite} {world : World} {call : HttpCall} {initiator : Bundle}
    (h : call.Posts .prekey (.ofMembers (initiator.offer s).members))
    (hentropy : world.entropy.has 112 = true)
    (hcompatible : initiator.Compatible s (PrekeyStore.drawnKeys world.entropy)) (g : Gateway) :
    (g.answer s world.clock call world.entropy).1
      = (jsonResponse 200 (.object ((PrekeyStore.drawnKeys world.entropy).answer s
            (PrekeyStore.drawnIndex world.entropy)).members),
        { g with
          prekeys := g.prekeys.insert
            (PrekeyStore.drawnEntry s world.clock.steady initiator world.entropy) }) := by
  have hlength : (JsonValue.ofMembers (initiator.offer s).members).bytes.length
      ≤ maxBodyLength := by
    rw [Bundle.length_offer]
    decide
  have hread := readBody_of_posts h hlength (Offer.reading_members (initiator.offer s))
  have hmethod : call.method ∈ Route.methods .prekey := by
    rw [h.method]
    decide
  have hprepared : (PrekeyStore.prepare s world.clock.steady (initiator.offer s) world.entropy).1 = _ :=
    PrekeyStore.prepare_of_has hentropy hcompatible
  rw [answer_of_route h.target hmethod, answerRoute, hread]
  -- The keys go together, so that the offer is taken.
  rcases answerOffer_cases s world.clock g (initiator.offer s) world.entropy with
    ⟨answer, entry, hprepare, houtcome⟩ | ⟨error, hprepare, -⟩
  · rw [hprepared] at hprepare
    obtain ⟨rfl, rfl⟩ := Prod.mk.inj (Except.ok.inj hprepare)
    exact houtcome
  · rw [hprepared] at hprepare
    cases hprepare

end Gateway

end SealedEnvelope
