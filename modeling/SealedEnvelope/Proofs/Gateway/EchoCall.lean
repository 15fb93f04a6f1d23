import SealedEnvelope.Proofs.Call.Payload
import SealedEnvelope.Proofs.Call.Playback
import SealedEnvelope.Proofs.Envelope.Size
import SealedEnvelope.Proofs.Gateway.Delivery

/-!
# `SealedEnvelope.Proofs.Gateway.EchoCall`: one secured call that is echoed

A call goes through five moments: the client makes its offer, the gateway answers it, the client
seals its request, the gateway echoes it, and the client opens the reply. `EchoCall` is a call
with the worlds that the two find around them at these moments, and `EchoCall.Ready` is what
has to be so for the call to succeed. What happens at the gateway in between is of no matter, if
the entry that the offer has left is still there when the sealed request comes in.

Main statements:

* `EchoCall.Ready.exists_offer`: the offer comes in, is answered and leaves its entry behind;
* `EchoCall.Ready.exists_echo`: the sealed request takes the entry of its index, and the client
  reads the echo in the reply if that entry is its own;
* `EchoCall.Ready.json_echoResponse`: the body of the echo reads as what the client has sent.
-/

set_option autoImplicit false

namespace SealedEnvelope

/-! ## What a peer makes of a sealed request -/

section
variable {s : Suite} {clock : Clock} {store : PrekeyStore} {request : SealedRequest}
  {session : Session} {payload : List Bytes} {headers : Headers} {body : JsonValue}

/-- A request is opened with the session that is taken for it. -/
theorem Responder.receive_of_take_ok
    (htake : (store.take clock.steady request.index).1 = .ok session)
    (hunpack : session.unpack s clock.wall request.envelope = .ok payload) :
    (receive s clock store request).1 = .ok (session, payload) := by
  simp only [Gateway.receive_eq, htake, bind, Except.bind, hunpack, CallError.onEnvelope_ok]

/-- Its headers and its body are read of the payload. -/
theorem Responder.receiveRequest_of_receive_ok
    (hreceive : (receive s clock store request).1 = .ok (session, payload))
    (hdecode : Payload.decodeRequest payload = .ok (headers, body)) :
    (receiveRequest s clock store request).1
      = .ok { session := session, headers := headers, body := body } := by
  show ((receive s clock store request).1 >>= _) = _
  rw [hreceive]
  show (Payload.decodeRequest payload >>= _) = _
  rw [hdecode]
  rfl

/-- The response that says of an opened request what was in it. -/
def Gateway.echoResponse (opened : Responder.Opened) : HttpResponse where
  status := 200
  headers := Headers.empty.insert "Content-Type" "application/json"
  body := (echoBody opened).bytes

/-- A reply is sealed once its envelope is made. -/
theorem Responder.reply_of_pack_ok {now : Instant} {e : Entropy} {envelope : String}
    (h : (session.pack s now payload e).1 = .ok envelope) :
    (reply s now session payload e).1 = .ok { envelope := envelope } := by
  obtain ⟨e', hpack⟩ := Drawing.exists_of_fst_eq_ok h
  rw [reply, Drawing.bind_of_eq_ok (Drawing.mapError_of_eq_ok hpack CallError.envelope)]
  rfl

/-- A request that is opened is answered with its echo, if that can be sealed, and with why it cannot
be sealed otherwise. -/
theorem Gateway.answerEcho_of_receiveRequest_ok {g : Gateway} {opened : Responder.Opened}
    (hreceive : (Responder.receiveRequest s clock g.prekeys request).1 = .ok opened) (e : Entropy) :
    (g.answerEcho s clock request e).1.1
      = sealedResponse (Responder.replyWith s clock.wall opened.session (echoResponse opened) e).1 := by
  unfold answerEcho
  generalize Responder.receiveRequest s clock g.prekeys request = received at hreceive
  obtain ⟨received, prekeys⟩ := received
  obtain rfl : received = .ok opened := hreceive
  simp only [bind, StateT.bind, ExceptT.run, echoResponse]
  generalize Responder.replyWith s clock.wall opened.session _ e = outcome
  obtain ⟨reply, e'⟩ := outcome
  rfl

/-- A call to the echo is answered once its body has been read. -/
theorem Gateway.answer_of_echo {g : Gateway} {call : HttpCall}
    (h : Route.ofPath? call.target.path = some .echo) (hmethod : call.method ∈ Route.methods .echo)
    (hread : readBody SealedRequest.reading call = .ok request) :
    g.answer s clock call = g.answerEcho s clock request := by
  rw [answer_of_route h hmethod, answerRoute, hread]

/-- A client has a session with the answer to an offer of keys that go together with those of the
other side. -/
theorem Client.readAnswer_of_compatible {initiator responder : Bundle}
    (h : initiator.Compatible s responder) (index : String) :
    readAnswer s initiator (Gateway.jsonResponse 200 (.object (responder.answer s index).members))
      = .ok (.established (initiator.session s responder .initiator index)) := by
  have hread : JsonReader.whole Answer.reading
      (Gateway.jsonResponse 200 (.object (responder.answer s index).members)).body
        = .ok (responder.answer s index) := by
    rw [Gateway.body_jsonResponse]
    exact JsonReader.whole_eq_ok (Answer.reading_members _)
  exact readAnswer_of_isOk rfl hread (h.complete index)

/-- A client opens an envelope that is in a response, and reads the response in it. -/
theorem Client.readCallReply_of_json {now : Instant} {response inner : HttpResponse}
    {value : JsonValue} (hjson : response.json = .ok value) {envelope : String}
    (hmember : envelope? value = some envelope)
    (hunpack : session.unpack s now envelope = .ok payload)
    (hdecode : Payload.decodeResponse payload = .ok inner) :
    readCallReply s now session response = .ok inner := by
  simp only [readCallReply, hjson, Except.toOption, Option.bind_some, hmember, bind, Except.bind,
    hunpack, CallError.onEnvelope_ok, hdecode]

/-- The envelope of a sealed reply is found in its body. -/
theorem json_sealedReply (envelope : String) :
    (Gateway.jsonResponse 200 (.object (SealedReply.members { envelope := envelope }))).json
      = .ok (.object [("d", .string envelope)]) := by
  have hstring : ∀ m ∈ [("d", JsonValue.string envelope)], m.2 = .string envelope := by
    intro m hm
    rw [List.mem_singleton.1 hm]
  rw [HttpResponse.json, Gateway.body_jsonResponse, SealedReply.members]
  refine JsonValue.read_bytes (.object _ (List.pairwise_singleton _ _) fun m hm => ?_)
    (.object _ fun m hm => ?_) ?_
  · rw [hstring m hm]
    exact .string envelope
  · rw [hstring m hm]
    exact .string envelope
  · simp only [JsonValue.depth, JsonValue.membersDepth, JsonReader.maxDepth]
    decide

end

/-! ## Calls -/

/-- A secured call to the echo of a gateway, with what the client and the gateway find around
them. -/
structure EchoCall where
  client : Client
  headers : Headers
  body : JsonValue
  /-- Around the client, when it makes its offer. -/
  offering : World
  /-- Around the gateway, when it answers the offer. -/
  issuing : World
  /-- Around the client, when it has the answer. -/
  sealing : World
  /-- Around the gateway, when it echoes the sealed request. -/
  echoing : World
  /-- Around the client, when it has the reply. -/
  opening : World

namespace EchoCall

/-- The path of the echo. -/
def path : String := "/e2ee/echo"

/-- What the client has come to with the responses that it has had so far. -/
def run (s : Suite) (call : EchoCall) (replies : List (HttpResponse × World)) :
    Except CallError HttpResponse × World × Playback :=
  call.client.call s Playback.transport path call.headers call.body
    (call.offering, { replies := replies })

/-- The request that the client is waiting with, if it is. -/
def waiting? (s : Suite) (call : EchoCall) (replies : List (HttpResponse × World)) :
    Option HttpRequest :=
  (call.run s replies).2.2.sent[replies.length]?

/-- What has come of the call. -/
def outcome (s : Suite) (call : EchoCall) (replies : List (HttpResponse × World)) :
    Except CallError HttpResponse :=
  (call.run s replies).1

/-! ## What the two sides draw -/

/-- The keys of the client. -/
def initiator (call : EchoCall) : Bundle := Bundle.drawn call.offering.entropy

/-- The keys of the gateway. -/
def responder (call : EchoCall) : Bundle := PrekeyStore.drawnKeys call.issuing.entropy

/-- The index of the prekey. -/
def index (call : EchoCall) : String := PrekeyStore.drawnIndex call.issuing.entropy

/-- The sessions of both. -/
def sessions (s : Suite) (call : EchoCall) : Role → Session :=
  Role.pick (call.initiator.session s call.responder .initiator call.index)
    (call.responder.session s call.initiator .responder call.index)

/-- What the gateway keeps for the sealed request. -/
def entry (s : Suite) (call : EchoCall) : PrekeyEntry :=
  PrekeyStore.drawnEntry s call.issuing.clock.steady call.initiator call.issuing.entropy

/-- The answer to the offer. -/
def answer (s : Suite) (call : EchoCall) : HttpResponse :=
  Gateway.jsonResponse 200 (.object (call.responder.answer s call.index).members)

/-- What the client seals. -/
def payload (call : EchoCall) : List Bytes := Payload.encodeRequest call.headers call.body

/-- What the gateway opens. -/
def opened (s : Suite) (call : EchoCall) : Responder.Opened where
  session := call.sessions s .responder
  headers := call.headers
  body := call.body

/-- The sealed request as an attempt to write, -/
def requesting (call : EchoCall) : Attempt where
  writer := .initiator
  now := call.sealing.clock.wall
  payload := call.payload
  entropy := call.sealing.entropy

/-- and the sealed reply. -/
def replying (s : Suite) (call : EchoCall) : Attempt where
  writer := .responder
  now := call.echoing.clock.wall
  payload := Payload.encodeResponse (Gateway.echoResponse (call.opened s))
  entropy := call.echoing.entropy

/-- Whether an envelope can be stamped with a time: one of the years 0 to 9999, and no leap
second. -/
structure Stampable (now : Instant) : Prop where
  isLeap : now.isLeap = false
  year_nonneg : 0 ≤ now.year
  year_le : now.year ≤ 9999

/-- What has to be so for a call to succeed at a gateway that keeps prekeys for a lifetime. -/
structure Ready (s : Suite) (lifetime : Milliseconds) (call : EchoCall) : Prop where
  /-- The body is a value that can be written and read back inside of an object. -/
  canonical : call.body.Canonical
  integral : call.body.Integral
  depth_le : call.body.depth ≤ 126
  /-- The requests of the client come in at the gateway, -/
  reaches_prekey : call.client.reaches call.client.config.prekeyPath .prekey = true
  reaches_echo : call.client.reaches path .echo = true
  /-- and the sealed one is no longer than a body may be. -/
  fits : 47 + 2 * (4 + Envelope.valueLength call.index call.payload) ≤ Gateway.maxBodyLength
  /-- There are random bytes for the keys, the index and the envelopes. -/
  has_offering : call.offering.entropy.has 96 = true
  has_issuing : call.issuing.entropy.has 112 = true
  has_sealing : call.sealing.entropy.has 48 = true
  has_echoing : call.echoing.entropy.has 48 = true
  /-- The keys go together. -/
  compatible : call.initiator.Compatible s call.responder
  /-- The prekey does not wait longer than it can be used. -/
  waits : call.echoing.clock.steady - call.issuing.clock.steady ≤ lifetime
  /-- The envelopes can be stamped, and are opened at most 299 seconds later. -/
  sealing_stampable : Stampable call.sealing.clock.wall
  echoing_stampable : Stampable call.echoing.clock.wall
  opening_isLeap : call.opening.clock.wall.isLeap = false
  request_age :
    call.echoing.clock.wall.unixNanos - call.sealing.clock.wall.unixNanos ≤ 299 * nanosPerSecond
  reply_age :
    call.opening.clock.wall.unixNanos - call.echoing.clock.wall.unixNanos ≤ 299 * nanosPerSecond

variable {s : Suite} {lifetime : Milliseconds} {call : EchoCall} {g : Gateway}

/-! ## The offer -/

/-- At first the client waits with its offer. -/
theorem waiting?_nil (h : call.Ready s lifetime) :
    call.waiting? s [] = some (call.client.offerRequest s call.initiator) := by
  rw [waiting?, run, Client.call_of_nil h.has_offering]
  rfl

/-- The offer is answered, and leaves an entry behind. -/
theorem answer_offer (h : call.Ready s lifetime) :
    ∃ arrived, (call.client.offerRequest s call.initiator).arrival? = some arrived
      ∧ ∀ g : Gateway, (g.answer s call.issuing.clock arrived call.issuing.entropy).1
        = (call.answer s, { g with prekeys := g.prekeys.insert (call.entry s) }) := by
  obtain ⟨arrived, harrival, hposts⟩ := Client.exists_arrival h.reaches_prekey
    (.ofMembers (call.initiator.offer s).members)
  exact ⟨arrived, harrival, Gateway.answer_offer hposts h.has_issuing h.compatible⟩

/-- The client has a session with the answer. -/
theorem readAnswer_answer (h : call.Ready s lifetime) :
    Client.readAnswer s call.initiator (call.answer s)
      = .ok (.established (call.sessions s .initiator)) :=
  Client.readAnswer_of_compatible h.compatible call.index

/-! ## The sealed request -/

/-- A secret is a key of the block cipher. -/
theorem ofBytes?_secret (secret : SharedSecret) :
    BlockKey.ofBytes? secret.val = some ⟨secret.val, .inr (.inr secret.property)⟩ :=
  dif_pos _

/-- The envelope of the request is made, and is as long as it has to be. -/
theorem exists_request (h : call.Ready s lifetime) :
    ∃ envelope : Bytes, call.requesting.text s (call.sessions s) = .ok (Hex.encode envelope)
      ∧ envelope.length = 4 + Envelope.valueLength call.index call.payload := by
  have hsize : Envelope.valueLength call.index call.payload < LengthValue.ceiling := by
    have hfits := h.fits
    rw [Gateway.maxBodyLength] at hfits
    rw [LengthValue.ceiling]
    omega
  exact Envelope.exists_pack_of_lt _ h.sealing_stampable.year_nonneg h.sealing_stampable.year_le
    (ofBytes?_secret _) h.has_sealing hsize

/-- With the answer the client waits with its sealed request. -/
theorem waiting?_singleton (h : call.Ready s lifetime) {envelope : String}
    (htext : call.requesting.text s (call.sessions s) = .ok envelope) :
    call.waiting? s [(call.answer s, call.sealing)] = some (call.client.request path (some (.ofMembers
      (SealedRequest.members { index := call.index, envelope := envelope })))) := by
  have hrequest : (call.client.sealedRequest s call.sealing.clock.wall (call.sessions s .initiator)
      path (Payload.encodeRequest call.headers call.body) call.sealing.entropy).1 = .ok _ :=
    Client.sealedRequest_of_pack htext
  rw [waiting?, run, Client.call_of_singleton h.has_offering (readAnswer_answer h) hrequest]
  rfl

/-- The sealed request comes in at the echo and is read there. -/
theorem exists_arrival_request (h : call.Ready s lifetime) {envelope : Bytes}
    (hlength : envelope.length = 4 + Envelope.valueLength call.index call.payload) :
    ∃ arrived, (call.client.request path (some (.ofMembers (SealedRequest.members
        { index := call.index, envelope := Hex.encode envelope })))).arrival? = some arrived
      ∧ Route.ofPath? arrived.target.path = some .echo
      ∧ arrived.method ∈ Route.methods .echo
      ∧ Gateway.readBody SealedRequest.reading arrived
        = .ok { index := call.index, envelope := Hex.encode envelope } := by
  obtain ⟨arrived, harrival, hposts⟩ := Client.exists_arrival h.reaches_echo (.ofMembers
    (SealedRequest.members { index := call.index, envelope := Hex.encode envelope }))
  have hfits : (JsonValue.ofMembers (SealedRequest.members
      { index := call.index, envelope := Hex.encode envelope })).bytes.length
        ≤ Gateway.maxBodyLength := by
    have hrequest := SealedRequest.length_bytes
      (call.issuing.entropy.peek PrekeyStore.indexLength).val envelope
    rw [(call.issuing.entropy.peek PrekeyStore.indexLength).property, hlength] at hrequest
    have hle := h.fits
    refine Nat.le_trans (Nat.le_of_eq hrequest) ?_
    rw [PrekeyStore.indexLength]
    omega
  have hread := Gateway.readBody_of_posts hposts hfits (SealedRequest.reading_members _)
  have hmethod : arrived.method ∈ Route.methods .echo := by
    rw [hposts.method]
    decide
  exact ⟨arrived, harrival, hposts.target, hmethod, hread⟩

/-- What is echoed holds the body and the headers, in this order. -/
theorem echoBody_eq (opened : Responder.Opened) :
    Gateway.echoBody opened = .object [("body", opened.body), ("header", opened.headers.toJson)] :=
  JsonValue.ofMembers_eq (.of_keys ["body", "header"] rfl (by decide)) (.swap ..)

/-- A reply is not much longer than the request that it echoes, so that it fits too. -/
theorem valueLength_reply_lt (h : call.Ready s lifetime) :
    Envelope.valueLength call.index (Payload.encodeResponse (Gateway.echoResponse (call.opened s)))
      < LengthValue.ceiling := by
  have hecho : (Gateway.echoBody (call.opened s)).bytes.length
      = 19 + call.body.bytes.length + call.headers.toJson.bytes.length := by
    have hname : (Utf8.encodeChars (quoteChars "body")).length = 6
        ∧ (Utf8.encodeChars (quoteChars "header")).length = 8 := by
      decide +kernel
    rw [echoBody_eq]
    simp only [opened, JsonValue.length_bytes_object, membersLength, length_memberText, hname,
      ← JsonValue.bytes_eq]
    omega
  have hheaders : (Headers.empty.insert "Content-Type" "application/json").toJson.bytes.length = 35 := by
    decide +kernel
  have hfits := h.fits
  simp only [Envelope.valueLength, Envelope.payloadLength, payload, Payload.encodeRequest,
    Payload.encodeResponse, Gateway.echoResponse, List.flatMap_cons, List.flatMap_nil, List.length_append,
    List.length_nil, LengthValue.length_element, LengthValue.markLength, Base64.length_encode,
    length_bigEndian, hecho, hheaders, Gateway.maxBodyLength, LengthValue.ceiling] at hfits ⊢
  omega

/-- The envelope of the reply is made. -/
theorem exists_reply (h : call.Ready s lifetime) :
    ∃ envelope : String, (call.replying s).text s (call.sessions s) = .ok envelope := by
  obtain ⟨envelope, htext, -⟩ := Envelope.exists_pack_of_lt _ h.echoing_stampable.year_nonneg
    h.echoing_stampable.year_le (ofBytes?_secret _) h.has_echoing (valueLength_reply_lt h)
  exact ⟨Hex.encode envelope, htext⟩

/-- The gateway takes the entry and opens the request with it. -/
theorem receiveRequest_eq (hdeciphers : s.Deciphers) (h : call.Ready s lifetime) {store : PrekeyStore}
    (hlifetime : store.limits.lifetime = lifetime)
    (hfind : store.find? call.index = some (call.entry s)) {envelope : String}
    (htext : call.requesting.text s (call.sessions s) = .ok envelope) :
    (Responder.receiveRequest s call.echoing.clock store
        { index := call.index, envelope := envelope }).1 = .ok (call.opened s) := by
  have hlive : PrekeyStore.isLive store.limits call.echoing.clock.steady (call.entry s) = true := by
    rw [PrekeyStore.isLive, hlifetime, decide_eq_true_eq]
    exact h.waits
  have htake : (store.take call.echoing.clock.steady call.index).1
      = .ok (call.sessions s .responder) := by
    rw [PrekeyStore.take_of_find?_eq_some _ hfind, if_pos hlive]
    rfl
  have hunpack : (call.sessions s .responder).unpack s call.echoing.clock.wall envelope
      = .ok call.payload :=
    h.compatible.unpack_text hdeciphers htext h.sealing_stampable.isLeap
      h.sealing_stampable.year_nonneg h.sealing_stampable.year_le h.echoing_stampable.isLeap
      h.request_age
  have hdecode : Payload.decodeRequest call.payload = .ok (call.headers, call.body) := by
    have hdepth : call.body.depth ≤ JsonReader.maxDepth := Nat.le_trans h.depth_le (by decide)
    have hread := Payload.decodeRequest_encodeRequest call.headers h.canonical h.integral hdepth []
    rwa [List.append_nil] at hread
  exact Responder.receiveRequest_of_receive_ok (Responder.receive_of_take_ok htake hunpack) hdecode

/-- The reply, if the entry is still there when the sealed request comes in. -/
theorem answer_echo (hdeciphers : s.Deciphers) (h : call.Ready s lifetime)
    (hlifetime : g.prekeys.limits.lifetime = lifetime)
    (hfind : g.prekeys.find? call.index = some (call.entry s)) {envelope reply : String}
    (hrequest : call.requesting.text s (call.sessions s) = .ok envelope)
    (hreply : (call.replying s).text s (call.sessions s) = .ok reply) :
    (g.answerEcho s call.echoing.clock { index := call.index, envelope := envelope }
        call.echoing.entropy).1.1
      = Gateway.jsonResponse 200 (.object (SealedReply.members { envelope := reply })) := by
  rw [Attempt.text, replying] at hreply
  have hsealed : (Responder.replyWith s call.echoing.clock.wall (call.opened s).session
      (Gateway.echoResponse (call.opened s)) call.echoing.entropy).1 = .ok { envelope := reply } :=
    Responder.reply_of_pack_ok hreply
  rw [Gateway.answerEcho_of_receiveRequest_ok
    (receiveRequest_eq hdeciphers h hlifetime hfind hrequest), hsealed]
  rfl

/-! ## The reply -/

/-- The client opens the reply. -/
theorem readCallReply_eq (hdeciphers : s.Deciphers) (h : call.Ready s lifetime) {reply : String}
    (hreply : (call.replying s).text s (call.sessions s) = .ok reply) :
    Client.readCallReply s call.opening.clock.wall (call.sessions s .initiator)
        (Gateway.jsonResponse 200 (.object (SealedReply.members { envelope := reply })))
      = .ok (Gateway.echoResponse (call.opened s)) := by
  have hunpack : (call.sessions s .initiator).unpack s call.opening.clock.wall reply
      = .ok (Payload.encodeResponse (Gateway.echoResponse (call.opened s))) :=
    h.compatible.unpack_text hdeciphers hreply h.echoing_stampable.isLeap
      h.echoing_stampable.year_nonneg h.echoing_stampable.year_le h.opening_isLeap h.reply_age
  have hdecode := Payload.decodeResponse_encodeResponse (Gateway.echoResponse (call.opened s)) []
  rw [List.append_nil] at hdecode
  exact Client.readCallReply_of_json (json_sealedReply _) rfl hunpack hdecode

/-- The body of what the client has reads back as what it sent. -/
theorem Ready.json_echoResponse (h : call.Ready s lifetime) :
    (Gateway.echoResponse (call.opened s)).json = .ok (Gateway.echoBody (call.opened s)) := by
  rw [HttpResponse.json, Gateway.echoResponse, echoBody_eq]
  refine JsonValue.read_bytes (.object _ ?_ ?_) (.object _ ?_) ?_
  · exact .of_keys ["body", "header"] rfl (by decide)
  · simp only [List.forall_mem_cons, List.not_mem_nil, false_imp_iff, implies_true, and_true]
    exact ⟨h.canonical, call.headers.canonical_toJson⟩
  · simp only [List.forall_mem_cons, List.not_mem_nil, false_imp_iff, implies_true, and_true]
    exact ⟨h.integral, call.headers.integral_toJson⟩
  · have hbody := h.depth_le
    simp only [JsonValue.depth, JsonValue.membersDepth, opened, Headers.depth_toJson,
      JsonReader.maxDepth]
    omega

/-! ## Both requests -/

/-- With the reply the call ends. -/
theorem outcome_of_reply (hdeciphers : s.Deciphers) (h : call.Ready s lifetime)
    {envelope reply : String} (hrequest : call.requesting.text s (call.sessions s) = .ok envelope)
    (hreply : (call.replying s).text s (call.sessions s) = .ok reply) :
    call.outcome s [(call.answer s, call.sealing),
        (Gateway.jsonResponse 200 (.object (SealedReply.members { envelope := reply })), call.opening)]
      = .ok (Gateway.echoResponse (call.opened s)) := by
  have hsealed : (call.client.sealedRequest s call.sealing.clock.wall (call.sessions s .initiator)
      path (Payload.encodeRequest call.headers call.body) call.sealing.entropy).1 = .ok _ :=
    Client.sealedRequest_of_pack hrequest
  rw [outcome, run, Client.call_of_pair h.has_offering (readAnswer_answer h) hsealed]
  exact readCallReply_eq hdeciphers h hreply

/-- The first request leaves an entry behind at any gateway. -/
theorem Ready.exists_offer (h : call.Ready s lifetime) :
    ∃ arrived, (call.waiting? s []).bind HttpRequest.arrival? = some arrived
      ∧ ∀ g : Gateway, (g.answer s call.issuing.clock arrived call.issuing.entropy).1
        = (call.answer s, { g with prekeys := g.prekeys.insert (call.entry s) }) := by
  obtain ⟨arrived, harrival, hanswer⟩ := answer_offer h
  refine ⟨arrived, ?_, hanswer⟩
  rw [waiting?_nil h, Option.bind_some, harrival]

/-- The second one takes the entry of its index at any gateway, and where that is the one that
the first has left, the call succeeds. -/
theorem Ready.exists_echo (h : call.Ready s lifetime) (hdeciphers : s.Deciphers) :
    ∃ arrived, (call.waiting? s [(call.answer s, call.sealing)]).bind HttpRequest.arrival?
        = some arrived
      ∧ ∀ g : Gateway,
        (g.answer s call.echoing.clock arrived call.echoing.entropy).1.2.prekeys
            = (g.prekeys.take call.echoing.clock.steady call.index).2
          ∧ (g.prekeys.limits.lifetime = lifetime →
            g.prekeys.find? call.index = some (call.entry s) →
            call.outcome s [(call.answer s, call.sealing),
                ((g.answer s call.echoing.clock arrived call.echoing.entropy).1.1, call.opening)]
              = .ok (Gateway.echoResponse (call.opened s))) := by
  obtain ⟨envelope, hrequest, hlength⟩ := exists_request h
  obtain ⟨reply, hreply⟩ := exists_reply h
  obtain ⟨arrived, harrival, hroute, hmethod, hread⟩ := exists_arrival_request h hlength
  refine ⟨arrived, ?_, fun g => ⟨?_, fun hlifetime hfind => ?_⟩⟩
  · rw [waiting?_singleton h hrequest, Option.bind_some, harrival]
  · rw [Gateway.answer_of_echo hroute hmethod hread]
    exact (Gateway.prekeys_answerEcho s call.echoing.clock g _ call.echoing.entropy).1
  · rw [Gateway.answer_of_echo hroute hmethod hread, answer_echo hdeciphers h hlifetime hfind hrequest hreply]
    exact outcome_of_reply hdeciphers h hrequest hreply

end EchoCall

end SealedEnvelope
