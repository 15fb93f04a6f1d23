import SealedEnvelope.Gateway.Server
import SealedEnvelope.Proofs.Peer.PrekeyStore

/-!
# `SealedEnvelope.Proofs.Gateway.History`: what happens at a gateway

A history is a list of events: a call comes in, or one of the two tables is tidied up. Each
event has clocks of its own, and each call has random bytes of its own, so that time may pass
in between and randomness may run out. `Gateway.served` are the calls of a history with their
responses.

Main statement:

* `Gateway.prekeyStep_answer`: all that a call can do to the prekeys. It leaves them alone, or
  adds one and says which, or takes the one that it names (`PrekeyStep`).
-/

set_option autoImplicit false

namespace SealedEnvelope

/-- A call, what the gateway found around it, and its response. -/
structure Served where
  world : World
  call : HttpCall
  response : HttpResponse

/-- Something that happens at a gateway. -/
inductive GatewayEvent where
  | call (world : World) (call : HttpCall)
  | purgePrekeys (clock : Clock)
  | purgeLogins (clock : Clock)

/-- The reading of the steady clock at an event. -/
def GatewayEvent.time : GatewayEvent → Milliseconds
  | .call world _ => world.clock.steady
  | .purgePrekeys clock => clock.steady
  | .purgeLogins clock => clock.steady

/-- The steady clock never goes back. -/
def Chronological (events : List GatewayEvent) : Prop :=
  events.Pairwise fun a b => a.time ≤ b.time

/-- A history is chronological if the times of its events ascend. -/
theorem chronological_of_times {events : List GatewayEvent} (times : List Milliseconds)
    (htimes : events.map GatewayEvent.time = times) (h : times.Pairwise (· ≤ ·)) :
    Chronological events := by
  subst htimes
  exact List.pairwise_map.1 h

namespace Gateway

variable {s : Suite} {g : Gateway}

/-- What an event comes to: the call that is served, if it is one, and the gateway after it. -/
def perform (s : Suite) (g : Gateway) : GatewayEvent → List Served × Gateway
  | .call world call =>
    let outcome := (g.answer s world.clock call world.entropy).1
    ([{ world := world, call := call, response := outcome.1 }], outcome.2)
  | .purgePrekeys clock => ([], g.purgePrekeys clock)
  | .purgeLogins clock => ([], g.purgeLogins clock)

/-- The calls of a history with their responses. -/
def served (s : Suite) : Gateway → List GatewayEvent → List Served
  | _, [] => []
  | g, event :: rest => (g.perform s event).1 ++ served s (g.perform s event).2 rest

/-- The gateway after a history. -/
def after (s : Suite) (g : Gateway) (events : List GatewayEvent) : Gateway :=
  events.foldl (fun g event => (g.perform s event).2) g

/-- The response to a call after a history. -/
def responseAfter (s : Suite) (g : Gateway) (events : List GatewayEvent) (world : World)
    (call : HttpCall) : HttpResponse :=
  ((g.after s events).answer s world.clock call world.entropy).1.1

/-- A history that goes on adds what its last event comes to. -/
theorem served_concat (s : Suite) (g : Gateway) (events : List GatewayEvent) (event : GatewayEvent) :
    g.served s (events ++ [event]) = g.served s events ++ ((g.after s events).perform s event).1 := by
  induction events generalizing g with
  | nil => exact List.append_nil _
  | cons first events ih => exact (congrArg _ (ih _)).trans (List.append_assoc ..).symm

theorem after_concat (s : Suite) (g : Gateway) (events : List GatewayEvent) (event : GatewayEvent) :
    g.after s (events ++ [event]) = ((g.after s events).perform s event).2 :=
  List.foldl_append ..

/-- A call that has been served came in after some of the events. -/
theorem exists_of_served_eq_append {s : Suite} {g : Gateway} {events : List GatewayEvent}
    {before later : List Served} {now : Served} (h : g.served s events = before ++ now :: later) :
    ∃ earlier rest, events = earlier ++ .call now.world now.call :: rest
      ∧ g.served s earlier = before
      ∧ now.response = g.responseAfter s earlier now.world now.call := by
  induction events generalizing g before with
  | nil => exact absurd h.symm (List.append_ne_nil_of_right_ne_nil _ (List.cons_ne_nil _ _))
  | cons event events ih =>
    rw [served] at h
    cases event with
    | call world call =>
      cases before with
      | nil =>
        obtain ⟨rfl, -⟩ := List.cons.inj h
        exact ⟨[], events, rfl, rfl, rfl⟩
      | cons first before =>
        obtain ⟨rfl, hrest⟩ := List.cons.inj h
        obtain ⟨earlier, rest, rfl, rfl, hresponse⟩ := ih hrest
        exact ⟨.call world call :: earlier, rest, rfl, rfl, hresponse⟩
    | purgePrekeys clock =>
      obtain ⟨earlier, rest, rfl, rfl, hresponse⟩ := ih h
      exact ⟨.purgePrekeys clock :: earlier, rest, rfl, rfl, hresponse⟩
    | purgeLogins clock =>
      obtain ⟨earlier, rest, rfl, rfl, hresponse⟩ := ih h
      exact ⟨.purgeLogins clock :: earlier, rest, rfl, rfl, hresponse⟩

theorem body_jsonResponse (status : UInt16) (value : JsonValue) :
    (jsonResponse status value).body = value.bytes :=
  rfl

/-! ## What a call does to the prekeys -/

/-- The sealed request that a call brings, if it goes to one of the routes that take them. -/
def sealedRequest? (call : HttpCall) : Option SealedRequest :=
  match Route.ofPath? call.target.path with
  | some .login | some .echo =>
    if call.method = "POST" then (readBody SealedRequest.reading call).toOption else none
  | _ => none

/-- Answering an offer issues a prekey and says which, or leaves the gateway alone. -/
theorem answerOffer_cases (s : Suite) (clock : Clock) (g : Gateway) (offer : Offer) (e : Entropy) :
    (∃ answer entry, (PrekeyStore.prepare s clock.steady offer e).1 = .ok (answer, entry)
      ∧ (answerOffer s clock g offer e).1
        = (jsonResponse 200 (.object answer.members), { g with prekeys := g.prekeys.insert entry }))
    ∨ ∃ error, (PrekeyStore.prepare s clock.steady offer e).1 = .error error
      ∧ (answerOffer s clock g offer e).1 = (rejectError error, g) := by
  have hissue := PrekeyStore.issue_apply s clock.steady g.prekeys offer e
  unfold answerOffer
  simp only [bind, StateT.bind, hissue]
  cases hprepare : (PrekeyStore.prepare s clock.steady offer e).1 with
  | ok prepared => exact Or.inl ⟨prepared.1, prepared.2, rfl, rfl⟩
  | error error => exact Or.inr ⟨error, rfl, rfl⟩

/-- Opening a request takes its prekey, whether or not the envelope can be opened. -/
theorem receive_eq (s : Suite) (clock : Clock) (store : PrekeyStore) (request : SealedRequest) :
    Responder.receive s clock store request
      = ((store.take clock.steady request.index).1 >>= fun session =>
          CallError.onEnvelope (session.unpack s clock.wall request.envelope) >>= fun payload =>
            .ok (session, payload),
        (store.take clock.steady request.index).2) :=
  rfl

theorem receive_of_take_error {clock : Clock} {store : PrekeyStore} {request : SealedRequest}
    {error : CallError} (h : (store.take clock.steady request.index).1 = .error error) :
    (Responder.receive s clock store request).1 = .error error := by
  rw [receive_eq, h]
  rfl

/-- A sealed login takes the prekey that it names, and is told if that fails. -/
theorem prekeys_answerLogin (s : Suite) (clock : Clock) (g : Gateway) (request : SealedRequest)
    (e : Entropy) :
    (answerLogin s clock g request e).1.2.prekeys = (g.prekeys.take clock.steady request.index).2
      ∧ ∀ error, (g.prekeys.take clock.steady request.index).1 = .error error →
        (answerLogin s clock g request e).1.1 = rejectError error := by
  have hstore : (Responder.receive s clock g.prekeys request).2
      = (g.prekeys.take clock.steady request.index).2 := rfl
  rw [← hstore]
  unfold answerLogin
  constructor
  · -- Whatever comes after the taking does not touch the prekeys.
    generalize Responder.receive s clock g.prekeys request = received
    obtain ⟨received, prekeys⟩ := received
    match received with
    | .error error => rfl
    | .ok (session, []) => rfl
    | .ok (session, [user]) => rfl
    | .ok (session, user :: password :: rest) =>
      simp only
      split
      · simp only [bind, StateT.bind, ExceptT.run]
        generalize grantLogin s clock session e = granted
        obtain ⟨granted, e'⟩ := granted
        cases granted with
        | error error => rfl
        | ok granted => rfl
      · rfl
  · intro error h
    have hreceive := receive_of_take_error (s := s) h
    generalize Responder.receive s clock g.prekeys request = received at hreceive
    obtain ⟨received, prekeys⟩ := received
    obtain rfl : received = .error error := hreceive
    rfl

/-- So does a sealed request that is to be echoed. -/
theorem prekeys_answerEcho (s : Suite) (clock : Clock) (g : Gateway) (request : SealedRequest)
    (e : Entropy) :
    (answerEcho s clock g request e).1.2.prekeys = (g.prekeys.take clock.steady request.index).2
      ∧ ∀ error, (g.prekeys.take clock.steady request.index).1 = .error error →
        (answerEcho s clock g request e).1.1 = rejectError error := by
  have hstore : (Responder.receiveRequest s clock g.prekeys request).2
      = (g.prekeys.take clock.steady request.index).2 := rfl
  rw [← hstore]
  unfold answerEcho
  constructor
  · -- Neither does the reply.
    generalize Responder.receiveRequest s clock g.prekeys request = received
    obtain ⟨received, prekeys⟩ := received
    cases received with
    | error error => rfl
    | ok opened => rfl
  · intro error h
    have hreceive : (Responder.receiveRequest s clock g.prekeys request).1 = .error error := by
      show ((Responder.receive s clock g.prekeys request).1 >>= _) = _
      rw [receive_of_take_error h]
      rfl
    generalize Responder.receiveRequest s clock g.prekeys request = received at hreceive
    obtain ⟨received, prekeys⟩ := received
    obtain rfl : received = .error error := hreceive
    rfl

/-- A logout does not touch the prekeys. -/
theorem prekeys_answerLogout (s : Suite) (g : Gateway) (call : HttpCall) :
    (answerLogout s g call).2.prekeys = g.prekeys := by
  unfold answerLogout
  split
  · rfl
  · simp only
    split <;> rfl

/-- All that a call can do to the prekeys: the response and the store that it leads to. -/
inductive PrekeyStep (s : Suite) (world : World) (store : PrekeyStore) (call : HttpCall) :
    HttpResponse → PrekeyStore → Prop
  /-- A call that brings no sealed request may leave them alone. -/
  | keeps (response : HttpResponse) : sealedRequest? call = none →
    PrekeyStep s world store call response store
  /-- An offer adds one and says which. -/
  | issues (answer : Answer) (entry : PrekeyEntry) (offer : Offer) :
    Route.ofPath? call.target.path = some .prekey →
    (PrekeyStore.prepare s world.clock.steady offer world.entropy).1 = .ok (answer, entry) →
    PrekeyStep s world store call (jsonResponse 200 (.object answer.members)) (store.insert entry)
  /-- A sealed request takes one, and is told if that fails. -/
  | takes (request : SealedRequest) (response : HttpResponse) : sealedRequest? call = some request →
    (∀ error, (store.take world.clock.steady request.index).1 = .error error →
      response = rejectError error) →
    PrekeyStep s world store call response (store.take world.clock.steady request.index).2

section
variable {world : World} {store store' : PrekeyStore} {call : HttpCall} {response : HttpResponse}

theorem PrekeyStep.of_keeps (hnone : sealedRequest? call = none) (hstore : store' = store) :
    PrekeyStep s world store call response store' :=
  hstore ▸ .keeps response hnone

theorem PrekeyStep.of_issues {answer : Answer} {entry : PrekeyEntry} {offer : Offer}
    (hroute : Route.ofPath? call.target.path = some .prekey)
    (hprepare : (PrekeyStore.prepare s world.clock.steady offer world.entropy).1 = .ok (answer, entry))
    (hresponse : response = jsonResponse 200 (.object answer.members))
    (hstore : store' = store.insert entry) : PrekeyStep s world store call response store' :=
  hresponse ▸ hstore ▸ .issues answer entry offer hroute hprepare

theorem PrekeyStep.of_takes {request : SealedRequest} (hrequest : sealedRequest? call = some request)
    (hstore : store' = (store.take world.clock.steady request.index).2)
    (herror : ∀ error, (store.take world.clock.steady request.index).1 = .error error →
      response = rejectError error) : PrekeyStep s world store call response store' :=
  hstore ▸ .takes request response hrequest herror

end

/-- A call to a route that takes no sealed requests brings none. -/
theorem sealedRequest?_of_route {call : HttpCall} {route : Option Route}
    (h : Route.ofPath? call.target.path = route) (hlogin : route ≠ some .login)
    (hecho : route ≠ some .echo) : sealedRequest? call = none := by
  rw [sealedRequest?, h]
  split
  · exact absurd rfl hlogin
  · exact absurd rfl hecho
  · rfl

/-- A call to one that does brings the one that is read of its body, and is a post. -/
theorem sealedRequest?_of_secured {call : HttpCall} {route : Route}
    (h : Route.ofPath? call.target.path = some route) (hroute : route = .login ∨ route = .echo)
    (hmethod : call.method ∈ route.methods) :
    sealedRequest? call = (readBody SealedRequest.reading call).toOption := by
  have hpost : call.method = "POST" := by
    rcases hroute with rfl | rfl <;> exact List.mem_singleton.1 hmethod
  rw [sealedRequest?, h]
  rcases hroute with rfl | rfl <;> exact if_pos hpost

/-- A call of the right method does one of these to the prekeys. -/
theorem prekeyStep_answerRoute (s : Suite) (world : World) (g : Gateway) {call : HttpCall}
    {route : Route} (hroute : Route.ofPath? call.target.path = some route)
    (hmethod : call.method ∈ route.methods) :
    PrekeyStep s world g.prekeys call
      (g.answerRoute s world.clock call route world.entropy).1.1
      (g.answerRoute s world.clock call route world.entropy).1.2.prekeys := by
  cases route with
  | health => exact .keeps _ (sealedRequest?_of_route hroute nofun nofun)
  | detail => exact .keeps _ (sealedRequest?_of_route hroute nofun nofun)
  | prekey =>
    have hnone := sealedRequest?_of_route hroute nofun nofun
    rw [answerRoute]
    cases readBody Offer.reading call with
    | error response => exact .keeps _ hnone
    | ok offer =>
      rcases answerOffer_cases s world.clock g offer world.entropy with
        ⟨answer, entry, hprepare, houtcome⟩ | ⟨error, -, houtcome⟩
      · exact .of_issues hroute hprepare (congrArg Prod.fst houtcome)
          (congrArg (fun outcome => outcome.2.prekeys) houtcome)
      · exact .of_keeps hnone (congrArg (fun outcome => outcome.2.prekeys) houtcome)
  | login =>
    have hread := sealedRequest?_of_secured hroute (Or.inl rfl) hmethod
    rw [answerRoute]
    cases hbody : readBody SealedRequest.reading call with
    | error response =>
      rw [hbody] at hread
      exact .keeps _ hread
    | ok request =>
      rw [hbody] at hread
      obtain ⟨hprekeys, herror⟩ := prekeys_answerLogin s world.clock g request world.entropy
      exact .of_takes hread hprekeys herror
  | logout =>
    exact .of_keeps (sealedRequest?_of_route hroute nofun nofun) (prekeys_answerLogout s g call)
  | echo =>
    have hread := sealedRequest?_of_secured hroute (Or.inr rfl) hmethod
    rw [answerRoute]
    cases hbody : readBody SealedRequest.reading call with
    | error response =>
      rw [hbody] at hread
      exact .keeps _ hread
    | ok request =>
      rw [hbody] at hread
      obtain ⟨hprekeys, herror⟩ := prekeys_answerEcho s world.clock g request world.entropy
      exact .of_takes hread hprekeys herror

/-- A call of a method that the route does not have brings no sealed request. -/
theorem sealedRequest?_of_not_mem {call : HttpCall} {route : Route}
    (h : Route.ofPath? call.target.path = some route) (hmethod : call.method ∉ route.methods) :
    sealedRequest? call = none := by
  have hpost : route = .login ∨ route = .echo → call.method ≠ "POST" := by
    rintro (rfl | rfl) heq <;> exact hmethod (heq ▸ List.mem_singleton_self "POST")
  rw [sealedRequest?, h]
  split
  · next heq => exact if_neg (hpost (Or.inl (Option.some.inj heq)))
  · next heq => exact if_neg (hpost (Or.inr (Option.some.inj heq)))
  · rfl

/-- A call of the right method is answered as its route says. -/
theorem answer_of_route {clock : Clock} {call : HttpCall} {route : Route}
    (h : Route.ofPath? call.target.path = some route) (hmethod : call.method ∈ route.methods) :
    g.answer s clock call = g.answerRoute s clock call route := by
  have hoptions : call.method ≠ "OPTIONS" := by
    intro heq
    rw [heq] at hmethod
    cases route <;> revert hmethod <;> decide
  rw [answer, if_neg hoptions, h]
  exact if_pos hmethod

/-- A call does one of these to the prekeys. -/
theorem prekeyStep_answer (s : Suite) (world : World) (g : Gateway) (call : HttpCall) :
    PrekeyStep s world g.prekeys call (g.answer s world.clock call world.entropy).1.1
      (g.answer s world.clock call world.entropy).1.2.prekeys := by
  cases hroute : Route.ofPath? call.target.path with
  | none =>
    have hnone := sealedRequest?_of_route hroute nofun nofun
    rw [answer, hroute]
    split <;> exact .keeps _ hnone
  | some route =>
    by_cases hmethod : call.method ∈ route.methods
    · rw [answer_of_route hroute hmethod]
      exact prekeyStep_answerRoute s world g hroute hmethod
    · have hnone := sealedRequest?_of_not_mem hroute hmethod
      rw [answer, hroute]
      simp only [if_neg hmethod]
      split <;> exact .keeps _ hnone

end Gateway

end SealedEnvelope
