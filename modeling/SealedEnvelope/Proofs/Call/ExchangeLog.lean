import SealedEnvelope.Proofs.Call.Playback
import SealedEnvelope.Proofs.Entropy

/-!
# `SealedEnvelope.Proofs.Call.ExchangeLog`: what a sealed payload exchanges

A sealed payload takes two requests at most: an offer of fresh keys, and a sealed request if the
answer completes the handshake. A peer can say anything to either, and the transport can fail at
either. A transport that logs what is sent, and what has come of it (`Transport.logging`), makes
this visible and changes nothing else.

`Sent` lists the ways in which a sealed payload can go, each with its log. What holds of the
requests or of the result is then read off it, one case for each way.

Main statements:

* `Exchange.Extends.bind`: a log goes through the steps of a computation and changes none of them;
* `Exchanged.handshake_eq_established_iff`: which exchanges complete a handshake;
* `Client.exists_sent`: over every transport, a sealed payload goes one of the ways.
-/

set_option autoImplicit false

namespace SealedEnvelope

variable {σ τ α β : Type}

/-! ## Exchanges that are logged -/

/-- A request that has been sent, and what has come of it, with the worlds that the client found
around it before and after. -/
structure Exchanged where
  before : World
  request : HttpRequest
  result : Except CallError HttpResponse
  after : World

/-- The exchange of a request over a transport. -/
def Transport.exchange (transport : Transport σ) (request : HttpRequest) (world : World) (peer : σ) :
    Exchanged where
  before := world
  request := request
  result := (transport request (world, peer)).1
  after := (transport request (world, peer)).2.1

/-- The same transport, which logs what is exchanged. -/
def Transport.logging (transport : Transport σ) : Transport (σ × List Exchanged) :=
  fun request state =>
    let outcome := transport request (state.1, state.2.1)
    (outcome.1, (outcome.2.1,
      (outcome.2.2, state.2.2 ++ [transport.exchange request state.1 state.2.1])))

namespace Exchange

/-- Whether a computation does what another one does, over a transport whose state has more in it. -/
def Extends (forget : τ → σ) (x : Exchange σ α) (fuller : Exchange τ α) : Prop :=
  ∀ (world : World) (peer : τ), x (world, forget peer)
    = ((fuller (world, peer)).1, ((fuller (world, peer)).2.1, forget (fuller (world, peer)).2.2))

variable {forget : τ → σ}

theorem Extends.pure (a : α) :
    Extends forget (Pure.pure a : Exchange σ α) (Pure.pure a) :=
  fun _ _ => rfl

theorem Extends.now : Extends forget Exchange.now Exchange.now := fun _ _ => rfl

theorem Extends.draw (drawing : Drawing CallError α) :
    Extends forget (Exchange.draw drawing) (Exchange.draw drawing) :=
  fun _ _ => rfl

theorem Extends.ofResult (result : Except CallError α) :
    Extends forget (Exchange.ofResult result) (Exchange.ofResult result) :=
  fun _ _ => rfl

/-- A log is only added to what the transport does. -/
theorem Extends.logging (transport : Transport σ) (request : HttpRequest) :
    Extends Prod.fst (transport request) (transport.logging request) :=
  fun _ _ => rfl

theorem Extends.bind {x : Exchange σ α} {fuller : Exchange τ α} {f : α → Exchange σ β}
    {fullerf : α → Exchange τ β} (hx : Extends forget x fuller)
    (hf : ∀ a, Extends forget (f a) (fullerf a)) : Extends forget (x >>= f) (fuller >>= fullerf) := by
  intro world peer
  have hfirst := hx world peer
  cases hresult : fuller (world, peer) with
  | mk result after =>
    -- Both have ended the first step alike, in states of which one has more in it.
    rw [hresult] at hfirst
    cases result with
    | error err => rw [bind_of_eq_error hfirst, bind_of_eq_error hresult]
    | ok a =>
      rw [bind_of_eq_ok hfirst, bind_of_eq_ok hresult]
      exact hf a after.1 after.2

/-- A computation that is logged does what it does without, and leaves some log behind. -/
theorem Extends.exists_log {x : Exchange σ α} {logged : Exchange (σ × List Exchanged) α}
    (h : Extends Prod.fst x logged) (world : World) (peer : σ) :
    ∃ log, logged (world, (peer, [])) = ((x (world, peer)).1,
      ((x (world, peer)).2.1, ((x (world, peer)).2.2, log))) := by
  refine ⟨(logged (world, (peer, []))).2.2.2, ?_⟩
  have hsame : x (world, peer) = _ := h world (peer, [])
  rw [hsame]
  rfl

end Exchange

namespace Client

open Exchange (Extends)

/-- A handshake is the same with a log as without, -/
theorem extends_handshake (s : Suite) (transport : Transport σ) (client : Client) :
    Extends Prod.fst (client.handshake s transport) (client.handshake s transport.logging) :=
  .bind (.draw _) fun _ => .bind (.logging transport _) fun _ => .ofResult _

/-- and so is a payload that is sent sealed, -/
theorem extends_sendSealed (s : Suite) (transport : Transport σ) (client : Client) (path : String)
    (payload : List Bytes) :
    Extends Prod.fst (client.sendSealed s transport path payload)
      (client.sendSealed s transport.logging path payload) := by
  refine .bind (extends_handshake s transport client) fun outcome => ?_
  cases outcome with
  | rejected response => exact .pure _
  | established session =>
    exact .bind .now fun _ => .bind (.draw _) fun _ => .bind (.logging transport _) fun _ => .pure _

/-- a call, -/
theorem extends_call (s : Suite) (transport : Transport σ) (client : Client) (path : String)
    (headers : Headers) (body : JsonValue) :
    Extends Prod.fst (client.call s transport path headers body)
      (client.call s transport.logging path headers body) := by
  refine .bind (extends_sendSealed s transport client path _) fun outcome => ?_
  cases outcome with
  | rejected response => exact .pure _
  | answered session response => exact .bind .now fun _ => .ofResult _

/-- and the request of a login. -/
theorem extends_requestLogin (s : Suite) (transport : Transport σ) (client : Client)
    (user password : String) :
    Extends Prod.fst (client.requestLogin s transport user password)
      (client.requestLogin s transport.logging user password) := by
  refine .bind (extends_sendSealed s transport client _ _) fun outcome => ?_
  cases outcome with
  | rejected response => exact .pure _
  | answered session response => exact .bind .now fun _ => .ofResult _

end Client

/-! ## How a sealed payload goes -/

/-- The keys of a handshake take 96 bytes. -/
theorem Bundle.takes_draw : Drawing.Takes 96 Bundle.draw := by
  have hsigning : Drawing.Takes 32 SigningKey.draw :=
    (Drawing.takes_bytes _ 32).bind (n := 0) fun _ => Drawing.takes_pure _
  have hexchange : Drawing.Takes 32 ExchangeKey.draw :=
    (Drawing.takes_bytes _ 32).bind (n := 0) fun _ => Drawing.takes_pure _
  refine hsigning.bind (n := 64) fun signing => ?_
  refine hexchange.bind (n := 32) fun first => ?_
  exact hexchange.bind (n := 0) fun second => Drawing.takes_pure _

namespace Exchanged

/-- What is made of an exchange that offers a handshake. -/
def handshake (s : Suite) (bundle : Bundle) (exchanged : Exchanged) :
    Except CallError HandshakeOutcome :=
  exchanged.result >>= Client.readAnswer s bundle

/-- Whether an exchange offers the keys that the next bytes of a world make. The bytes are gone
from the world when the offer is sent. -/
structure Offers (s : Suite) (client : Client) (world : World) (exchanged : Exchanged) : Prop where
  has : world.entropy.has 96 = true
  before_eq : exchanged.before = { world with entropy := world.entropy.advance 96 }
  request_eq : exchanged.request = client.request client.config.prekeyPath
    (some (.ofMembers ((Bundle.drawn world.entropy).offer s).members))

/-- Whether an exchange leads to a session: it is answered with the status 200, and with an answer
that completes the handshake. -/
structure Establishes (s : Suite) (bundle : Bundle) (exchanged : Exchanged) (found : Answer)
    (session : Session) : Prop where
  answered : ∃ response, exchanged.result = .ok response ∧ response.status = 200
    ∧ JsonReader.whole Answer.reading response.body = .ok found
  completed : bundle.complete s found = .ok session

variable {s : Suite} {bundle : Bundle} {exchanged : Exchanged}

theorem isOk_iff {response : HttpResponse} : response.isOk = true ↔ response.status = 200 :=
  beq_iff_eq

/-- An offer is rejected by any response of another status than 200, whatever else is in it. -/
theorem handshake_eq_rejected_iff {response : HttpResponse} :
    exchanged.handshake s bundle = .ok (.rejected response)
      ↔ exchanged.result = .ok response ∧ response.status ≠ 200 := by
  unfold handshake
  cases exchanged.result with
  | error err => exact iff_of_false (fun h => nomatch h) fun h => nomatch h.1
  | ok answer =>
    show Client.readAnswer s bundle answer = _ ↔ _
    rw [Client.readAnswer, Except.ok.injEq]
    split
    · next hrejected =>
      rw [isOk_iff] at hrejected
      constructor
      · intro h
        cases h
        exact ⟨rfl, hrejected⟩
      · rintro ⟨rfl, -⟩
        rfl
    · next hok =>
      -- The status 200 leads to a session or to an error, and never to a rejection.
      rw [isOk_iff, Decidable.not_not] at hok
      refine iff_of_false (fun h => ?_) fun h => h.2 (h.1 ▸ hok)
      obtain ⟨found, -, h⟩ := exists_of_bind_eq_ok h
      obtain ⟨session, -, h⟩ := exists_of_bind_eq_ok h
      cases h

theorem handshake_eq_established_iff {session : Session} :
    exchanged.handshake s bundle = .ok (.established session)
      ↔ ∃ found, exchanged.Establishes s bundle found session := by
  constructor
  · intro h
    obtain ⟨answer, hresult, h⟩ := exists_of_bind_eq_ok h
    rw [Client.readAnswer] at h
    split at h
    · cases h
    · next hok =>
      rw [isOk_iff, Decidable.not_not] at hok
      obtain ⟨found, hread, h⟩ := exists_of_bind_eq_ok h
      obtain ⟨session', hcomplete, h⟩ := exists_of_bind_eq_ok h
      cases h
      exact ⟨found, ⟨answer, hresult, hok, CallError.onJson_eq_ok_iff.1 hread⟩,
        CallError.onEnvelope_eq_ok_iff.1 hcomplete⟩
  · rintro ⟨found, ⟨answer, hresult, hstatus, hread⟩, hcomplete⟩
    rw [handshake, hresult]
    exact Client.readAnswer_of_isOk (isOk_iff.2 hstatus) hread hcomplete

/-- An exchange leads to one session. -/
theorem Establishes.unique {found found' : Answer} {session session' : Session}
    (h : exchanged.Establishes s bundle found session)
    (h' : exchanged.Establishes s bundle found' session') : found = found' ∧ session = session' := by
  obtain ⟨response, hresult, -, hread⟩ := h.answered
  obtain ⟨response', hresult', -, hread'⟩ := h'.answered
  obtain rfl := Except.ok.inj (hresult.symm.trans hresult')
  obtain rfl := Except.ok.inj (hread.symm.trans hread')
  exact ⟨rfl, Except.ok.inj (h.completed.symm.trans h'.completed)⟩

end Exchanged

/-- The ways in which a payload can go that is sent sealed from some world: what is exchanged, what
has come of it, and the world that the client then finds around it. -/
inductive Sent (s : Suite) (client : Client) (path : String) (payload : List Bytes) (world : World) :
    List Exchanged → Except CallError SealedOutcome → World → Prop
  /-- There are no random bytes for keys. -/
  | dry (later : World) : ¬ world.entropy.has 96 = true →
    Sent s client path payload world [] (.error .random) later
  /-- The offer is not answered, or with nothing that completes the handshake. -/
  | failed {first : Exchanged} {err : CallError} : first.Offers s client world →
    first.handshake s (Bundle.drawn world.entropy) = .error err →
    Sent s client path payload world [first] (.error err) first.after
  | rejected {first : Exchanged} {response : HttpResponse} : first.Offers s client world →
    first.handshake s (Bundle.drawn world.entropy) = .ok (.rejected response) →
    Sent s client path payload world [first] (.ok (.rejected response)) first.after
  /-- The payload cannot be sealed. -/
  | unsealed {first : Exchanged} {session : Session} {err : CallError} (later : World) :
    first.Offers s client world →
    first.handshake s (Bundle.drawn world.entropy) = .ok (.established session) →
    (client.sealedRequest s first.after.clock.wall session path payload first.after.entropy).1
      = .error err →
    Sent s client path payload world [first] (.error err) later
  /-- The payload is sent, and answered or lost. -/
  | sent {first second : Exchanged} {session : Session} : first.Offers s client world →
    first.handshake s (Bundle.drawn world.entropy) = .ok (.established session) →
    (client.sealedRequest s first.after.clock.wall session path payload first.after.entropy).1
      = .ok second.request →
    Sent s client path payload world [first, second] (second.result.map (.answered session))
      second.after

namespace Client

variable {s : Suite} {client : Client} {path : String} {payload : List Bytes} {world : World}

/-- With random bytes for keys, a handshake ends with what is made of one exchange. -/
theorem handshake_logging (hhas : world.entropy.has 96 = true) (transport : Transport σ) (peer : σ) :
    let offering : World := { world with entropy := world.entropy.advance 96 }
    let offer := client.offerRequest s (Bundle.drawn world.entropy)
    let first := transport.exchange offer offering peer
    client.handshake s transport.logging (world, (peer, []))
      = (first.handshake s (Bundle.drawn world.entropy),
          (first.after, ((transport offer (offering, peer)).2.2, [first]))) := by
  have hdraw : Bundle.draw world.entropy
      = (.ok (Bundle.drawn world.entropy), world.entropy.advance 96) := by
    rw [Bundle.draw_of_has hhas, ← Entropy.advance_add, ← Entropy.advance_add]
  have hkeys := Exchange.draw_of_eq_ok (Drawing.mapError_of_eq_ok hdraw fun _ => CallError.random)
    (peer, ([] : List Exchanged))
  intro offering offer first
  -- The offer is the first request, so that the log has nothing before it.
  rw [handshake, Exchange.bind_of_eq_ok hkeys, Exchange.bind_ofResult]
  rfl

/-- Without them it ends before anything is sent. -/
theorem exists_handshake_of_not_has (hhas : ¬ world.entropy.has 96 = true)
    (transport : Transport σ) (peer : σ) :
    ∃ later, client.handshake s transport.logging (world, (peer, []))
      = (.error .random, (later, (peer, []))) := by
  cases hdraw : Bundle.draw world.entropy with
  | mk drawn e =>
    cases drawn with
    | ok bundle => exact absurd (Bundle.takes_draw world.entropy bundle e hdraw).1 hhas
    | error err =>
      -- Whichever of the keys is not drawn, the failure is told in the same way.
      have hrandom : Exchange.draw (Drawing.mapError (fun _ => CallError.random) Bundle.draw)
          (world, (peer, ([] : List Exchanged)))
          = (.error .random, ({ world with entropy := e }, (peer, []))) := by
        rw [Exchange.draw, World.draw, Drawing.mapError, hdraw]
        rfl
      exact ⟨_, Exchange.bind_of_eq_error hrandom⟩

section
variable {transport : Transport σ} {peer peer' : σ} {first : Exchanged} {session : Session}

/-- Once a session is established, the payload is sealed in the world that the answer has come in,
and sent. -/
theorem sendSealed_logging (hfirst : client.handshake s transport.logging (world, (peer, []))
      = (.ok (.established session), (first.after, (peer', [first])))) {request : HttpRequest}
    {e : Entropy} (hsealed : client.sealedRequest s first.after.clock.wall session path payload
      first.after.entropy = (.ok request, e)) :
    let sending : World := { first.after with entropy := e }
    let second := transport.exchange request sending peer'
    client.sendSealed s transport.logging path payload (world, (peer, []))
      = (second.result.map (.answered session),
          (second.after, ((transport request (sending, peer')).2.2, [first, second]))) := by
  intro sending second
  rw [sendSealed, Exchange.bind_of_eq_ok hfirst]
  refine (Exchange.bind_of_eq_ok (Exchange.now_apply first.after _)).trans ?_
  refine (Exchange.bind_of_eq_ok (Exchange.draw_of_eq_ok hsealed _)).trans ?_
  exact Exchange.bind_pure_apply (transport.logging request) (SealedOutcome.answered session) _

/-- Or it is not sealed. -/
theorem exists_sent_of_established (hoffers : first.Offers s client world)
    (hestablished : first.handshake s (Bundle.drawn world.entropy) = .ok (.established session))
    (hfirst : client.handshake s transport.logging (world, (peer, []))
      = (.ok (.established session), (first.after, (peer', [first])))) :
    ∃ log result later peer'',
      client.sendSealed s transport.logging path payload (world, (peer, []))
          = (result, (later, (peer'', log)))
        ∧ Sent s client path payload world log result later := by
  cases hsealed : client.sealedRequest s first.after.clock.wall session path payload
      first.after.entropy with
  | mk sealed e =>
    cases sealed with
    | ok request =>
      exact ⟨_, _, _, _, sendSealed_logging hfirst hsealed,
        .sent hoffers hestablished (congrArg Prod.fst hsealed)⟩
    | error err =>
      -- Random bytes or room are lacking. Some bytes may be gone all the same.
      let sending : World := { first.after with entropy := e }
      have hdraw : Exchange.draw
          (client.sealedRequest s first.after.clock.wall session path payload)
          (first.after, (peer', [first])) = (.error err, (sending, (peer', [first]))) := by
        rw [Exchange.draw, World.draw, hsealed]
      refine ⟨[first], .error err, sending, peer', ?_,
        .unsealed sending hoffers hestablished (congrArg Prod.fst hsealed)⟩
      rw [sendSealed, Exchange.bind_of_eq_ok hfirst]
      exact (Exchange.bind_of_eq_ok (Exchange.now_apply first.after _)).trans
        (Exchange.bind_of_eq_error hdraw)

end

/-- Over every transport, a payload that is sent sealed goes one of the ways. -/
theorem exists_sent (s : Suite) (transport : Transport σ) (client : Client) (path : String)
    (payload : List Bytes) (world : World) (peer : σ) :
    ∃ log result later peer',
      client.sendSealed s transport.logging path payload (world, (peer, []))
          = (result, (later, (peer', log)))
        ∧ Sent s client path payload world log result later := by
  by_cases hhas : world.entropy.has 96 = true
  · let offering : World := { world with entropy := world.entropy.advance 96 }
    let first := transport.exchange (client.offerRequest s (Bundle.drawn world.entropy)) offering peer
    have hoffers : first.Offers s client world := ⟨hhas, rfl, rfl⟩
    obtain ⟨peer', hfirst⟩ : ∃ peer', client.handshake s transport.logging (world, (peer, []))
        = (first.handshake s (Bundle.drawn world.entropy), (first.after, (peer', [first]))) :=
      ⟨_, handshake_logging hhas transport peer⟩
    cases houtcome : first.handshake s (Bundle.drawn world.entropy) with
    | error err =>
      rw [houtcome] at hfirst
      exact ⟨[first], .error err, first.after, peer', Exchange.bind_of_eq_error hfirst,
        .failed hoffers houtcome⟩
    | ok outcome =>
      rw [houtcome] at hfirst
      cases outcome with
      | rejected response =>
        exact ⟨[first], .ok (.rejected response), first.after, peer', Exchange.bind_of_eq_ok hfirst,
          .rejected hoffers houtcome⟩
      | established session => exact exists_sent_of_established hoffers houtcome hfirst
  · obtain ⟨later, hdry⟩ := exists_handshake_of_not_has hhas transport peer
    exact ⟨[], .error .random, later, peer, Exchange.bind_of_eq_error hdry, .dry later hhas⟩

end Client

end SealedEnvelope
