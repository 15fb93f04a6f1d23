import SealedEnvelope.Proofs.Handshake.Agreement

/-!
# `SealedEnvelope.Proofs.Handshake.Completion`: handshakes that come about

Two bundles are `Compatible` if the primitives do for them what they are for. Then no step of
a handshake between them fails, and what either session makes is opened by the other one.

Main statements:

* `Bundle.draw_of_has`: which keys are drawn where random bytes are there;
* `Bundle.Compatible.respond` and `Bundle.Compatible.complete`: both halves of the handshake;
* `Paired.unpack_text`: an envelope is opened by the other side.
-/

set_option autoImplicit false

namespace SealedEnvelope

/-! ## Keys that are drawn -/

namespace Bundle

/-- The keys that the next bytes of a source make. -/
def drawn (e : Entropy) : Bundle where
  signing := ⟨e.peek 32⟩
  first := ⟨(e.advance 32).peek 32⟩
  second := ⟨((e.advance 32).advance 32).peek 32⟩

theorem draw_of_has {e : Entropy} (he : e.has 96 = true) :
    draw e = (.ok (drawn e), ((e.advance 32).advance 32).advance 32) := by
  have hfirst : (e.advance 32).has 64 = true := Entropy.has_advance he
  have hsecond : ((e.advance 32).advance 32).has 32 = true := Entropy.has_advance hfirst
  have hsigning : SigningKey.draw e = (.ok ⟨e.peek 32⟩, e.advance 32) :=
    Drawing.bind_of_eq_ok (Drawing.bytes_of_has (Entropy.has_of_le he (by decide)) _)
  have hexchange {e : Entropy} (he : e.has 32 = true) :
      ExchangeKey.draw e = (.ok ⟨e.peek 32⟩, e.advance 32) :=
    Drawing.bind_of_eq_ok (Drawing.bytes_of_has he _)
  rw [draw, Drawing.bind_of_eq_ok hsigning,
    Drawing.bind_of_eq_ok (hexchange (Entropy.has_of_le hfirst (by decide))),
    Drawing.bind_of_eq_ok (hexchange hsecond)]
  rfl

/-! ## The two halves -/

/-- The answer of a side to an offer that it takes. -/
def answer (s : Suite) (own : Bundle) (index : String) : Answer where
  index := index
  signing := (own.offer s).signing
  first := (own.offer s).first
  second := (own.offer s).second

/-- Whether the primitives do for two bundles what they are for. -/
structure Compatible (s : Suite) (initiator responder : Bundle) : Prop where
  /-- The agreements commute. -/
  first : s.Agrees initiator.first.secret responder.first.secret
  second : s.Agrees initiator.second.secret responder.second.secret
  /-- Neither of them is on zero. -/
  first_ne_zero :
    (s.exchange responder.first.secret (initiator.first.publicKey s)).val ≠ List.replicate 32 0
  second_ne_zero :
    (s.exchange responder.second.secret (initiator.second.publicKey s)).val ≠ List.replicate 32 0
  /-- Public signing keys encode points, and accept what they are for. -/
  initiator_isPoint : s.isPoint (initiator.signing.verifyingKey s).bytes = true
  responder_isPoint : s.isPoint (responder.signing.verifyingKey s).bytes = true
  initiator_acceptsOwn : s.AcceptsOwn initiator.signing.seed
  responder_acceptsOwn : s.AcceptsOwn responder.signing.seed

namespace Compatible

variable {s : Suite} {initiator responder : Bundle}

/-- The responder takes the offer. -/
theorem respond (h : Compatible s initiator responder) (index : String) :
    responder.respond s index (initiator.offer s)
      = .ok (responder.answer s index, responder.session s initiator .responder index) :=
  respond_eq_ok_iff.2 ⟨agree_offer_eq_ok_iff.2
    ⟨h.initiator_isPoint, h.first_ne_zero, h.second_ne_zero, rfl⟩, rfl⟩

/-- The initiator takes the answer. -/
theorem complete (h : Compatible s initiator responder) (index : String) :
    initiator.complete s (responder.answer s index)
      = .ok (initiator.session s responder .initiator index) := by
  refine agree_offer_eq_ok_iff.2 ⟨h.responder_isPoint, ?_, ?_, rfl⟩
  · exact h.first ▸ h.first_ne_zero
  · exact h.second ▸ h.second_ne_zero

/-- Their sessions are paired. -/
theorem paired (h : Compatible s initiator responder) (index : String) :
    Paired s (Role.pick (initiator.session s responder .initiator index)
      (responder.session s initiator .responder index)) := by
  have hagreed : Agreed s initiator responder index
      (initiator.session s responder .initiator index)
      (responder.session s initiator .responder index) :=
    { initiatorRole := rfl, responderRole := rfl, initiatorIndex := rfl, responderIndex := rfl
      first := h.first, second := h.second, responderKey := rfl, initiatorKey := rfl
      initiatorSigning := rfl, responderSigning := rfl }
  exact hagreed.paired

/-- The keys of seeds zero and one go together. -/
theorem of_zeroKeys : Compatible .twoSigners zeroKeys oneKeys where
  first := by
    unfold Suite.Agrees
    decide +kernel
  second := by
    unfold Suite.Agrees
    decide +kernel
  first_ne_zero := by decide +kernel
  second_ne_zero := by decide +kernel
  initiator_isPoint := by decide +kernel
  responder_isPoint := by decide +kernel
  initiator_acceptsOwn := Suite.twoSigners_acceptsOwn_zero
  responder_acceptsOwn := Suite.twoSigners_acceptsOwn_one

end Compatible

end Bundle

/-! ## Envelopes between the two sides -/

/-- What one of two paired sessions makes is opened by the other one, at most 299 seconds
later. -/
theorem Paired.unpack_text {s : Suite} (hdeciphers : s.Deciphers) {sessions : Role → Session}
    (hpaired : Paired s sessions) (haccepts : ∀ side, s.AcceptsOwn (sessions side).signing.seed)
    {a : Attempt} {text : String} (htext : a.text s sessions = .ok text)
    (hnow : a.now.isLeap = false) (hyear : 0 ≤ a.now.year) (hyear' : a.now.year ≤ 9999)
    {later : Instant} (hlater : later.isLeap = false)
    (hage : later.unixNanos - a.now.unixNanos ≤ 299 * nanosPerSecond) :
    (sessions a.writer.other).unpack s later text = .ok a.payload := by
  have hletter : { toAttempt := a, text := text } ∈ (Transcript.run s sessions [a]).letters :=
    ((Transcript.run_faithful s sessions [a]).letters _).2 ⟨List.mem_cons_self, htext⟩
  exact Transcript.unpack_letter hdeciphers hpaired haccepts hletter hnow hyear hyear' hlater hage

/-- So it is with the sessions that compatible bundles end up with. -/
theorem Bundle.Compatible.unpack_text {s : Suite} (hdeciphers : s.Deciphers)
    {initiator responder : Bundle} (h : Compatible s initiator responder) {index : String}
    {a : Attempt} {text : String}
    (htext : a.text s (Role.pick (initiator.session s responder .initiator index)
      (responder.session s initiator .responder index)) = .ok text)
    (hnow : a.now.isLeap = false) (hyear : 0 ≤ a.now.year) (hyear' : a.now.year ≤ 9999)
    {later : Instant} (hlater : later.isLeap = false)
    (hage : later.unixNanos - a.now.unixNanos ≤ 299 * nanosPerSecond) :
    (Role.pick (initiator.session s responder .initiator index)
        (responder.session s initiator .responder index) a.writer.other).unpack s later text
      = .ok a.payload := by
  refine (h.paired index).unpack_text hdeciphers ?_ htext hnow hyear hyear' hlater hage
  intro side
  cases side with
  | initiator => exact h.initiator_acceptsOwn
  | responder => exact h.responder_acceptsOwn

end SealedEnvelope
