import SealedEnvelope.Handshake.Bundle
import SealedEnvelope.Proofs.Envelope.InTime
import SealedEnvelope.Proofs.Handshake.Conversation

/-!
# `SealedEnvelope.Proofs.Handshake.Agreement`: a handshake leaves both sides with the same

The two sides read each other's keys in the same way, so each step of the one that can
fail is a step of the other: a public key that encodes no point, and an agreement on zero.

Main statements:

* `Bundle.agree_offer_eq_ok_iff`: when a side has a session, and what the session is;
* `Transcript.unpack_letter`: between paired sessions every letter is opened in time;
* `Bundle.exists_agreed_of_respond`: where the responder has a session, the initiator has
  one that agrees with it, and every letter of either side is opened by the other.
-/

set_option autoImplicit false

namespace SealedEnvelope

/-! ## Keys as text -/

/-- A public signing key is read from its text exactly if it encodes a point. -/
theorem VerifyingKey.ofHex_hex (s : Suite) (key : VerifyingKey) :
    ofHex s key.hex
      = if s.isPoint key.bytes then .ok key else .error (.invalidKey .notAPoint) := by
  unfold ofHex
  rw [hex, readHex_eq_ok_iff.2 (Text.Respells.refl _)]
  show ofBytes s key.bytes.val = _
  unfold ofBytes
  rw [FixedBytes.ofBytes?_val]

/-- Agreeing with the text of a public exchange key is refused exactly where it leads to zero. -/
theorem ExchangeKey.agreeHex_publicHex (s : Suite) (own peer : ExchangeKey) :
    own.agreeHex s (peer.publicHex s)
      = if (s.exchange own.secret (peer.publicKey s)).val = List.replicate 32 0 then
          .error (.invalidKey .lowOrder)
        else .ok (s.exchange own.secret (peer.publicKey s)) := by
  unfold agreeHex
  rw [publicHex, readHex_eq_ok_iff.2 (Text.Respells.refl _)]
  show own.agree s (peer.publicKey s).val = _
  unfold agree
  rw [FixedBytes.ofBytes?_val]

namespace Bundle

/-- The session that a side has when all goes well. -/
def session (s : Suite) (own peer : Bundle) (role : Role) (index : String) : Session where
  role := role
  index := index
  signing := own.signing
  peer := peer.signing.verifyingKey s
  first := s.exchange own.first.secret (peer.first.publicKey s)
  second := s.exchange own.second.secret (peer.second.publicKey s)

/-- A side has a session exactly if the other's signing key encodes a point and neither
agreement is on zero. -/
theorem agree_offer_eq_ok_iff {s : Suite} {own peer : Bundle} {role : Role} {index : String}
    {result : Session} :
    own.agree s role index (peer.offer s).signing (peer.offer s).first (peer.offer s).second
        = .ok result
      ↔ s.isPoint (peer.signing.verifyingKey s).bytes = true
        ∧ (s.exchange own.first.secret (peer.first.publicKey s)).val ≠ List.replicate 32 0
        ∧ (s.exchange own.second.secret (peer.second.publicKey s)).val ≠ List.replicate 32 0
        ∧ result = own.session s peer role index := by
  unfold agree offer
  rw [VerifyingKey.ofHex_hex, ExchangeKey.agreeHex_publicHex, ExchangeKey.agreeHex_publicHex]
  -- Three steps can fail, and the cases follow them in their order.
  by_cases hpoint : s.isPoint (peer.signing.verifyingKey s).bytes = true
  · rw [if_pos hpoint]
    by_cases hfirst : (s.exchange own.first.secret (peer.first.publicKey s)).val
        = List.replicate 32 0
    · rw [if_pos hfirst]
      exact iff_of_false (fun h => nomatch h) fun h => h.2.1 hfirst
    · rw [if_neg hfirst]
      by_cases hsecond : (s.exchange own.second.secret (peer.second.publicKey s)).val
          = List.replicate 32 0
      · rw [if_pos hsecond]
        exact iff_of_false (fun h => nomatch h) fun h => h.2.2.1 hsecond
      · rw [if_neg hsecond]
        exact ⟨fun h => ⟨hpoint, hfirst, hsecond, (Except.ok.inj h).symm⟩,
          fun h => congrArg Except.ok h.2.2.2.symm⟩
  · rw [if_neg hpoint]
    exact iff_of_false (fun h => nomatch h) fun h => hpoint h.1

/-- A session keeps the side and the index that it was made for. -/
theorem role_index_of_agree {s : Suite} {own : Bundle} {role : Role} {index signing first second : String}
    {result : Session} (h : own.agree s role index signing first second = .ok result) :
    result.role = role ∧ result.index = index := by
  obtain ⟨peer, -, h₁⟩ := exists_of_bind_eq_ok h
  obtain ⟨shared, -, h₂⟩ := exists_of_bind_eq_ok h₁
  obtain ⟨shared', -, h₃⟩ := exists_of_bind_eq_ok h₂
  obtain rfl := Except.ok.inj h₃
  exact ⟨rfl, rfl⟩

/-- The responder answers with its own offer where it has a session. -/
theorem respond_eq_ok_iff {s : Suite} {own : Bundle} {index : String} {offer : Offer}
    {answer : Answer} {result : Session} :
    own.respond s index offer = .ok (answer, result)
      ↔ own.agree s .responder index offer.signing offer.first offer.second = .ok result
        ∧ answer = { index := index, signing := (own.offer s).signing,
                     first := (own.offer s).first, second := (own.offer s).second } := by
  unfold respond
  cases own.agree s .responder index offer.signing offer.first offer.second with
  | error err => simp [bind, Except.bind]
  | ok session =>
    simp only [bind, Except.bind, pure, Except.pure, Except.ok.injEq, Prod.mk.injEq]
    constructor
    · rintro ⟨rfl, rfl⟩
      exact ⟨rfl, rfl⟩
    · rintro ⟨rfl, rfl⟩
      exact ⟨rfl, rfl⟩

end Bundle

/-! ## Letters -/

/-- Between paired sessions every letter is opened to its payload, at most 299 seconds after
it was written. -/
theorem Transcript.unpack_letter {s : Suite} (hdeciphers : s.Deciphers)
    {sessions : Role → Session} (hpaired : Paired s sessions)
    (haccepts : ∀ side, s.AcceptsOwn (sessions side).signing.seed) {attempts : List Attempt}
    {letter : Letter} (hletter : letter ∈ (run s sessions attempts).letters)
    (hnow : letter.now.isLeap = false) (hyear : 0 ≤ letter.now.year)
    (hyear' : letter.now.year ≤ 9999) {later : Instant} (hlater : later.isLeap = false)
    (hage : later.unixNanos - letter.now.unixNanos ≤ 299 * nanosPerSecond) :
    (sessions letter.writer.other).unpack s later letter.text = .ok letter.payload := by
  obtain ⟨-, htext⟩ := ((run_faithful s sessions attempts).letters letter).1 hletter
  have hpack : (Envelope.pack s letter.now (sessions letter.writer).index
      (sessions letter.writer).signing ((sessions letter.writer.other).opening later).key
      letter.payload letter.entropy).1 = .ok letter.text := by
    show (Envelope.pack s _ _ _ (sessions letter.writer.other).openingKey.val _ _).1 = _
    rw [hpaired.key letter.writer]
    exact htext
  have htime : Envelope.InTime letter.now later :=
    Envelope.inTime_of_le hnow hyear hyear' hlater hage
  exact (Envelope.Opening.unpack_pack_eq_ok_iff hdeciphers (haccepts letter.writer)
    (hpaired.peer letter.writer) hpack (Text.Respells.refl _)).2 ⟨hpaired.index letter.writer, htime⟩

/-! ## The handshake -/

namespace Bundle

open Attempt (twoBytes)

/-- Whether two sessions are what a handshake between two bundles should leave behind. -/
structure Agreed (s : Suite) (initiator responder : Bundle) (index : String)
    (initiated responded : Session) : Prop where
  initiatorRole : initiated.role = .initiator
  responderRole : responded.role = .responder
  initiatorIndex : initiated.index = index
  responderIndex : responded.index = index
  first : initiated.first = responded.first
  second : initiated.second = responded.second
  responderKey : initiated.peer = responder.signing.verifyingKey s
  initiatorKey : responded.peer = initiator.signing.verifyingKey s
  initiatorSigning : initiated.signing = initiator.signing
  responderSigning : responded.signing = responder.signing

theorem Agreed.paired {s : Suite} {initiator responder : Bundle} {index : String}
    {initiated responded : Session} (h : Agreed s initiator responder index initiated responded) :
    Paired s (Role.pick initiated responded) where
  peer := by
    intro side
    cases side with
    | initiator =>
      show responded.peer = initiated.signing.verifyingKey s
      rw [h.initiatorKey, h.initiatorSigning]
    | responder =>
      show initiated.peer = responded.signing.verifyingKey s
      rw [h.responderKey, h.responderSigning]
  -- The first agreement is for what the initiator writes, and the second for the other direction.
  key := by
    intro side
    cases side with
    | initiator =>
      show responded.openingKey = initiated.sealingKey
      rw [Session.openingKey, Session.sealingKey, h.initiatorRole, h.responderRole, h.first]
    | responder =>
      show initiated.openingKey = responded.sealingKey
      rw [Session.openingKey, Session.sealingKey, h.initiatorRole, h.responderRole, h.second]
  index := by
    intro side
    cases side with
    | initiator => exact h.responderIndex.trans h.initiatorIndex.symm
    | responder => exact h.initiatorIndex.trans h.responderIndex.symm

/-- Where the responder has a session, the initiator has one too, and the two agree. Whatever
the two sides then write, in any order, is opened by the other side at most 299 seconds
later, between clocks outside of leap seconds. -/
theorem exists_agreed_of_respond {s : Suite} (hdeciphers : s.Deciphers)
    {initiator responder : Bundle}
    (hfirst : s.Agrees initiator.first.secret responder.first.secret)
    (hsecond : s.Agrees initiator.second.secret responder.second.secret)
    (hpoint : s.isPoint (s.signingPublic responder.signing.seed) = true)
    (hinitiator : s.AcceptsOwn initiator.signing.seed)
    (hresponder : s.AcceptsOwn responder.signing.seed)
    {index : String} {answer : Answer} {responded : Session}
    (h : responder.respond s index (initiator.offer s) = .ok (answer, responded)) :
    ∃ initiated, initiator.complete s answer = .ok initiated
      ∧ Agreed s initiator responder index initiated responded
      ∧ ∀ (attempts : List Attempt) (letter : Letter),
          letter ∈ (Transcript.run s (Role.pick initiated responded) attempts).letters →
          letter.now.isLeap = false → 0 ≤ letter.now.year → letter.now.year ≤ 9999 →
          ∀ later : Instant, later.isLeap = false →
            later.unixNanos - letter.now.unixNanos ≤ 299 * nanosPerSecond →
            (Role.pick initiated responded letter.writer.other).unpack s later letter.text
              = .ok letter.payload := by
  obtain ⟨hagree, rfl⟩ := respond_eq_ok_iff.1 h
  obtain ⟨-, hzero, hzero', rfl⟩ := agree_offer_eq_ok_iff.1 hagree
  -- Each agreement of the one side is the same on the other, so it is not on zero there either.
  have hcomplete : initiator.agree s .initiator index (responder.offer s).signing
      (responder.offer s).first (responder.offer s).second
        = .ok (initiator.session s responder .initiator index) := by
    refine agree_offer_eq_ok_iff.2 ⟨hpoint, ?_, ?_, rfl⟩
    · exact hfirst ▸ hzero
    · exact hsecond ▸ hzero'
  have hagreed : Agreed s initiator responder index
      (initiator.session s responder .initiator index)
      (responder.session s initiator .responder index) :=
    { initiatorRole := rfl, responderRole := rfl, initiatorIndex := rfl, responderIndex := rfl
      first := hfirst, second := hsecond, responderKey := rfl, initiatorKey := rfl
      initiatorSigning := rfl, responderSigning := rfl }
  -- What agrees is paired, and between paired sessions every letter is opened.
  refine ⟨_, hcomplete, hagreed, ?_⟩
  intro attempts letter hletter hnow hyear hyear' later hlater hage
  refine Transcript.unpack_letter hdeciphers hagreed.paired ?_ hletter hnow hyear hyear' hlater hage
  intro side
  cases side with
  | initiator => exact hinitiator
  | responder => exact hresponder

/-- The keys of an initiator whose signing seed is zero. -/
def zeroKeys : Bundle where
  signing := ⟨FixedBytes.ofPrefix 32 []⟩
  first := ⟨FixedBytes.ofPrefix 32 [2]⟩
  second := ⟨FixedBytes.ofPrefix 32 [3]⟩

/-- The keys of a responder whose signing seed is one. -/
def oneKeys : Bundle where
  signing := ⟨FixedBytes.ofPrefix 32 [1]⟩
  first := ⟨FixedBytes.ofPrefix 32 [4]⟩
  second := ⟨FixedBytes.ofPrefix 32 [5]⟩

theorem respond_zeroKeys : ∃ answer, oneKeys.respond .twoSigners "p1" (zeroKeys.offer .twoSigners)
    = .ok (answer, oneKeys.session .twoSigners zeroKeys .responder "p1") := by
  refine ⟨_, respond_eq_ok_iff.2 ⟨agree_offer_eq_ok_iff.2 ⟨?_, ?_, ?_, rfl⟩, rfl⟩⟩
  · decide +kernel
  · decide +kernel
  · decide +kernel

/-- The two agree, and the responder opens what the initiator writes. -/
theorem exists_agreed_of_respond_zeroKeys :
    ∃ (answer : Answer) (initiated responded : Session) (text : String),
      oneKeys.respond .twoSigners "p1" (zeroKeys.offer .twoSigners) = .ok (answer, responded)
        ∧ zeroKeys.complete .twoSigners answer = .ok initiated
        ∧ Agreed .twoSigners zeroKeys oneKeys "p1" initiated responded
        ∧ responded.unpack .twoSigners (.ofUnixNanos 1700000299000000000) text = .ok [[1, 2]] := by
  obtain ⟨answer, hrespond⟩ := respond_zeroKeys
  have hfirst : Suite.Agrees .twoSigners zeroKeys.first.secret oneKeys.first.secret := by
    unfold Suite.Agrees
    decide +kernel
  have hsecond : Suite.Agrees .twoSigners zeroKeys.second.secret oneKeys.second.secret := by
    unfold Suite.Agrees
    decide +kernel
  have hpoint : Suite.twoSigners.isPoint (Suite.twoSigners.signingPublic oneKeys.signing.seed)
      = true := by
    decide +kernel
  obtain ⟨initiated, hcomplete, hagreed, hletters⟩ := exists_agreed_of_respond
    Suite.twoSigners_deciphers hfirst hsecond hpoint Suite.twoSigners_acceptsOwn_zero
    Suite.twoSigners_acceptsOwn_one hrespond
  obtain ⟨-, rfl⟩ := respond_eq_ok_iff.1 hrespond
  obtain ⟨-, -, -, rfl⟩ := agree_offer_eq_ok_iff.1 hcomplete
  have hok : (twoBytes.text .twoSigners (Role.pick
      (zeroKeys.session .twoSigners oneKeys .initiator "p1")
      (oneKeys.session .twoSigners zeroKeys .responder "p1"))).isOk = true := by
    decide +kernel
  have hnow : twoBytes.now.isLeap = false := by decide +kernel
  have hyear : 0 ≤ twoBytes.now.year := by decide +kernel
  have hyear' : twoBytes.now.year ≤ 9999 := by decide +kernel
  have hage : (Instant.ofUnixNanos 1700000299000000000).unixNanos - twoBytes.now.unixNanos
      ≤ 299 * nanosPerSecond := by
    decide +kernel
  obtain ⟨text, htext⟩ := exists_of_isOk hok
  refine ⟨_, _, _, text, hrespond, hcomplete, hagreed, ?_⟩
  exact hletters [twoBytes] { toAttempt := twoBytes, text := text }
    (((Transcript.run_faithful ..).letters _).2 ⟨List.mem_cons_self, htext⟩) hnow hyear hyear'
    (.ofUnixNanos 1700000299000000000) (by decide +kernel) hage

end Bundle

end SealedEnvelope
