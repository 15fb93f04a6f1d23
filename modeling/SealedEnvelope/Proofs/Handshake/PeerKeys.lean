import SealedEnvelope.Proofs.Handshake.Agreement

/-!
# `SealedEnvelope.Proofs.Handshake.PeerKeys`: which keys of the other side are taken

A side is given three texts as the keys of the other side, and they may be any texts. Each of them
should be the hexadecimal text of 32 bytes, and the bytes should be good for something: those of a
signing key encode a point, and on those of an exchange key the secret at hand does not agree on
zero. A `KeyKind` is what they should be good for. Which texts spell a key of a kind is said without
a reader, and so is why a text spells none.

The three texts are looked at in order, and the first that is bad is the one that is told of. It is
the same for both sides, since a session of either side is made by the same steps.

Main statements:

* `KeyKind.read_of_fault`: what is told of a text that spells no key;
* `Bundle.takes_or_firstFault`: three texts are keys that a side takes, or one of them is the first
  that is not;
* `Bundle.agree_of_takes` and `Bundle.agree_of_firstFault`: what a side makes of them;
* `Bundle.respond_complete_alike`: the two together, for both halves of the handshake.
-/

set_option autoImplicit false

namespace SealedEnvelope

/-! ## One key -/

/-- A kind of public keys of 32 bytes. -/
structure KeyKind where
  /-- Whether 32 bytes are a key of this kind. -/
  good : FixedBytes 32 → Prop
  /-- What is told of so many bytes, if they are not 32. -/
  wrongLength : Nat → KeyFault
  /-- What is told of 32 bytes that are not good. -/
  notGood : KeyFault

namespace KeyKind

/-- Public signing keys encode a point. -/
def signing (s : Suite) : KeyKind where
  good := fun key => s.isPoint key = true
  wrongLength := .verifyingLength
  notGood := .notAPoint

/-- On public exchange keys a secret does not agree on zero. -/
def exchange (s : Suite) (own : ExchangeKey) : KeyKind where
  good := fun key => (s.exchange own.secret key).val ≠ List.replicate 32 0
  wrongLength := .exchangeLength
  notGood := .lowOrder

variable {kind : KeyKind} {text : String} {error : EnvelopeError}

/-- Whether a text spells a key: it is, between white space, its hexadecimal text. -/
def Spells (kind : KeyKind) (text : String) (key : FixedBytes 32) : Prop :=
  Text.Respells text (Hex.encode key.val) ∧ kind.good key

/-- Why a text spells no key, and the error that says so. -/
inductive Fault (kind : KeyKind) (text : String) : EnvelopeError → Prop
  /-- It is the hexadecimal text of no bytes. -/
  | notHex : (∀ bytes : Bytes, ¬ Text.Respells text (Hex.encode bytes)) → Fault kind text .invalidHex
  /-- The bytes are not 32. -/
  | wrongLength (bytes : Bytes) : Text.Respells text (Hex.encode bytes) → bytes.length ≠ 32 →
    Fault kind text (.invalidKey (kind.wrongLength bytes.length))
  /-- They are 32 and not good. -/
  | notGood (key : FixedBytes 32) : Text.Respells text (Hex.encode key.val) → ¬ kind.good key →
    Fault kind text (.invalidKey kind.notGood)

/-- A text spells a key, or there is a reason why it does not. -/
theorem spells_or_fault (kind : KeyKind) (text : String) :
    (∃ key, kind.Spells text key) ∨ ∃ error, kind.Fault text error := by
  by_cases hhex : ∃ bytes : Bytes, Text.Respells text (Hex.encode bytes)
  · obtain ⟨bytes, hspelling⟩ := hhex
    by_cases hlength : bytes.length = 32
    · by_cases hgood : kind.good ⟨bytes, hlength⟩
      · exact .inl ⟨⟨bytes, hlength⟩, hspelling, hgood⟩
      · exact .inr ⟨_, .notGood ⟨bytes, hlength⟩ hspelling hgood⟩
    · exact .inr ⟨_, .wrongLength bytes hspelling hlength⟩
  · exact .inr ⟨_, .notHex (not_exists.1 hhex)⟩

/-- A text that spells no key is told of as one that is not hexadecimal, or as no key. -/
theorem Fault.eq_invalidHex_or (h : kind.Fault text error) :
    error = .invalidHex ∨ ∃ fault, error = .invalidKey fault := by
  cases h with
  | notHex => exact .inl rfl
  | wrongLength | notGood => exact .inr ⟨_, rfl⟩

/-- What is told of a text that spells no key, by a reader that tells of bytes what it should. -/
theorem read_of_fault {α : Type} {read : Bytes → Except EnvelopeError α}
    (hlength : ∀ bytes : Bytes, bytes.length ≠ 32 →
      read bytes = .error (.invalidKey (kind.wrongLength bytes.length)))
    (hgood : ∀ key : FixedBytes 32, ¬ kind.good key →
      read key.val = .error (.invalidKey kind.notGood))
    (h : kind.Fault text error) : (readHex text >>= read) = .error error := by
  cases h with
  | notHex hnone =>
    rw [readHex_of_forall_not hnone]
    rfl
  | wrongLength bytes hspelling hne =>
    rw [readHex_eq_ok_iff.2 hspelling]
    exact hlength bytes hne
  | notGood key hspelling hbad =>
    rw [readHex_eq_ok_iff.2 hspelling]
    exact hgood key hbad

end KeyKind

namespace VerifyingKey

variable {s : Suite} {text : String}

theorem ofHex_of_spells {key : FixedBytes 32} (h : (KeyKind.signing s).Spells text key) :
    ofHex s text = .ok ⟨key⟩ := by
  rw [ofHex, readHex_eq_ok_iff.2 h.1]
  show ofBytes s key.val = _
  rw [ofBytes, FixedBytes.ofBytes?_val]
  exact if_pos h.2

theorem ofHex_of_fault {error : EnvelopeError} (h : (KeyKind.signing s).Fault text error) :
    ofHex s text = .error error := by
  refine KeyKind.read_of_fault ?_ ?_ h
  · intro bytes hlength
    rw [ofBytes, FixedBytes.ofBytes?, dif_neg hlength]
    rfl
  · intro key hpoint
    rw [ofBytes, FixedBytes.ofBytes?_val]
    exact if_neg hpoint

end VerifyingKey

namespace ExchangeKey

variable {s : Suite} {own : ExchangeKey} {text : String}

theorem agreeHex_of_spells {key : FixedBytes 32} (h : (KeyKind.exchange s own).Spells text key) :
    own.agreeHex s text = .ok (s.exchange own.secret key) := by
  rw [agreeHex, readHex_eq_ok_iff.2 h.1]
  show own.agree s key.val = _
  rw [agree, FixedBytes.ofBytes?_val]
  exact if_neg h.2

theorem agreeHex_of_fault {error : EnvelopeError} (h : (KeyKind.exchange s own).Fault text error) :
    own.agreeHex s text = .error error := by
  refine KeyKind.read_of_fault ?_ ?_ h
  · intro bytes hlength
    rw [agree, FixedBytes.ofBytes?, dif_neg hlength]
    rfl
  · intro key hzero
    rw [agree, FixedBytes.ofBytes?_val]
    exact if_pos (Decidable.not_not.1 hzero)

end ExchangeKey

/-! ## Three keys -/

namespace Bundle

open KeyKind (exchange)

variable {s : Suite} {own : Bundle} {signing first second : String} {error : EnvelopeError}

/-- Whether three texts spell the keys that a side takes. -/
structure Takes (s : Suite) (own : Bundle) (signing first second : String)
    (x y z : FixedBytes 32) : Prop where
  signing : (KeyKind.signing s).Spells signing x
  first : (exchange s own.first).Spells first y
  second : (exchange s own.second).Spells second z

/-- The first of three texts that spells no key that a side takes, by its error. -/
inductive FirstFault (s : Suite) (own : Bundle) (signing first second : String) :
    EnvelopeError → Prop
  | signing {error : EnvelopeError} : (KeyKind.signing s).Fault signing error →
    FirstFault s own signing first second error
  | first {error : EnvelopeError} (x : FixedBytes 32) : (KeyKind.signing s).Spells signing x →
    (exchange s own.first).Fault first error → FirstFault s own signing first second error
  | second {error : EnvelopeError} (x y : FixedBytes 32) : (KeyKind.signing s).Spells signing x →
    (exchange s own.first).Spells first y → (exchange s own.second).Fault second error →
    FirstFault s own signing first second error

/-- A side takes three texts as keys, or one of them is the first that it does not take. -/
theorem takes_or_firstFault (s : Suite) (own : Bundle) (signing first second : String) :
    (∃ x y z, Takes s own signing first second x y z)
      ∨ ∃ error, FirstFault s own signing first second error := by
  rcases (KeyKind.signing s).spells_or_fault signing with ⟨x, hx⟩ | ⟨error, hfault⟩
  · rcases (exchange s own.first).spells_or_fault first with ⟨y, hy⟩ | ⟨error, hfault⟩
    · rcases (exchange s own.second).spells_or_fault second with ⟨z, hz⟩ | ⟨error, hfault⟩
      · exact .inl ⟨x, y, z, hx, hy, hz⟩
      · exact .inr ⟨error, .second x y hx hy hfault⟩
    · exact .inr ⟨error, .first x hx hfault⟩
  · exact .inr ⟨error, .signing hfault⟩

/-- A side that takes the keys has a session, whichever side it is. -/
theorem agree_of_takes {x y z : FixedBytes 32} (h : Takes s own signing first second x y z)
    (role : Role) (index : String) :
    own.agree s role index signing first second
      = .ok { role := role, index := index, signing := own.signing, peer := ⟨x⟩,
              first := s.exchange own.first.secret y, second := s.exchange own.second.secret z } := by
  rw [agree, VerifyingKey.ofHex_of_spells h.signing, ExchangeKey.agreeHex_of_spells h.first,
    ExchangeKey.agreeHex_of_spells h.second]
  rfl

/-- A side that does not take them tells of the first fault, whichever side it is. -/
theorem agree_of_firstFault (h : FirstFault s own signing first second error) (role : Role)
    (index : String) : own.agree s role index signing first second = .error error := by
  cases h with
  | signing hfault =>
    rw [agree, VerifyingKey.ofHex_of_fault hfault]
    rfl
  | first x hx hfault =>
    rw [agree, VerifyingKey.ofHex_of_spells hx, ExchangeKey.agreeHex_of_fault hfault]
    rfl
  | second x y hx hy hfault =>
    rw [agree, VerifyingKey.ofHex_of_spells hx, ExchangeKey.agreeHex_of_spells hy,
      ExchangeKey.agreeHex_of_fault hfault]
    rfl

theorem FirstFault.eq_invalidHex_or (h : FirstFault s own signing first second error) :
    error = .invalidHex ∨ ∃ fault, error = .invalidKey fault := by
  cases h with
  | signing hfault => exact hfault.eq_invalidHex_or
  | first x hx hfault => exact hfault.eq_invalidHex_or
  | second x y hx hy hfault => exact hfault.eq_invalidHex_or

/-- The responder fails where it has no session. -/
theorem respond_of_agree_eq_error {index : String} {offer : Offer}
    (h : own.agree s .responder index offer.signing offer.first offer.second = .error error) :
    own.respond s index offer = .error error := by
  rw [respond, h]
  rfl

/-- Both halves of the handshake judge the keys of the other side alike, whatever texts they are
given. Either both fail with the same error, which is that of the first text that is bad and says
that the text is not hexadecimal or that it is no key; or both have a session, with the same public
signing key and the same two secrets. Each text is then, between white space, the hexadecimal text
of 32 bytes. Those of the first are the signing key, and encode a point; from those of the other two
come the secrets, and neither of these is zero. -/
theorem respond_complete_alike (s : Suite) (own : Bundle) (index signing first second : String) :
    (∃ error,
        own.respond s index { signing := signing, first := first, second := second } = .error error
          ∧ own.complete s
              { index := index, signing := signing, first := first, second := second }
            = .error error
          ∧ FirstFault s own signing first second error
          ∧ (error = .invalidHex ∨ ∃ fault, error = .invalidKey fault))
      ∨ ∃ (answer : Answer) (responded initiated : Session) (x y z : FixedBytes 32),
        own.respond s index { signing := signing, first := first, second := second }
            = .ok (answer, responded)
          ∧ own.complete s
              { index := index, signing := signing, first := first, second := second }
            = .ok initiated
          ∧ initiated.peer = responded.peer
          ∧ initiated.first = responded.first
          ∧ initiated.second = responded.second
          ∧ Text.Respells signing (Hex.encode x.val) ∧ s.isPoint x = true
          ∧ Text.Respells first (Hex.encode y.val)
          ∧ Text.Respells second (Hex.encode z.val)
          ∧ responded.peer.bytes = x
          ∧ responded.first = s.exchange own.first.secret y
          ∧ responded.second = s.exchange own.second.secret z
          ∧ responded.first.val ≠ List.replicate 32 0
          ∧ responded.second.val ≠ List.replicate 32 0 := by
  rcases takes_or_firstFault s own signing first second with ⟨x, y, z, h⟩ | ⟨error, h⟩
  · have hagree := agree_of_takes h
    obtain ⟨⟨hsigning, hpoint⟩, ⟨hfirst, hzero⟩, ⟨hsecond, hzero'⟩⟩ := h
    exact .inr ⟨_, _, _, x, y, z, respond_eq_ok_iff.2 ⟨hagree .responder index, rfl⟩,
      hagree .initiator index, rfl, rfl, rfl, hsigning, hpoint, hfirst, hsecond, rfl, rfl, rfl,
      hzero, hzero'⟩
  · exact .inl ⟨error, respond_of_agree_eq_error (agree_of_firstFault h .responder index),
      agree_of_firstFault h .initiator index, h, h.eq_invalidHex_or⟩

end Bundle

end SealedEnvelope
