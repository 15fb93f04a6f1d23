import SealedEnvelope.Handshake.Session
import SealedEnvelope.Proofs.Envelope.Sealing

/-!
# `SealedEnvelope.Proofs.Handshake.Conversation`: two sessions that write to each other

A conversation is a list of attempts to write, of either side and in any order. Each has
a clock and a source of random bytes of its own, and may fail. What the conversation
leaves behind is a `Transcript`: the ciphertexts that were signed, which includes those
of attempts that failed after signing, and the letters that were sent. Opening a letter
changes nothing, so that it can be opened at any point of the conversation or after it.

Main statements:

* `Transcript.Faithful.write`: an attempt keeps the transcript true to what was written;
* `Transcript.run_faithful`: the transcript of a whole conversation tells all of it.
-/

set_option autoImplicit false

namespace SealedEnvelope

open Envelope (drawCiphertext wrap)

/-- The other role. -/
def Role.other : Role → Role
  | initiator => responder
  | responder => initiator

/-- One thing for each role. -/
def Role.pick {α : Type} (initiator responder : α) : Role → α
  | .initiator => initiator
  | .responder => responder

/-- Whether either of two sessions opens what the other one makes: it has the other's public
key and expects its encryption key, and they have the same index. -/
structure Paired (s : Suite) (sessions : Role → Session) : Prop where
  peer : ∀ side, (sessions side.other).peer = (sessions side).signing.verifyingKey s
  key : ∀ side, (sessions side.other).openingKey = (sessions side).sealingKey
  index : ∀ side, (sessions side.other).index = (sessions side).index

/-- An attempt of one side to write to the other. -/
structure Attempt where
  writer : Role
  now : Instant
  payload : List Bytes
  entropy : Entropy

namespace Attempt

/-- The ciphertext that the attempt signs, if it comes to that. -/
def ciphertext (s : Suite) (sessions : Role → Session) (a : Attempt) :
    Except EnvelopeError Bytes :=
  (drawCiphertext s a.now (sessions a.writer).index (sessions a.writer).sealingKey.val a.payload
    a.entropy).1

/-- The envelope that the attempt makes. -/
def text (s : Suite) (sessions : Role → Session) (a : Attempt) : Except EnvelopeError String :=
  ((sessions a.writer).pack s a.now a.payload a.entropy).1

/-- The initiator writes two bytes. -/
def twoBytes : Attempt where
  writer := .initiator
  now := .ofUnixNanos 1700000000123456789
  payload := [[1, 2]]
  entropy := .ofBytes (List.replicate 48 9)

/-- An attempt makes an envelope exactly if it comes to a ciphertext and the text around it. -/
theorem text_eq_ok_iff {s : Suite} {sessions : Role → Session} {a : Attempt} {text : String} :
    a.text s sessions = .ok text
      ↔ ∃ ciphertext, a.ciphertext s sessions = .ok ciphertext
          ∧ wrap s (sessions a.writer).signing ciphertext = .ok text :=
  Envelope.pack_eq_ok_iff

end Attempt

/-- An attempt that succeeded, with its envelope. -/
structure Letter extends Attempt where
  text : String

/-- What a conversation leaves behind. -/
structure Transcript where
  /-- The ciphertexts that were signed, and by whom. -/
  signed : List (Role × Bytes) := []
  letters : List Letter := []

namespace Transcript

/-- The transcript after one more attempt. -/
def write (s : Suite) (sessions : Role → Session) (t : Transcript) (a : Attempt) : Transcript where
  signed :=
    match a.ciphertext s sessions with
    | .ok ciphertext => (a.writer, ciphertext) :: t.signed
    | .error _ => t.signed
  letters :=
    match a.text s sessions with
    | .ok text => { toAttempt := a, text := text } :: t.letters
    | .error _ => t.letters

/-- The transcript of a whole conversation. -/
def run (s : Suite) (sessions : Role → Session) (attempts : List Attempt) : Transcript :=
  attempts.foldl (write s sessions) {}

/-- The ciphertexts that one side signed. -/
def signedBy (t : Transcript) (side : Role) : List Bytes :=
  (t.signed.filter fun entry => entry.1 = side).map Prod.snd

theorem mem_signedBy {t : Transcript} {side : Role} {ciphertext : Bytes} :
    ciphertext ∈ t.signedBy side ↔ (side, ciphertext) ∈ t.signed := by
  simp only [signedBy, List.mem_map, List.mem_filter, decide_eq_true_eq, Prod.exists,
    exists_eq_right]

variable {s : Suite} {sessions : Role → Session}

/-- An attempt adds its letter if there is one, and loses none. -/
theorem mem_letters_write {t : Transcript} {a : Attempt} {letter : Letter} :
    letter ∈ (t.write s sessions a).letters
      ↔ letter ∈ t.letters ∨ (letter.toAttempt = a ∧ a.text s sessions = .ok letter.text) := by
  cases htext : a.text s sessions with
  | error err => simp [Transcript.write, htext]
  | ok text =>
    simp only [Transcript.write, htext, List.mem_cons, Except.ok.injEq]
    constructor
    · rintro (rfl | hmem)
      · exact .inr ⟨rfl, rfl⟩
      · exact .inl hmem
    · rintro (hmem | ⟨rfl, rfl⟩)
      · exact .inr hmem
      · exact .inl rfl

/-- An attempt adds the ciphertext that it signs if there is one, and loses none. -/
theorem mem_signed_write {t : Transcript} {a : Attempt} {side : Role} {ciphertext : Bytes} :
    (side, ciphertext) ∈ (t.write s sessions a).signed
      ↔ (side, ciphertext) ∈ t.signed
        ∨ (a.writer = side ∧ a.ciphertext s sessions = .ok ciphertext) := by
  cases hdrawn : a.ciphertext s sessions with
  | error err => simp [Transcript.write, hdrawn]
  | ok drawn =>
    simp only [Transcript.write, hdrawn, List.mem_cons, Prod.mk.injEq, Except.ok.injEq]
    constructor
    · rintro (⟨rfl, rfl⟩ | hmem)
      · exact .inr ⟨rfl, rfl⟩
      · exact .inl hmem
    · rintro (hmem | ⟨rfl, rfl⟩)
      · exact .inr hmem
      · exact .inl ⟨rfl, rfl⟩

/-- Whether a transcript tells all of some attempts and nothing else. -/
structure Faithful (s : Suite) (sessions : Role → Session) (attempts : List Attempt)
    (t : Transcript) : Prop where
  letters : ∀ letter : Letter, letter ∈ t.letters
    ↔ letter.toAttempt ∈ attempts ∧ letter.toAttempt.text s sessions = .ok letter.text
  signed : ∀ (side : Role) (ciphertext : Bytes), (side, ciphertext) ∈ t.signed
    ↔ ∃ a ∈ attempts, a.writer = side ∧ a.ciphertext s sessions = .ok ciphertext

theorem faithful_nil : Faithful s sessions [] {} where
  letters := fun letter => by simp
  signed := fun side ciphertext => by simp

/-- An attempt keeps the transcript true to what was written. -/
theorem Faithful.write {attempts : List Attempt} {t : Transcript}
    (h : Faithful s sessions attempts t) (a : Attempt) :
    Faithful s sessions (attempts ++ [a]) (t.write s sessions a) where
  letters := by
    intro letter
    rw [mem_letters_write, h.letters, List.mem_append, List.mem_singleton]
    constructor
    · rintro (⟨hattempt, htext⟩ | ⟨rfl, htext⟩)
      · exact ⟨.inl hattempt, htext⟩
      · exact ⟨.inr rfl, htext⟩
    · rintro ⟨hattempt | rfl, htext⟩
      · exact .inl ⟨hattempt, htext⟩
      · exact .inr ⟨rfl, htext⟩
  signed := by
    intro side ciphertext
    rw [mem_signed_write, h.signed]
    constructor
    · rintro (⟨b, hattempt, hb⟩ | ha)
      · exact ⟨b, List.mem_append_left _ hattempt, hb⟩
      · exact ⟨a, List.mem_append_right _ List.mem_cons_self, ha⟩
    · rintro ⟨b, hattempt, hb⟩
      cases List.mem_append.1 hattempt with
      | inl hattempt => exact .inl ⟨b, hattempt, hb⟩
      | inr hlast =>
        obtain rfl := List.mem_singleton.1 hlast
        exact .inr hb

/-- Attempts one after another keep the transcript true to what was written. -/
theorem Faithful.foldl {before : List Attempt} {t : Transcript}
    (h : Faithful s sessions before t) (attempts : List Attempt) :
    Faithful s sessions (before ++ attempts) (attempts.foldl (Transcript.write s sessions) t) := by
  -- The attempts made before are generalised, so that the invariant can speak of all of them.
  induction attempts generalizing before t with
  | nil =>
    rw [List.append_nil]
    exact h
  | cons a attempts ih =>
    have hrest := ih (h.write a)
    rwa [List.append_assoc] at hrest

/-- The transcript of a conversation tells all of its attempts and nothing else. -/
theorem run_faithful (s : Suite) (sessions : Role → Session) (attempts : List Attempt) :
    Faithful s sessions attempts (run s sessions attempts) :=
  faithful_nil.foldl attempts

end Transcript

end SealedEnvelope
