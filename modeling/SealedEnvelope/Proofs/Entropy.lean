import SealedEnvelope.Proofs.Envelope.Sealing

/-!
# `SealedEnvelope.Proofs.Entropy`: how many random bytes a drawing takes

A drawing that succeeds has taken some number of bytes, which is known from its text
(`Drawing.Takes`). One that fails may have failed because the source has run dry, or for some other
reason, as it would have on an endless source (`Drawing.DriesUp`). Both are told of a drawing by
telling them of its steps.

Main statements:

* `Entropy.has_add_iff`: many bytes are there if some are, and the others after them;
* `Drawing.DriesUp.exists_of_runsDry`: what a drawing fails with that runs dry;
* `Envelope.takes_pack` and `Envelope.driesUp_pack`: both of the making of an envelope.
-/

set_option autoImplicit false

namespace SealedEnvelope

namespace Entropy

/-- The same bytes without an end. -/
def endless (e : Entropy) : Entropy := { e with remaining := none }

theorem has_endless (e : Entropy) (n : Nat) : e.endless.has n = true := rfl

theorem has_ofBytes_iff {bytes : Bytes} {n : Nat} : (ofBytes bytes).has n = true ↔ n ≤ bytes.length :=
  decide_eq_true_iff

theorem has_zero (e : Entropy) : e.has 0 = true := by
  unfold has
  cases e.remaining with
  | none => rfl
  | some left => exact decide_eq_true (Nat.zero_le left)

theorem advance_zero (e : Entropy) : e.advance 0 = e := by
  unfold advance
  cases hleft : e.remaining with
  | none => rw [Option.map_none, Nat.add_zero, ← hleft]
  | some left => rw [Option.map_some, Nat.add_zero, Nat.sub_zero, ← hleft]

theorem advance_add (e : Entropy) (m n : Nat) : e.advance (m + n) = (e.advance m).advance n := by
  unfold advance
  cases e.remaining with
  | none => simp only [Option.map_none, Nat.add_assoc]
  | some left => simp only [Option.map_some, Nat.add_assoc, Nat.sub_sub]

/-- Many bytes are there if some are, and the others after them. -/
theorem has_add_iff {e : Entropy} {m n : Nat} :
    e.has (m + n) = true ↔ e.has m = true ∧ (e.advance m).has n = true := by
  refine ⟨fun h => ⟨has_of_le h (Nat.le_add_right m n), has_advance h⟩, ?_⟩
  rintro ⟨hfirst, hlater⟩
  unfold has at hfirst ⊢
  unfold has advance at hlater
  cases hleft : e.remaining with
  | none => rfl
  | some left =>
    rw [hleft, Option.all_some, decide_eq_true_eq] at hfirst
    rw [hleft, Option.map_some, Option.all_some, decide_eq_true_eq] at hlater
    refine decide_eq_true ?_
    omega

end Entropy

namespace Drawing

variable {ε ε' α β : Type}

/-! ## What is taken -/

/-- Whether a drawing takes `n` bytes whenever it succeeds. -/
def Takes (n : Nat) (x : Drawing ε α) : Prop :=
  ∀ (e : Entropy) (a : α) (e' : Entropy), x e = (.ok a, e') → e.has n = true ∧ e' = e.advance n

theorem takes_bytes (err : ε) (n : Nat) : Takes n (bytes err n) := by
  intro e raw e' h
  have hhas : e.has n = true := by
    by_cases hhas : e.has n = true
    · exact hhas
    · rw [bytes_of_not_has hhas] at h
      cases h
  exact ⟨hhas, (of_bytes_eq_ok h).2⟩

theorem takes_lift (result : Except ε α) : Takes 0 (liftM result : Drawing ε α) := by
  intro e a e' h
  obtain ⟨-, rfl⟩ := lift_eq_ok_iff.1 h
  exact ⟨e.has_zero, e.advance_zero.symm⟩

theorem takes_pure (a : α) : Takes 0 (pure a : Drawing ε α) := takes_lift (.ok a)

/-- What always fails takes any number. -/
theorem takes_throw (err : ε) (n : Nat) : Takes n (throw err : Drawing ε α) := by
  intro e a e' h
  cases h

theorem Takes.bind {m n : Nat} {x : Drawing ε α} {f : α → Drawing ε β} (hx : Takes m x)
    (hf : ∀ a, Takes n (f a)) : Takes (m + n) (x >>= f) := by
  intro e b e' h
  rw [bind_apply] at h
  cases hfirst : x e with
  | mk result middle =>
    rw [hfirst] at h
    cases result with
    | error err => cases h
    | ok a =>
      obtain ⟨hm, rfl⟩ := hx e a middle hfirst
      obtain ⟨hn, rfl⟩ := hf a _ b e' h
      exact ⟨Entropy.has_add_iff.2 ⟨hm, hn⟩, (e.advance_add m n).symm⟩

theorem Takes.mapError {n : Nat} {x : Drawing ε α} (hx : Takes n x) (f : ε → ε') :
    Takes n (Drawing.mapError f x) :=
  fun e a e' h => hx e a e' (of_mapError_eq_ok h)

/-- A drawing that succeeds has had the bytes for it. -/
theorem Takes.has_of_eq_ok {n : Nat} {x : Drawing ε α} (hx : Takes n x) {e : Entropy} {a : α}
    (h : (x e).1 = .ok a) : e.has n = true := by
  obtain ⟨e', h⟩ := exists_of_fst_eq_ok h
  exact (hx e a e' h).1

/-! ## What runs dry -/

/-- Whether a drawing does what it does on an endless source, unless it fails with an error of a
source that has run dry. -/
def DriesUp (dry : ε → Prop) (x : Drawing ε α) : Prop :=
  ∀ e : Entropy, (∃ err, dry err ∧ (x e).1 = .error err) ∨ x e.endless = ((x e).1, (x e).2.endless)

theorem driesUp_bytes (dry : ε → Prop) (err : ε) (n : Nat) (herr : dry err) :
    DriesUp dry (bytes err n) := by
  intro e
  by_cases hhas : e.has n = true
  · refine .inr ?_
    rw [bytes_of_has hhas, bytes_of_has (e.has_endless n)]
    rfl
  · refine .inl ⟨err, herr, ?_⟩
    rw [bytes_of_not_has hhas]

theorem driesUp_lift (dry : ε → Prop) (result : Except ε α) :
    DriesUp dry (liftM result : Drawing ε α) :=
  fun _ => .inr rfl

theorem driesUp_pure (dry : ε → Prop) (a : α) : DriesUp dry (pure a : Drawing ε α) :=
  driesUp_lift dry (.ok a)

theorem driesUp_throw (dry : ε → Prop) (err : ε) : DriesUp dry (throw err : Drawing ε α) :=
  fun _ => .inr rfl

theorem DriesUp.bind {dry : ε → Prop} {x : Drawing ε α} {f : α → Drawing ε β} (hx : DriesUp dry x)
    (hf : ∀ a, DriesUp dry (f a)) : DriesUp dry (x >>= f) := by
  intro e
  rw [bind_apply, bind_apply]
  rcases hx e with ⟨err, herr, hdry⟩ | hsame
  · refine .inl ⟨err, herr, ?_⟩
    generalize x e = outcome at hdry
    obtain ⟨result, middle⟩ := outcome
    obtain rfl : result = .error err := hdry
    rfl
  · -- The first step ends as on the endless source, and the second goes on from there.
    rw [hsame]
    generalize x e = outcome
    obtain ⟨result, middle⟩ := outcome
    cases result with
    | error err => exact .inr rfl
    | ok a => exact hf a middle

/-- Errors are renamed, those of a dry source among them. -/
theorem DriesUp.mapError {dry : ε → Prop} {dry' : ε' → Prop} {x : Drawing ε α} (hx : DriesUp dry x)
    {f : ε → ε'} (hf : ∀ err, dry err → dry' (f err)) : DriesUp dry' (Drawing.mapError f x) := by
  intro e
  rw [Drawing.mapError, Drawing.mapError]
  rcases hx e with ⟨err, herr, hdry⟩ | hsame
  · exact .inl ⟨f err, hf err herr, congrArg (Except.mapError f) hdry⟩
  · rw [hsame]
    exact .inr rfl

/-- Whether a drawing runs dry: what comes of it is not what comes of it on an endless source. -/
def RunsDry (x : Drawing ε α) (e : Entropy) : Prop := (x e).1 ≠ (x e.endless).1

/-- A drawing that runs dry fails with an error that says so. -/
theorem DriesUp.exists_of_runsDry {dry : ε → Prop} {x : Drawing ε α} (hx : DriesUp dry x)
    {e : Entropy} (h : RunsDry x e) : ∃ err, dry err ∧ (x e).1 = .error err := by
  rcases hx e with hdry | hsame
  · exact hdry
  · exact absurd (congrArg Prod.fst hsame).symm h

/-- A drawing that succeeds on an endless source runs dry if there are fewer bytes than it takes. -/
theorem Takes.runsDry {n : Nat} {x : Drawing ε α} (hx : Takes n x) {e : Entropy} {a : α}
    (h : (x e.endless).1 = .ok a) (he : ¬ e.has n = true) : RunsDry x e := by
  intro hsame
  exact he (hx.has_of_eq_ok (hsame.trans h))

end Drawing

/-! ## Envelopes -/

namespace Envelope

open Drawing (Takes DriesUp)

variable (s : Suite) (now : Instant)

theorem takes_encrypt (key message : Bytes) : Takes 16 (Cipher.encrypt s key message) := by
  have hdraw : Takes 16 Cipher.drawIv := Drawing.takes_bytes _ 16
  refine hdraw.bind (n := 0) fun iv => ?_
  cases BlockKey.ofBytes? key with
  | none => exact Drawing.takes_throw _ 0
  | some cipherKey => exact Drawing.takes_pure _

theorem takes_create (data : Bytes) : Takes 32 (DataBlock.create s now data) := by
  rw [DataBlock.create_eq]
  exact (Drawing.takes_bytes _ 32).bind (n := 0) fun _ => Drawing.takes_pure _

/-- An envelope takes 48 bytes: the nonce and the initial vector. -/
theorem takes_pack (prekey : String) (signing : SigningKey) (key : Bytes) (payload : List Bytes) :
    Takes 48 (pack s now prekey signing key payload) := by
  have hdraw : Takes 48 (drawCiphertext s now prekey key payload) := by
    refine (Drawing.takes_lift _).bind (n := 48) fun combined => ?_
    refine (Drawing.takes_lift _).bind (n := 48) fun data => ?_
    refine (takes_create s now data).bind (n := 16) fun block => ?_
    exact (Drawing.takes_lift _).bind (n := 16) fun message => takes_encrypt s key message
  rw [pack_eq]
  exact hdraw.bind (n := 0) fun ciphertext => Drawing.takes_lift _

theorem driesUp_encrypt (key message : Bytes) :
    DriesUp (· = .random) (Cipher.encrypt s key message) := by
  have hdraw : DriesUp (· = .random) Cipher.drawIv := Drawing.driesUp_bytes _ EnvelopeError.random 16 rfl
  refine hdraw.bind fun iv => ?_
  cases BlockKey.ofBytes? key with
  | none => exact Drawing.driesUp_throw _ _
  | some cipherKey => exact Drawing.driesUp_pure _ _

theorem driesUp_create (data : Bytes) : DriesUp (· = .random) (DataBlock.create s now data) := by
  have hraw : DriesUp (· = .random) (Drawing.bytes EnvelopeError.random 32) :=
    Drawing.driesUp_bytes _ EnvelopeError.random 32 rfl
  rw [DataBlock.create_eq]
  exact hraw.bind fun _ => Drawing.driesUp_pure _ _

/-- An envelope that is not made because the source has run dry is told of so. -/
theorem driesUp_pack (prekey : String) (signing : SigningKey) (key : Bytes) (payload : List Bytes) :
    DriesUp (· = .random) (pack s now prekey signing key payload) := by
  have hdraw : DriesUp (· = .random) (drawCiphertext s now prekey key payload) := by
    refine (Drawing.driesUp_lift _ _).bind fun combined => ?_
    refine (Drawing.driesUp_lift _ _).bind fun data => ?_
    refine (driesUp_create s now data).bind fun block => ?_
    exact (Drawing.driesUp_lift _ _).bind fun message => driesUp_encrypt s key message
  rw [pack_eq]
  exact hdraw.bind fun ciphertext => Drawing.driesUp_lift _ _

end Envelope

end SealedEnvelope
