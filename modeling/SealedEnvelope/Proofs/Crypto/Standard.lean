import SealedEnvelope.Crypto.Standard
import SealedEnvelope.Proofs.Crypto.Aes
import SealedEnvelope.Proofs.Crypto.Suite

/-!
# `SealedEnvelope.Proofs.Crypto.Standard`: the suite in use does what is asked of it

AES deciphers what it enciphered. That a signature verifies rests on the group law of the
curve, which is not proved here. `Suite.remade` is a suite except that a signature is
checked by making it again: it accepts what the signers of a list have signed, and
nothing else, by construction.
-/

set_option autoImplicit false

namespace SealedEnvelope.Suite

theorem standard_deciphers : standard.Deciphers := Aes.decryptBlock_encryptBlock

/-- A suite where a signature is checked by making it again: one of these seeds must have the
public key, it must have signed the message, and the signature must be the one that it
makes. -/
def remade (s : Suite) (seeds : List (FixedBytes 32)) (signed : FixedBytes 32 → Bytes → Bool) :
    Suite :=
  { s with
    verify := fun key message signature => seeds.any fun seed =>
      decide (s.signingPublic seed = key) && signed seed message
        && decide (s.sign seed message = signature) }

variable {s : Suite} {seeds : List (FixedBytes 32)} {signed : FixedBytes 32 → Bytes → Bool}

theorem remade_verify_iff {key : FixedBytes 32} {message : Bytes} {signature : FixedBytes 64} :
    (s.remade seeds signed).verify key message signature = true
      ↔ ∃ seed ∈ seeds, s.signingPublic seed = key ∧ signed seed message = true
          ∧ s.sign seed message = signature := by
  simp only [remade, List.any_eq_true, Bool.and_eq_true, decide_eq_true_eq, and_assoc]

theorem remade_deciphers (h : s.Deciphers) : (s.remade seeds signed).Deciphers := h

/-- A seed of the list that signs everything has its signatures accepted. -/
theorem remade_acceptsOwn {seed : FixedBytes 32} (hmem : seed ∈ seeds)
    (hsigned : ∀ message, signed seed message = true) :
    (s.remade seeds signed).AcceptsOwn seed :=
  fun message => remade_verify_iff.2 ⟨seed, hmem, rfl, hsigned message, rfl⟩

/-- The suite in use for two signers, whose seeds are zero and one. -/
def twoSigners : Suite :=
  standard.remade [FixedBytes.ofPrefix 32 [], FixedBytes.ofPrefix 32 [1]] fun _ _ => true

theorem twoSigners_deciphers : twoSigners.Deciphers := remade_deciphers standard_deciphers

theorem twoSigners_acceptsOwn_zero : twoSigners.AcceptsOwn (FixedBytes.ofPrefix 32 []) :=
  remade_acceptsOwn List.mem_cons_self fun _ => rfl

theorem twoSigners_acceptsOwn_one : twoSigners.AcceptsOwn (FixedBytes.ofPrefix 32 [1]) :=
  remade_acceptsOwn (List.mem_cons_of_mem _ List.mem_cons_self) fun _ => rfl

end SealedEnvelope.Suite
