import SealedEnvelope.Call.Error
import SealedEnvelope.Entropy
import SealedEnvelope.Updating

/-!
# `SealedEnvelope.Proofs.Outcome`: computations that fail or succeed

A computation of several steps that succeeds has succeeded at each of them. The lemmas take
such a computation apart from its first step to its last, so that no proof has to look
at the errors on the way:

* `exists_of_bind_eq_ok`: results without random bytes;
* `Drawing.exists_of_bind_eq_ok`: results that are drawn, and `Drawing.bytes_of_has` for a
  source that has enough left;
* `Updating.bind_apply`: results of computations that change a state, which is there after a
  failure too;
* `EnvelopeError.onWire_eq_ok_iff`: results of the wire format;
* `CallError.onEnvelope_eq_ok_iff` and `CallError.onJson_eq_ok_iff`: results of envelopes and of
  the JSON reader.
-/

set_option autoImplicit false

namespace SealedEnvelope

section
variable {ε α β : Type}

/-- A result that is one is some value. -/
theorem exists_of_isOk {result : Except ε α} (h : result.isOk = true) : ∃ a, result = .ok a := by
  cases result with
  | error err => cases h
  | ok a => exact ⟨a, rfl⟩

/-- A result that is reached in two steps has a first step. -/
theorem exists_of_bind_eq_ok {x : Except ε α} {f : α → Except ε β} {b : β}
    (h : (x >>= f) = .ok b) : ∃ a, x = .ok a ∧ f a = .ok b := by
  cases x with
  | error err => cases h
  | ok a => exact ⟨a, rfl, h⟩

/-- A result that has been turned into another one was one before. -/
theorem exists_of_map_eq_ok {x : Except ε α} {f : α → β} {b : β} (h : x.map f = .ok b) :
    ∃ a, x = .ok a ∧ f a = b := by
  cases x with
  | error err => cases h
  | ok a => exact ⟨a, rfl, Except.ok.inj h⟩

end

/-! ## Results of the wire format -/

namespace EnvelopeError

variable {α : Type}

@[simp] theorem onWire_ok (a : α) : onWire (.ok a) = .ok a := rfl

@[simp] theorem onWire_error (fault : LengthValue.Error) :
    onWire (.error fault : Except LengthValue.Error α) = .error (.wire fault) := rfl

/-- A result of the wire format is kept as one of envelopes. -/
theorem onWire_eq_ok_iff {result : Except LengthValue.Error α} {a : α} :
    onWire result = .ok a ↔ result = .ok a := by
  cases result <;> simp

end EnvelopeError

/-! ## Results of envelopes and of the JSON reader -/

namespace CallError

variable {α : Type}

@[simp] theorem onEnvelope_ok (a : α) : onEnvelope (.ok a) = .ok a := rfl

@[simp] theorem onEnvelope_error (fault : EnvelopeError) :
    onEnvelope (.error fault : Except EnvelopeError α) = .error (.envelope fault) := rfl

@[simp] theorem onJson_ok (a : α) : onJson (.ok a) = .ok a := rfl

@[simp] theorem onJson_error (fault : JsonReader.Fault) :
    onJson (.error fault : Except JsonReader.Fault α) = .error (.json fault.message) := rfl

/-- A result of envelopes is kept as one of calls. -/
theorem onEnvelope_eq_ok_iff {result : Except EnvelopeError α} {a : α} :
    onEnvelope result = .ok a ↔ result = .ok a := by
  cases result <;> simp

/-- So is a result of the JSON reader. -/
theorem onJson_eq_ok_iff {result : Except JsonReader.Fault α} {a : α} :
    onJson result = .ok a ↔ result = .ok a := by
  cases result <;> simp

end CallError

/-! ## Results that are drawn -/

namespace Entropy

/-- Where so many bytes are left, fewer can be drawn. -/
theorem has_of_le {e : Entropy} {m n : Nat} (h : e.has n = true) (hle : m ≤ n) :
    e.has m = true := by
  unfold has at h ⊢
  cases hleft : e.remaining with
  | none => rfl
  | some left =>
    rw [hleft, Option.all_some, decide_eq_true_eq] at h
    exact decide_eq_true (Nat.le_trans hle h)

/-- What is left after a draw can still be drawn. -/
theorem has_advance {e : Entropy} {m n : Nat} (h : e.has (m + n) = true) :
    (e.advance m).has n = true := by
  unfold has at h
  unfold has advance
  cases hleft : e.remaining with
  | none => rfl
  | some left =>
    rw [hleft, Option.all_some, decide_eq_true_eq] at h
    exact decide_eq_true (Nat.le_sub_of_add_le' h)

end Entropy

namespace Drawing

variable {ε α β : Type}

theorem bind_apply (x : Drawing ε α) (f : α → Drawing ε β) (e : Entropy) :
    (x >>= f) e = match x e with
      | (.ok a, e') => f a e'
      | (.error err, e') => (.error err, e') := by
  cases hx : x e with
  | mk result e' =>
    -- A drawing is a result over a state, so that its bind opens in two layers.
    show ExceptT.bind x f e = _
    simp only [ExceptT.bind, ExceptT.mk, bind, StateT.bind, hx]
    cases result with
    | error err => rfl
    | ok a => rfl

/-- A drawing that succeeds has succeeded at each of its steps. -/
theorem exists_of_bind_eq_ok {x : Drawing ε α} {f : α → Drawing ε β} {e : Entropy} {b : β}
    (h : ((x >>= f) e).1 = .ok b) : ∃ a e', x e = (.ok a, e') ∧ (f a e').1 = .ok b := by
  rw [bind_apply] at h
  cases hx : x e with
  | mk result e' =>
    rw [hx] at h
    cases result with
    | error err => cases h
    | ok a => exact ⟨a, e', rfl, h⟩

/-- A drawing that succeeds leaves some source behind. -/
theorem exists_of_fst_eq_ok {x : Drawing ε α} {e : Entropy} {a : α} (h : (x e).1 = .ok a) :
    ∃ e', x e = (.ok a, e') :=
  ⟨(x e).2, Prod.ext h rfl⟩

/-- A drawing goes on from where its first step has ended. -/
theorem bind_of_eq_ok {x : Drawing ε α} {f : α → Drawing ε β} {e e' : Entropy} {a : α}
    (h : x e = (.ok a, e')) : (x >>= f) e = f a e' := by
  rw [bind_apply, h]

/-- A last step that draws nothing makes its result of what was drawn before. -/
theorem fst_bind_pure (x : Drawing ε α) (f : α → β) (e : Entropy) :
    ((x >>= fun a => pure (f a)) e).1 = (x e).1 >>= fun a => .ok (f a) := by
  rw [bind_apply]
  cases x e with
  | mk result e' => cases result <;> rfl

/-- What succeeds has no failure to rename. -/
theorem mapError_of_eq_ok {ε' : Type} {x : Drawing ε α} {e e' : Entropy} {a : α}
    (h : x e = (.ok a, e')) (f : ε → ε') : mapError f x e = (.ok a, e') := by
  rw [mapError, h]
  rfl

/-- Bytes are drawn where there are enough of them. -/
theorem bytes_of_has {e : Entropy} {n : Nat} (h : e.has n = true) (err : ε) :
    bytes err n e = (.ok (e.peek n), e.advance n) := by
  rw [bytes, Entropy.draw?, if_pos h]

/-- None are drawn where there are not. -/
theorem bytes_of_not_has {e : Entropy} {n : Nat} (h : ¬ e.has n = true) (err : ε) :
    bytes err n e = (.error err, e) := by
  rw [bytes, Entropy.draw?, if_neg h]

/-- Bytes that have been drawn were the next ones of the source. -/
theorem of_bytes_eq_ok {err : ε} {n : Nat} {e e' : Entropy} {raw : FixedBytes n}
    (h : bytes err n e = (.ok raw, e')) : raw = e.peek n ∧ e' = e.advance n := by
  rw [bytes, Entropy.draw?] at h
  split at h
  · next hdrawn =>
    obtain ⟨-, hsome⟩ := Option.ite_none_right_eq_some.1 hdrawn
    cases hsome
    cases h
    exact ⟨rfl, rfl⟩
  · cases h

/-- What succeeds with its failures renamed succeeds without. -/
theorem of_mapError_eq_ok {ε' : Type} {f : ε → ε'} {x : Drawing ε α} {e e' : Entropy} {a : α}
    (h : mapError f x e = (.ok a, e')) : x e = (.ok a, e') := by
  rw [mapError] at h
  generalize x e = outcome at h ⊢
  obtain ⟨result, e₁⟩ := outcome
  cases result with
  | error err => cases h
  | ok found =>
    cases h
    rfl

/-- What draws nothing is taken over, and the source is left as it is. -/
theorem lift_eq_ok_iff {result : Except ε α} {e e' : Entropy} {a : α} :
    (liftM result : Drawing ε α) e = (.ok a, e') ↔ result = .ok a ∧ e = e' :=
  Prod.mk.injEq .. ▸ Iff.rfl

theorem lift_bind (result : Except ε α) (f : α → Except ε β) :
    (liftM (result >>= f) : Drawing ε β) = liftM result >>= fun a => liftM (f a) := by
  cases result <;> rfl

end Drawing

namespace Updating

variable {σ τ ε α β : Type}

theorem lift_apply (x : ExceptT ε (StateM τ) α) (state : σ) (rest : τ) :
    (lift x : Updating σ (StateM τ) ε α) state rest = (((x rest).1, state), (x rest).2) := rfl

theorem get_bind_apply (f : σ → Updating σ (StateM τ) ε α) (state : σ) (rest : τ) :
    ((get : Updating σ (StateM τ) ε σ) >>= f) state rest = f state state rest := rfl

theorem modify_apply (f : σ → σ) (state : σ) (rest : τ) :
    (modify f : Updating σ (StateM τ) ε Unit) state rest = ((.ok (), f state), rest) := rfl

theorem execute_apply (x : Updating σ (StateM τ) ε α) (start : σ) (rest : τ) :
    execute x start rest
      = ((x start rest).1.1.map fun _ => (x start rest).1.2, (x start rest).2) := rfl

/-- A failure ends a computation, and leaves the state that it has come to. -/
theorem bind_apply (x : Updating σ (StateM τ) ε α) (f : α → Updating σ (StateM τ) ε β) (state : σ)
    (rest : τ) :
    (x >>= f) state rest = match x state rest with
      | ((.ok a, state'), rest') => f a state' rest'
      | ((.error err, state'), rest') => ((.error err, state'), rest') := by
  cases hx : x state rest with
  | mk outcome rest' =>
    obtain ⟨result, state'⟩ := outcome
    show ExceptT.bind x f state rest = _
    simp only [ExceptT.bind, ExceptT.mk, bind, StateT.bind, hx]
    cases result <;> rfl

/-- A computation that leaves the state as it is, and whose result is renamed. -/
theorem lift_bind_pure_apply (x : ExceptT ε (StateM τ) α) (f : α → β) (state : σ) (rest : τ) :
    (lift x >>= fun a => pure (f a) : Updating σ (StateM τ) ε β) state rest
      = (((x rest).1.map f, state), (x rest).2) := by
  rw [bind_apply, lift_apply]
  cases (x rest).1 <;> rfl

theorem lift_bind (x : ExceptT ε (StateM τ) α) (f : α → ExceptT ε (StateM τ) β) :
    (lift (x >>= f) : Updating σ (StateM τ) ε β) = lift x >>= fun a => lift (f a) := by
  funext state rest
  rw [bind_apply, lift_apply, lift_apply]
  show (((ExceptT.bind x f rest).1, state), (ExceptT.bind x f rest).2) = _
  simp only [ExceptT.bind, ExceptT.mk, bind, StateT.bind]
  cases hx : x rest with
  | mk result rest' => cases result <;> rfl

theorem lift_lift (result : Except ε α) :
    (lift (liftM result) : Updating σ (StateM τ) ε α) = liftM result := rfl

theorem lift_pure (a : α) : (lift (pure a) : Updating σ (StateM τ) ε α) = pure a := rfl

end Updating

end SealedEnvelope
