/-!
# `SealedEnvelope.Updating`: computations that change a state

Some computations belong to something that they change: a store that keeps an entry, a
client that remembers a login. `Updating σ m ε α` has a `σ` as its state, beside whatever
a computation in `m` uses, and may fail with an `ε`.

As with `Drawing`, a change is not undone when the computation fails later: the state is
threaded through failures too.
-/

set_option autoImplicit false

namespace SealedEnvelope

/-- A computation that may change a `σ` and may fail with an `ε`. -/
abbrev Updating (σ : Type) (m : Type → Type) (ε α : Type) := ExceptT ε (StateT σ m) α

namespace Updating

variable {σ : Type} {m : Type → Type} {ε α : Type} [Monad m]

/-- A computation that leaves the state as it is. -/
def lift (x : ExceptT ε m α) : Updating σ m ε α := ExceptT.mk fun state => do
  let result ← x.run
  return (result, state)

/-- The state that a computation makes of another one, if it does not fail. -/
def execute (x : Updating σ m ε α) (start : σ) : ExceptT ε m σ := ExceptT.mk do
  let (result, state) ← x.run.run start
  return result.map fun _ => state

end Updating

end SealedEnvelope
