import SealedEnvelope.Call.Error
import SealedEnvelope.Clock
import SealedEnvelope.Http.Message

/-!
# `SealedEnvelope.Call.Exchange`: talking to a peer

`Exchange σ α` is a computation of a client that reads the clock, draws random bytes and
has its requests answered by a transport with a state `σ` of its own. The transport may
do anything to the world in between: time passes while a request is answered, and a peer
in the same world draws from the same source.

As with `Drawing`, what has happened stays so when the computation fails later.
-/

set_option autoImplicit false

namespace SealedEnvelope

/-- A computation that talks to a peer. -/
abbrev Exchange (σ α : Type) := ExceptT CallError (StateM (World × σ)) α

/-- Answers a request, or fails to. -/
abbrev Transport (σ : Type) := HttpRequest → Exchange σ HttpResponse

namespace Exchange

/-- The time on the wall. -/
def now {σ : Type} : Exchange σ Instant := fun state => (.ok state.1.clock.wall, state)

/-- Runs a computation on the random bytes of the world. -/
def draw {σ α : Type} (drawing : Drawing CallError α) : Exchange σ α := fun state =>
  let outcome := state.1.draw drawing
  (outcome.1, (outcome.2, state.2))

/-- A result that is already there. -/
def ofResult {σ α : Type} (result : Except CallError α) : Exchange σ α := fun state =>
  (result, state)

end Exchange

end SealedEnvelope
