import SealedEnvelope.Call.Config
import SealedEnvelope.Peer.PrekeyStore

/-!
# `SealedEnvelope.Gateway.Config`: the settings of a gateway

The port it listens on, how long and how many prekeys it keeps, how long a login lasts,
and the one user that can log in. All of it has defaults; an environment variable that
is not a number where one is needed counts as unset.
-/

set_option autoImplicit false

namespace SealedEnvelope

/-- The settings of a gateway. -/
structure GatewayConfig where
  port : Nat := 3000
  prekeys : PrekeyLimits := {}
  loginLifetime : Milliseconds := 86400000
  user : String := "demo"
  password : String := "demo-password"
  deriving DecidableEq, Repr

/-- The settings in the environment. -/
def GatewayConfig.ofEnvironment (get : Environment) : GatewayConfig :=
  let defaults : GatewayConfig := {}
  let number := fun (bound : Nat) name => (get name).bind (Numeral.parse? bound)
  let milliseconds := fun name => (number UInt64.size name).map (1000 * ·)
  { port := (number UInt16.size "DX_GATEWAY_PORT").getD defaults.port
    prekeys :=
      { lifetime := (milliseconds "DX_PREKEY_TTL_SECS").getD defaults.prekeys.lifetime
        capacity := (number UInt64.size "DX_MAX_PREKEYS").getD defaults.prekeys.capacity }
    loginLifetime := (milliseconds "DX_SESSION_TTL_SECS").getD defaults.loginLifetime
    user := (get "DX_DEMO_USER").getD defaults.user
    password := (get "DX_DEMO_PASSWORD").getD defaults.password }

end SealedEnvelope
