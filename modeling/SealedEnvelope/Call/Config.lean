import SealedEnvelope.Text.Blank
import SealedEnvelope.Text.Numeral

/-!
# `SealedEnvelope.Call.Config`: where a client finds its peer

The address of the peer, the paths of the handshake and of the login, and how long an
answer is waited for. All of it can be taken from environment variables, of which only
the address must be there; a waiting time that is no number is passed over.
-/

set_option autoImplicit false

namespace SealedEnvelope

/-- The values of environment variables. -/
abbrev Environment := String → Option String

/-- Where a client finds its peer. -/
structure ClientConfig where
  baseUrl : String
  prekeyPath : String := "/self/prekey"
  loginPath : String := "/self/login"
  timeoutSeconds : Nat := 30
  deriving DecidableEq, Repr

namespace ClientConfig

/-- The defaults for an address, which is kept without the slashes at its end. -/
def ofBaseUrl (baseUrl : String) : ClientConfig :=
  { baseUrl := Text.dropEndWhile (· == '/') baseUrl }

/-- The configuration in the environment, if there is an address in it. -/
def ofEnvironment? (get : Environment) : Option ClientConfig :=
  (get "DX_API_ADDRESS").map fun address =>
    let defaults := ofBaseUrl address
    { defaults with
      prekeyPath := (get "DX_PREKEY_PATH").getD defaults.prekeyPath
      loginPath := (get "DX_LOGIN_PATH").getD defaults.loginPath
      timeoutSeconds :=
        ((get "DX_TIMEOUT_SECS").bind (Numeral.parse? UInt64.size)).getD defaults.timeoutSeconds }

/-- The address of a path, with a slash put between them if the path begins with none. -/
def url (config : ClientConfig) (path : String) : String :=
  match path.toList with
  | '/' :: _ => config.baseUrl ++ path
  | _ => config.baseUrl ++ "/" ++ path

end ClientConfig

end SealedEnvelope
