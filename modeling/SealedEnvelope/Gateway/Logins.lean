import SealedEnvelope.Clock
import SealedEnvelope.Crypto.Suite
import SealedEnvelope.Text.Utf8

/-!
# `SealedEnvelope.Gateway.Logins`: who is logged in

A login is kept under the hash of its session key, so that the table does not give the
keys away, and counts for as long as it is younger than the lifetime of a login.
-/

set_option autoImplicit false

namespace SealedEnvelope

/-- What is known of a login. -/
structure LoginRecord where
  userId : String
  /-- The time on the wall at the login, as text. -/
  loggedInAt : String
  issuedAt : Milliseconds
  deriving DecidableEq, Repr

/-- The logins, each under the hash of its session key. -/
structure LoginTable where
  entries : List (FixedBytes 32 × LoginRecord) := []
  deriving DecidableEq, Repr

namespace LoginTable

/-- Under which hash the login with a session key is kept. -/
def hashOf (s : Suite) (sessionKey : String) : FixedBytes 32 := s.shortHash (Utf8.encode sessionKey)

/-- Whether a login still counts at a time. -/
def isLive (lifetime at_ : Milliseconds) (record : LoginRecord) : Bool :=
  at_ - record.issuedAt < lifetime

/-- The number of logins. -/
def size (logins : LoginTable) : Nat := logins.entries.length

/-- The login under a hash. -/
def find? (logins : LoginTable) (hash : FixedBytes 32) : Option LoginRecord :=
  (logins.entries.find? fun entry => entry.1 == hash).map Prod.snd

/-- The table without the login under a hash. -/
def remove (logins : LoginTable) (hash : FixedBytes 32) : LoginTable :=
  { entries := logins.entries.filter fun entry => entry.1 ≠ hash }

/-- The table with one more login, which replaces one under the same hash. -/
def insert (logins : LoginTable) (hash : FixedBytes 32) (record : LoginRecord) : LoginTable :=
  { entries := (hash, record) :: (logins.remove hash).entries }

/-- The table without the logins that no longer count. -/
def purge (lifetime at_ : Milliseconds) (logins : LoginTable) : LoginTable :=
  { entries := logins.entries.filter fun entry => isLive lifetime at_ entry.2 }

end LoginTable

end SealedEnvelope
