import KubeClient.Scalar.Duration
import KubeClient.Scalar.Timestamp
import KubeClient.Text.Inspect

/-!
# Credentials

* `Credential` : a bearer token, how long it is good for, and a client certificate;
* `Credential.isExpiredAt`, `Credential.authorization` : what a client asks of it;
* `AuthError` : why there is none.
-/

namespace KubeClient

/-- What a client shows to the server. -/
structure Credential where
  token : String
  expiry : Option Instant := none
  certificate : Option String := none
  key : Option String := none
  deriving DecidableEq, Repr, Inhabited

namespace Credential

/-- A token that is good for ever. -/
def bearer (token : String) : Credential :=
  { token }

/-- The credential is no longer good at `now`. -/
def isExpiredAt (c : Credential) (now : Instant) : Bool :=
  match c.expiry with
  | none => false
  | some t => now.compare t != .lt

/-- The value of the authorization header, if there is a token. -/
def authorization (c : Credential) : Option String :=
  if c.token.isEmpty then none else some ("Bearer " ++ c.token)

/-- How a credential is inspected; the token stays hidden. -/
def inspect (c : Credential) : String :=
  Inspect.record "Credential" [
    ("token", Inspect.string "<redacted>"),
    ("expires_at", Inspect.option (Instant.text .shortest) c.expiry),
    ("client_certificate", toString c.certificate.isSome)]

end Credential

/-- Why there is no credential. -/
inductive AuthError
  /-- The helper did not run, or it ran and reported a failure. -/
  | processFailed (command : String) (code : Option Int) (reason : String)
  /-- The source holds nothing. -/
  | emptyCredential (origin : String)
  /-- What the helper printed is no credential. -/
  | decodeFailed (command reason : String)
  /-- The helper ran too long. -/
  | timeout (command : String) (limit : Span)
  /-- The token file cannot be read. -/
  | io (path reason : String)
  deriving DecidableEq, Repr, Inhabited

/-- The sentence shown to a user. -/
def AuthError.message : AuthError → String
  | .processFailed command none reason => s!"credential helper `{command}` failed: {reason}"
  | .processFailed command (some code) reason =>
    s!"credential helper `{command}` failed with exit code {code}: {reason}"
  | .emptyCredential origin => s!"empty credential from {origin}"
  | .decodeFailed command reason => s!"cannot decode credential from `{command}`: {reason}"
  | .timeout command limit => s!"credential helper `{command}` timed out after {limit.text}"
  | .io path reason => s!"cannot read token file {path}: {reason}"

end KubeClient
