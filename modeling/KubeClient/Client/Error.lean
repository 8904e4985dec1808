import KubeClient.Auth.Credential
import KubeClient.Codec.Error
import KubeClient.Exec.Channel
import KubeClient.Http.Response
import KubeClient.Object.Status
import KubeClient.Scalar.Duration

/-!
# What goes wrong in a call

* `ClientError` : why a call failed;
* `ClientError.message` : the sentence for it;
* `ClientError.source?` : the sentence for what lies behind it.
-/

namespace KubeClient

/-- What the server did wrong on a session's connection. -/
inductive ProtocolError
  | frame (e : FrameError)
  /-- A frame on a channel that only a client writes to. -/
  | unexpectedChannel (c : Channel)
  /-- The connection ended before the outcome was known. -/
  | missingStatus
  deriving DecidableEq, Repr, Inhabited

/-- The sentence shown to a user. -/
def ProtocolError.message : ProtocolError → String
  | .frame e => e.message
  | .unexpectedChannel c => s!"unexpected frame on {c.name} channel"
  | .missingStatus => "session ended without a status"

/-- What is wrong with a configuration or with the options of a call. -/
inductive ConfigError
  | applyWithoutManager
  | forceWithoutApply
  | noStreams
  | noCommand
  | hostNotSet
  | tokenNotFound (path : String)
  | unreadableCa (path reason : String)
  | emptyCa
  | other (reason : String)
  deriving DecidableEq, Repr, Inhabited

/-- The sentence shown to a user. -/
def ConfigError.message : ConfigError → String
  | .applyWithoutManager => "server-side apply requires a field manager"
  | .forceWithoutApply => "force is only valid for server-side apply"
  | .noStreams => "at least one of stdin, stdout or stderr must be attached"
  | .noCommand => "exec needs a command"
  | .hostNotSet => "KUBERNETES_SERVICE_HOST is not set"
  | .tokenNotFound path => s!"service account token {path} not found"
  | .unreadableCa path reason => s!"cannot read CA bundle {path}: {reason}"
  | .emptyCa => "CA bundle contains no certificates"
  | .other reason => reason

/-- Why a call failed. -/
inductive ClientError
  | serialization (e : SerializationError)
  | auth (e : AuthError)
  /-- The server refused. -/
  | api (status : Status)
  /-- The network gave no answer to a request. -/
  | transport (method : Method) (path : String) (source : TransportError)
  | protocol (e : ProtocolError)
  /-- The caller called off. -/
  | cancelled
  | config (e : ConfigError)
  deriving DecidableEq, Inhabited

namespace ClientError

/-- The sentence shown to a user. -/
def message : ClientError → String
  | .serialization e => e.message
  | .auth e => e.message
  | .api status => "api error: " ++ status.text
  | .transport method path source => s!"{method.text} {path}: {source.message}"
  | .protocol e => "protocol error: " ++ e.message
  | .cancelled => "operation cancelled"
  | .config e => "invalid configuration: " ++ e.message

/-- The status that the server refused with. -/
def status? : ClientError → Option Status
  | .api status => some status
  | _ => none

/-- The code that the server refused with. -/
def code? (e : ClientError) : Option UInt16 :=
  e.status?.map (·.code)

/-- There is no such object. -/
def isNotFound (e : ClientError) : Bool :=
  e.code? == some 404

/-- The object has changed in the meantime. -/
def isConflict (e : ClientError) : Bool :=
  e.code? == some 409

/-- The sentence for what lies behind an error. -/
def source? : ClientError → Option String
  | .auth (.io _ reason) => some reason
  | .transport _ _ source => some source.message
  | .protocol e => some e.message
  | _ => none

end ClientError
end KubeClient
