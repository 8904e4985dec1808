import KubeClient.Client.Error
import KubeClient.Codec.Serializer
import KubeClient.Exec.Output

/-!
# What a session receives

The frames that come are told apart by their channels: the output of the process is kept for its
readers, and the outcome of the process ends the reading.

* `Message` : what comes over a connection;
* `Inbound` : the output that has come, and how the reading has ended;
* `Inbound.receive`, `Inbound.callOff` : a message comes, and nobody waits for one any more.
-/

namespace KubeClient

/-- What comes over a connection. -/
inductive Message
  | frame (bytes : Bytes)
  | failure (e : TransportError)
  /-- The other side has ended. -/
  | ended
  deriving DecidableEq, Repr, Inhabited

/-- The outcome in the payload of the error channel; one that says nothing means success. -/
def Serializer.decodeOutcome (s : Serializer) (payload : Bytes) : Status :=
  match s.decode Status payload with
  | .ok (some status) => status
  | .ok none => .succeeded
  | .error _ => .synthesize 500 payload

/-- The output that has come, and how the reading has ended. -/
structure Inbound where
  stdout : Output
  stderr : Output
  outcome : Option (Except ClientError Status)
  deriving Inhabited

namespace Inbound

/-- Nothing has come. -/
def start : Inbound := ⟨.empty, .empty, none⟩

/-- The reading has ended. -/
def hasEnded (i : Inbound) : Bool :=
  i.outcome.isSome

/-- The reading ends. -/
def finish (i : Inbound) (outcome : Except ClientError Status) : Inbound :=
  { i with outcome := some outcome }

/-- A failure of a session on a path. -/
def failure (path : String) (e : TransportError) : ClientError :=
  .transport .get path e

/-- A payload comes on a channel. -/
def receiveOn (s : Serializer) (i : Inbound) (c : Channel) (payload : Bytes) : Inbound :=
  match c with
  | .stdout => { i with stdout := i.stdout.push payload }
  | .stderr => { i with stderr := i.stderr.push payload }
  | .error => i.finish (.ok (s.decodeOutcome payload))
  | .stdin | .resize => i.finish (.error (.protocol (.unexpectedChannel c)))

/-- A message comes. What comes behind the end is dropped. -/
def receive (s : Serializer) (path : String) (i : Inbound) (m : Message) : Inbound :=
  if i.hasEnded then i
  else match m with
    | .frame bytes =>
      match Channel.ofFrame bytes with
      | .ok (c, payload) => i.receiveOn s c payload
      | .error e => i.finish (.error (.protocol (.frame e)))
    | .failure e => i.finish (.error (failure path e))
    | .ended => i.finish (.error (.protocol .missingStatus))

/-- Nobody waits for a message any more. -/
def callOff (i : Inbound) : Inbound :=
  if i.hasEnded then i else i.finish (.error .cancelled)

end Inbound
end KubeClient
