import KubeClient.Auth.Provider
import KubeClient.Client.Basic
import KubeClient.Object.ConfigMap

/-!
# A written outside

What the outside will answer may be written down beforehand.

* `Purse` : where credentials come from, a list or a provider;
* `Reply` : an answer of the network;
* `Script`, `Script.host` : the answers that are still to come, and the outside that gives them one
  by one.
-/

namespace KubeClient

/-- Where the types of objects are defined, unless the user of the client says otherwise. -/
instance (priority := low) : Home := ⟨"kbx_oracle"⟩

/-- Where credentials come from. -/
inductive Purse
  /-- One after the other; the last one is given again and again. -/
  | listed (credentials : List (Wait AuthError Credential))
  | kept (keeper : Keeper)

namespace Purse

/-- The next credential. -/
def next (force : Bool) : Purse → Wait AuthError Credential × Purse
  | .listed [] => (.fires, .listed [])
  | .listed [wait] => (wait, .listed [wait])
  | .listed (wait :: credentials) => (wait, .listed credentials)
  | .kept keeper =>
    let (outcome, keeper) := keeper.get force
    (.ends (outcome.map (·.credential)) false, .kept keeper)

end Purse

/-- An answer of the network. -/
inductive Reply
  | response (response : Response)
  | connection
  | failure (e : TransportError)
  | fires

namespace Reply

/-- What a request comes to. -/
def toResponse : Reply → Wait TransportError Response
  | .response r => .ends (.ok r) false
  | .connection => .ends (.ok ⟨200, [], []⟩) false
  | .failure e => .ends (.error e) false
  | .fires => .fires

/-- What the opening of a connection comes to. -/
def toConnection : Reply → Wait TransportError Unit
  | .response _ | .connection => .ends (.ok ()) false
  | .failure e => .ends (.error e) false
  | .fires => .fires

end Reply

/-- The answers that are still to come. -/
structure Script where
  purse : Purse
  replies : List Reply

namespace Script

/-- The next credential. -/
def nextCredential (s : Script) (force : Bool) : Wait AuthError Credential × Script :=
  let (wait, purse) := s.purse.next force
  (wait, { s with purse })

/-- The next reply; behind the last one all connections are closed. -/
def nextReply (s : Script) : Reply × Script :=
  match s.replies with
  | [] => (.failure .closed, s)
  | reply :: replies => (reply, { s with replies })

/-- The outside that answers as it is written. -/
def host : Host Script where
  credential force s := s.nextCredential force
  send _ s := let (reply, s) := s.nextReply; (reply.toResponse, s)
  upgrade _ s := let (reply, s) := s.nextReply; (reply.toConnection, s)

end Script
end KubeClient
