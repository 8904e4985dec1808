import KubeClient.Client.Exchange
import KubeClient.Watch.Stream

/-!
# Watches and connections

A rejected credential is not replaced here.

* `Client.watch` : asks for changes and hands over the stream of events;
* `Client.connect` : opens the connection of a session.
-/

namespace KubeClient.Client

variable {σ : Type} (c : Client σ)

/-- Asks for changes from `version` on. -/
def watchRequest (r : Request) (version : Option String) : Request :=
  (r.add "watch" "1").add? "resourceVersion" version

/-- Asks for changes and hands over their stream, and the body that feeds it. -/
def watch (r : Request) (version : Option String) : Call σ (WatchStream × Body) := do
  let r := watchRequest r version
  let credential ← c.credential false
  let response ← c.dispatch r credential
  if response.isSuccess then
    return (.start r.method r.path (c.registry.serializerOf response), response.body)
  else c.refuse r response

/-- What goes to the network to open a connection. -/
def upgradeRequest (r : Request) (credential : Credential) : Outgoing :=
  .upgrade (r.url c.base) (credential.authorization.map (("Authorization", ·))).toList
    [Channel.subprotocol]

/-- Opens a connection. -/
def connect (r : Request) : Call σ Unit := do
  let credential ← c.credential false
  let o := c.upgradeRequest r credential
  .await (.send o) (c.host.upgrade o) (.transport r.method r.path)

end KubeClient.Client
