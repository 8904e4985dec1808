import KubeClient.Auth.Refresh

/-!
# Sources of credentials

A source is asked when nothing fresh is at hand, and may answer differently every time.

* `Source` : what is asked, in a world that changes;
* `Source.get` : one call after the other;
* `Source.getAll` : calls that are made at once.
-/

namespace KubeClient

/-- What is asked for credentials, in a world with a state of its own. -/
structure Source (σ : Type) where
  /-- How long a credential is served. -/
  policy : Policy
  clock : σ → Clock
  consult : σ → Except AuthError Credential × σ

namespace Source

variable {σ : Type} (source : Source σ)

/-- A credential: the latest one if it is fresh and no new one is asked for, or else what the
source answers. -/
def get (force : Bool) (v : Vault) (world : σ) : Except AuthError Issued × Vault × σ :=
  match if force then none else v.fresh? source.policy (source.clock world) with
  | some issued => (.ok issued, v, world)
  | none =>
    let (outcome, world) := source.consult world
    match outcome with
    | .error e => (.error e, v, world)
    | .ok c => (.ok (v.issue c (source.clock world)), v.store c (source.clock world), world)

/-- Serves the callers in line, one after the other; there are `fuel` of them. -/
def serve : Nat → Refresh → σ → Refresh × σ
  | 0, s, world => (s, world)
  | fuel + 1, s, world =>
    let s := s.enter source.policy (source.clock world)
    if s.isRunning then
      let (outcome, world) := source.consult world
      serve fuel (s.settle (source.clock world) outcome) world
    else serve fuel s world

/-- Credentials for callers who have all come before the first one is served. -/
def getAll (forces : List Bool) (v : Vault) (world : σ) :
    List (Except AuthError Issued) × Vault × σ :=
  let s := forces.foldl (fun s force => s.arrive source.policy (source.clock world) force)
    (Refresh.start v)
  let (s, world) := source.serve s.line.length s world
  ((List.range forces.length).filterMap s.outcome?, s.vault, world)

end Source
end KubeClient
