import KubeClient.Auth.Credential

/-!
# The latest credential

* `Clock` : the two clocks of a host;
* `Issued` : a credential, and which refresh brought it;
* `Vault` : the latest credential and how many refreshes have brought one;
* `Policy` : how long a credential is served.
-/

namespace KubeClient

/-- The two clocks of a host: one that only moves on, in nanoseconds, and the time of day. -/
structure Clock where
  steady : Nat
  wall : Instant
  deriving DecidableEq, Repr, Inhabited

/-- A credential, the number of the refresh that brought it, and when that was. Two credentials
are the same object if their numbers are equal. -/
structure Issued where
  number : Nat
  credential : Credential
  time : Nat
  deriving DecidableEq, Repr, Inhabited

/-- How long a credential is served. -/
abbrev Policy := Issued → Clock → Bool

/-- The latest credential and how many refreshes have brought one. -/
structure Vault where
  latest : Option Issued
  runs : Nat
  deriving DecidableEq, Repr, Inhabited

namespace Vault

/-- Nothing was brought yet. -/
def empty : Vault := ⟨none, 0⟩

/-- The latest credential if it may still be served. -/
def fresh? (v : Vault) (policy : Policy) (now : Clock) : Option Issued :=
  v.latest.filter (policy · now)

/-- The credential of one more refresh. -/
def issue (v : Vault) (c : Credential) (now : Clock) : Issued :=
  ⟨v.runs + 1, c, now.steady⟩

/-- A refresh has brought a credential. -/
def store (v : Vault) (c : Credential) (now : Clock) : Vault :=
  ⟨some (v.issue c now), v.runs + 1⟩

end Vault
end KubeClient
