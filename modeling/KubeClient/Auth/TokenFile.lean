import KubeClient.Auth.Vault
import KubeClient.File.Tree
import KubeClient.Text.Blank

/-!
# Tokens in files

A file holds a token, which changes from time to time. What was read is served for a while.

* `TokenFile` : the path and how long a token is served;
* `TokenFile.read` : the token in the file;
* `TokenFile.policy` : a token is served for the lifetime.
-/

namespace KubeClient

/-- The last moment that has a date in the calendar. -/
def Instant.lastSecond : Int :=
  (Date.mk 262142 12 31).toDays * 86400 + 86399

/-- A moment so many nanoseconds later, if it has a date. -/
def Instant.add? (t : Instant) (nanos : Nat) : Option Instant :=
  let total := t.nanos + nanos
  let t : Instant := ⟨t.seconds + total / 10 ^ 9, total % 10 ^ 9⟩
  if t.seconds ≤ lastSecond then some t else none

/-- A file that holds a token, and how many nanoseconds a token is served. -/
structure TokenFile where
  path : String
  lifetime : Nat
  deriving DecidableEq, Repr, Inhabited

namespace TokenFile

/-- One minute. -/
def defaultLifetime : Nat := 60 * 10 ^ 9

/-- The token in the file. -/
def read (f : TokenFile) (files : FileTree) (now : Clock) : Except AuthError Credential :=
  match files.readText f.path with
  | .error e => .error (.io f.path e.message)
  | .ok text =>
    let token := Blank.trim text
    if token.isEmpty then .error (.emptyCredential f.path)
    else .ok { token, expiry := now.wall.add? f.lifetime }

/-- A token is served for the lifetime. -/
def policy (f : TokenFile) : Policy := fun issued now =>
  now.steady - issued.time < f.lifetime

end TokenFile
end KubeClient
