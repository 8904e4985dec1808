import KubeClient.Auth.Source
import KubeClient.Auth.TokenFile
import KubeClient.Shell.Process

/-!
# Providers of credentials

* `Provider` : a fixed credential, a file, or a helper;
* `Site` : the files and the clocks that a provider sees;
* `Keeper` : a provider with its latest credential at a site.
-/

namespace KubeClient

/-- The files and the clocks of a host. -/
structure Site where
  files : FileTree
  clock : Clock

/-- Time passes. -/
def Site.advance (s : Site) (nanos : Nat) : Site :=
  { s with clock.steady := s.clock.steady + nanos }

/-- The token file at a site. -/
def TokenFile.source (f : TokenFile) : Source Site where
  policy := f.policy
  clock s := s.clock
  consult s := (f.read s.files s.clock, s)

namespace ExecConfig

/-- The process of a helper. -/
def process (c : ExecConfig) : Process :=
  ⟨c.command, c.args, c.environment, c.limit.toNanos⟩

/-- A program at a site that is run as the helper. -/
def sourceOf (c : ExecConfig) (run : Site → HelperRun × FileTree) : Source Site where
  policy := policy
  clock s := s.clock
  consult s :=
    let (run, files) := run s
    (c.credential run, { s with files })

/-- The helper at a site. -/
def source (c : ExecConfig) : Source Site :=
  c.sourceOf fun s => c.process.run s.files

end ExecConfig

/-- Where a client gets credentials from. -/
inductive Provider
  | fixed (credential : Credential)
  | file (file : TokenFile)
  | helper (config : ExecConfig)
  deriving DecidableEq, Inhabited

namespace Provider

/-- The configured provider. -/
def ofConfig : AuthConfig → Provider
  | .none => .fixed (.bearer "")
  | .token token => .fixed (.bearer token)
  | .tokenFile path => .file ⟨path, TokenFile.defaultLifetime⟩
  | .exec config => .helper config

end Provider

/-- A provider with its latest credential at a site. -/
structure Keeper where
  provider : Provider
  vault : Vault
  site : Site

namespace Keeper

/-- A provider that nobody has asked yet. -/
def start (provider : Provider) (site : Site) : Keeper :=
  ⟨provider, .empty, site⟩

/-- A fixed credential is always the same object. -/
def constant (c : Credential) : Issued :=
  ⟨0, c, 0⟩

/-- Asks a source and keeps what it has brought. -/
def ask {α : Type} (k : Keeper) (call : Vault → Site → α × Vault × Site) : α × Keeper :=
  let (a, vault, site) := call k.vault k.site
  (a, { k with vault, site })

/-- A credential, a new one if `force` is set. -/
def get (k : Keeper) (force : Bool) : Except AuthError Issued × Keeper :=
  match k.provider with
  | .fixed c => (.ok (constant c), k)
  | .file f => k.ask (f.source.get force)
  | .helper c => k.ask (c.source.get force)

/-- Credentials for callers who come at once. -/
def getAll (k : Keeper) (forces : List Bool) : List (Except AuthError Issued) × Keeper :=
  match k.provider with
  | .fixed c => (forces.map fun _ => .ok (constant c), k)
  | .file f => k.ask (f.source.getAll forces)
  | .helper c => k.ask (c.source.getAll forces)

end Keeper
end KubeClient
