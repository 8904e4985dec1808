import KubeClient.Client.Basic
import KubeClient.Config.Basic
import KubeClient.File.Tree

/-!
# Clients of a configuration

* `Config.checkCa` : the trusted certificates have to be there;
* `Client.new`, `Client.ofConfig` : clients.
-/

namespace KubeClient

namespace Config

/-- The line in front of a certificate. -/
def certificateMark : Bytes :=
  Utf8.encode "-----BEGIN CERTIFICATE-----"

/-- The bytes hold a certificate. -/
def hasCertificate : Bytes → Bool
  | [] => false
  | b :: bs => certificateMark.isPrefixOf (b :: bs) || hasCertificate bs

/-- The file of trusted certificates can be read, and holds one. -/
def checkCa (c : Config) (files : FileTree) : Except ConfigError Unit :=
  match c.rootCaFile with
  | none => .ok ()
  | some path =>
    match files.read path with
    | .error e => .error (.unreadableCa path e.message)
    | .ok bytes => if hasCertificate bytes then .ok () else .error .emptyCa

/-- The notations, of which the configured one is the default. -/
def registry (c : Config) : Registry :=
  .ofList [] c.contentType

end Config

namespace Client

variable {σ : Type}

/-- A client of the server at `base`. -/
def new (base : String) (registry : Registry) (host : Host σ) : Client σ :=
  ⟨base, registry, Config.initialNamespace, host⟩

/-- The client of a configuration. -/
def ofConfig (c : Config) (files : FileTree) (host : Host σ) : Except ConfigError (Client σ) :=
  match c.checkCa files with
  | .error e => .error e
  | .ok () => .ok { new c.server c.registry host with defaultNamespace := c.defaultNamespace }

end Client
end KubeClient
