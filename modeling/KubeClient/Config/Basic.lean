import KubeClient.Config.Auth

/-!
# Client configuration

`Config` says which server a client talks to, and as whom.
-/

namespace KubeClient

open Documented

/-- Which server a client talks to, and as whom. -/
structure Config where
  server : String
  defaultNamespace : String
  auth : AuthConfig
  contentType : Option String
  rootCaFile : Option String
  insecureSkipTlsVerify : Bool
  connectTimeout : Option Duration
  deriving DecidableEq, Inhabited

namespace Config

/-- The namespace when none is given. -/
def initialNamespace : String := "default"

/-- The base URL of the server. -/
def serverKey : Key String := .always "server"

/-- The namespace of requests that name none. -/
def defaultNamespaceKey : Key String := .defaulting "defaultNamespace" initialNamespace

/-- Where credentials come from. -/
def authKey : Key AuthConfig := .defaulting "auth" .none

/-- The content type of request bodies, which is also asked for. -/
def contentTypeKey : Key (Option String) := .optional "contentType"

/-- A file of trusted certificates. -/
def rootCaFileKey : Key (Option String) :=
  { (Key.optional "rootCaFile" : Key (Option String)) with shape := .option .path }

/-- The server's certificate is not checked. -/
def insecureSkipTlsVerifyKey : Key Bool := .defaulting "insecureSkipTlsVerify" false

/-- The longest time that connecting may take. -/
def connectTimeoutKey : Key (Option Duration) := .optional "connectTimeout"

instance : Documented Config where
  target := "kbx::config::Config"
  shape := .ofFields "Config" [serverKey.declared, defaultNamespaceKey.declared,
    authKey.declared, contentTypeKey.declared, rootCaFileKey.declared,
    insecureSkipTlsVerifyKey.declared, connectTimeoutKey.declared]
  ofValue v := {
    server := serverKey.of v
    defaultNamespace := defaultNamespaceKey.of v
    auth := authKey.of v
    contentType := contentTypeKey.of v
    rootCaFile := rootCaFileKey.of v
    insecureSkipTlsVerify := insecureSkipTlsVerifyKey.of v
    connectTimeout := connectTimeoutKey.of v }
  toValue c := .record [serverKey.entry c.server, defaultNamespaceKey.entry c.defaultNamespace,
    authKey.entry c.auth, contentTypeKey.entry c.contentType,
    rootCaFileKey.entry c.rootCaFile,
    insecureSkipTlsVerifyKey.entry c.insecureSkipTlsVerify,
    connectTimeoutKey.entry c.connectTimeout]

/-- An anonymous client of `server`. -/
def ofServer (server : String) : Config :=
  { server
    defaultNamespace := initialNamespace
    auth := .none
    contentType := none
    rootCaFile := none
    insecureSkipTlsVerify := false
    connectTimeout := none }

end Config
end KubeClient
