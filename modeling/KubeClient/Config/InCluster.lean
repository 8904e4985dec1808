import KubeClient.Client.Error
import KubeClient.Config.Basic
import KubeClient.File.Tree
import KubeClient.Text.Blank

/-!
# The configuration inside a cluster

A process in a cluster finds its server in two variables, and who it is in a mounted directory.

* `Config.inCluster` : the configuration of such a process.
-/

namespace KubeClient.Config

/-- Names the host of the server. -/
def hostVariable : String := "KUBERNETES_SERVICE_HOST"

/-- Names the port of the server. -/
def portVariable : String := "KUBERNETES_SERVICE_PORT"

/-- The port if none is named. -/
def defaultPort : String := "443"

/-- Where the account of a process is mounted. -/
def accountDirectory : String := "/var/run/secrets/kubernetes.io/serviceaccount"

/-- A file of a directory. -/
def fileIn (directory name : String) : String :=
  if directory.endsWith "/" then directory ++ name else directory ++ "/" ++ name

/-- The URL of a server. A host with colons is put into brackets. -/
def serverAt (host port : String) : String :=
  let host := if host.contains ':' then "[" ++ host ++ "]" else host
  "https://" ++ host ++ ":" ++ port

/-- A text that says something. -/
def named? (text : Option String) : Option String :=
  text.filter (!·.isEmpty)

/-- The namespace of the account that is mounted in a directory. -/
def accountNamespace? (files : FileTree) (directory : String) : Option String :=
  named? ((files.readText (fileIn directory "namespace")).toOption.map Blank.trim)

/-- The configuration of a process with these variables, whose account is mounted in a
directory. -/
def inCluster (env : String → Option String) (files : FileTree)
    (directory : String) : Except ConfigError Config :=
  match named? (env hostVariable) with
  | none => .error .hostNotSet
  | some host =>
    let port := (named? (env portVariable)).getD defaultPort
    let token := fileIn directory "token"
    let ca := fileIn directory "ca.crt"
    if files.isFile token then
      .ok { ofServer (serverAt host port) with
        auth := .tokenFile token
        rootCaFile := if files.isFile ca then some ca else none
        defaultNamespace := (accountNamespace? files directory).getD initialNamespace }
    else .error (.tokenNotFound token)

end KubeClient.Config
