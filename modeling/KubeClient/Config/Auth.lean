import KubeClient.Document.Documented

/-!
# Where credentials come from

* `AuthConfig` : nowhere, a fixed token, a file, or a helper program;
* `ExecConfig` : the helper program with its arguments and environment.
-/

namespace KubeClient

open Documented

/-- A path of the file system. -/
def Shape.path : Shape :=
  .text "path string" fun _ => .ok ()

/-- A variable of a helper's environment. -/
structure ExecVariable where
  name : String
  value : String
  deriving DecidableEq, Inhabited

namespace ExecVariable

/-- The name of the variable. -/
def nameKey : Key String := .always "name"

/-- What the variable is set to. -/
def valueKey : Key String := .always "value"

instance : Documented ExecVariable where
  target := "ExecEnvVar"
  shape := .ofFields "ExecEnvVar" [nameKey.declared, valueKey.declared]
  ofValue v := ⟨nameKey.of v, valueKey.of v⟩
  toValue e := .record [nameKey.entry e.name, valueKey.entry e.value]

end ExecVariable

/-- A helper program that prints credentials. -/
structure ExecConfig where
  command : String
  args : List String
  env : List ExecVariable
  apiVersion : String
  timeout : Option Duration
  deriving DecidableEq, Inhabited

namespace ExecConfig

/-- The version of credentials that helpers are asked for. -/
def defaultApiVersion : String := "client.authentication.k8s.io/v1"

/-- The program. -/
def commandKey : Key String := .always "command"

/-- The arguments of the program. -/
def argsKey : Key (List String) := .list "args"

/-- What is added to the environment of the program. -/
def envKey : Key (List ExecVariable) := .list "env"

/-- The version of credentials that is asked for. -/
def apiVersionKey : Key String := .defaulting "apiVersion" defaultApiVersion

/-- The longest time that one run may take. -/
def timeoutKey : Key (Option Duration) := .optional "timeout"

instance : Documented ExecConfig where
  target := "ExecConfig"
  shape := .ofFields "ExecConfig" [commandKey.declared, argsKey.declared, envKey.declared,
    apiVersionKey.declared, timeoutKey.declared]
  ofValue v := ⟨commandKey.of v, argsKey.of v, envKey.of v, apiVersionKey.of v, timeoutKey.of v⟩
  toValue c := .record [commandKey.entry c.command, argsKey.entry c.args, envKey.entry c.env,
    apiVersionKey.entry c.apiVersion, timeoutKey.entry c.timeout]

end ExecConfig

/-- Where credentials come from. -/
inductive AuthConfig
  | none
  | token (token : String)
  | tokenFile (path : String)
  | exec (config : ExecConfig)
  deriving DecidableEq, Inhabited

namespace AuthConfig

/-- Tells the cases apart. -/
def tag : String := "type"

/-- A fixed token. -/
def tokenKey : Key String := .always "token"

/-- The path of a token file. -/
def pathKey : Key String := { (Key.always "path" : Key String) with shape := .path }

instance : Documented AuthConfig where
  target := "AuthConfig"
  shape := .tagged "AuthConfig" tag (.ofList [
    ("none", true, .ofFields "variant AuthConfig::None" []),
    ("token", true, .ofFields "variant AuthConfig::Token" [tokenKey.declared]),
    ("tokenFile", true, .ofFields "variant AuthConfig::TokenFile" [pathKey.declared]),
    ("exec", true, shape ExecConfig)])
  ofValue v :=
    match v.get? tag with
    | some (.string "token") => .token (tokenKey.of v)
    | some (.string "tokenFile") => .tokenFile (pathKey.of v)
    | some (.string "exec") => .exec (ofValue v)
    | _ => .none
  toValue
    | .none => .object [(tag, .string "none")]
    | .token t => .object [(tag, .string "token"), (tokenKey.name, .string t)]
    | .tokenFile p => .object [(tag, .string "tokenFile"), (pathKey.name, .string p)]
    | .exec c => .object ((tag, .string "exec") :: (toValue c).asMembers)

end AuthConfig
end KubeClient
