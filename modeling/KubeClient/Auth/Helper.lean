import KubeClient.Auth.Vault
import KubeClient.Codec.Registry
import KubeClient.Config.Auth

/-!
# Credentials from helpers

A helper is told what is asked for in its environment, and prints a credential.

* `HelperRequest`, `HelperResponse` : the two documents;
* `HelperRun` : what became of a run;
* `ExecConfig.credential` : the credential that a run has brought.
-/

namespace KubeClient

open Documented

/-- What a helper is told besides the version. -/
structure HelperSpec where
  interactive : Bool
  deriving DecidableEq, Inhabited

namespace HelperSpec

/-- The helper may ask questions. -/
def interactiveKey : Key Bool := .always "interactive"

instance : Documented HelperSpec where
  target := "ExecCredentialSpec"
  shape := .ofFields "ExecCredentialSpec" [interactiveKey.declared]
  ofValue v := ⟨interactiveKey.of v⟩
  toValue s := .record [interactiveKey.entry s.interactive]

end HelperSpec

/-- What a helper answers. -/
structure HelperStatus where
  expiry : Option (Timestamp .seconds)
  token : Option String
  certificate : Option String
  key : Option String
  deriving DecidableEq, Inhabited

namespace HelperStatus

/-- When the credential is no longer good. -/
def expiryKey : Key (Option (Timestamp .seconds)) := .optional "expirationTimestamp"

/-- The bearer token. -/
def tokenKey : Key (Option String) := .optional "token"

/-- The client certificate. -/
def certificateKey : Key (Option String) := .optional "clientCertificateData"

/-- The key of the client certificate. -/
def keyKey : Key (Option String) := .optional "clientKeyData"

instance : Documented HelperStatus where
  target := "ExecCredentialStatus"
  shape := .ofFields "ExecCredentialStatus" [expiryKey.declared, tokenKey.declared,
    certificateKey.declared, keyKey.declared]
  ofValue v := ⟨expiryKey.of v, tokenKey.of v, certificateKey.of v, keyKey.of v⟩
  toValue s := .record [expiryKey.entry s.expiry, tokenKey.entry s.token,
    certificateKey.entry s.certificate, keyKey.entry s.key]

end HelperStatus

/-- The document that goes to a helper and comes back. -/
structure HelperDocument where
  apiVersion : String
  kind : String
  spec : Option HelperSpec
  status : Option HelperStatus
  deriving DecidableEq, Inhabited

namespace HelperDocument

/-- The version of the document. -/
def apiVersionKey : Key String := .always "apiVersion"

/-- The kind, which a helper may leave out. -/
def kindKey : Key String := .defaulting "kind" ""

/-- What the helper is told. -/
def specKey : Key (Option HelperSpec) := .optional "spec"

/-- What the helper answers. -/
def statusKey : Key (Option HelperStatus) := .optional "status"

instance : Documented HelperDocument where
  target := "kbx::auth::exec::ExecCredential"
  shape := .ofFields "ExecCredential" [apiVersionKey.declared, kindKey.declared,
    specKey.declared, statusKey.declared]
  ofValue v := ⟨apiVersionKey.of v, kindKey.of v, specKey.of v, statusKey.of v⟩
  toValue d := .record [apiVersionKey.entry d.apiVersion, kindKey.entry d.kind,
    specKey.entry d.spec, statusKey.entry d.status]

end HelperDocument

/-- What became of a run. -/
inductive HelperRun
  /-- There is no such program. -/
  | notStarted (reason : String)
  /-- The program has run for so many nanoseconds; one that was killed has no code. -/
  | ended (code : Option Int) (stdout stderr : Bytes) (elapsed : Nat)
  deriving Inhabited

namespace ExecConfig

variable (c : ExecConfig)

/-- The longest time for a run if none is configured. -/
def defaultLimit : Span := ⟨60, 0⟩

/-- The longest time for a run. -/
def limit : Span :=
  (c.timeout.bind (·.toSpan?)).getD defaultLimit

/-- The variable that tells a helper what is asked for. -/
def requestVariable : String := "KUBERNETES_EXEC_INFO"

/-- The kind of the documents. -/
def documentKind : String := "ExecCredential"

/-- What the helper is told. -/
def request : HelperDocument :=
  ⟨c.apiVersion, documentKind, some ⟨false⟩, none⟩

/-- What is added to the helper's environment. -/
def environment : List (String × String) :=
  c.env.map (fun v => (v.name, v.value)) ++ [(requestVariable, Json.text (toValue c.request))]

/-- Nothing was printed that could be used. -/
def emptyOutput : AuthError :=
  .emptyCredential ("`" ++ c.command ++ "`")

/-- The credential in a status. -/
def ofStatus (s : HelperStatus) : Except AuthError Credential :=
  let token := s.token.getD ""
  let expiry := s.expiry.map (·.instant)
  match s.certificate, s.key with
  | some certificate, some key =>
    .ok { token, expiry, certificate := some certificate, key := some key }
  | none, none => if token.isEmpty then .error c.emptyOutput else .ok { token, expiry }
  | _, _ =>
    .error (.decodeFailed c.command
      "clientCertificateData and clientKeyData must be set together")

/-- The credential that was printed. -/
def ofOutput (stdout : Bytes) : Except AuthError Credential :=
  match (⟨MediaType.json, .json⟩ : Serializer).decode HelperDocument (Blank.trimBytes stdout) with
  | .error e => .error (.decodeFailed c.command e.message)
  | .ok none => .error c.emptyOutput
  | .ok (some d) =>
    if d.apiVersion ≠ c.apiVersion then
      .error (.decodeFailed c.command ("apiVersion " ++ Inspect.string d.apiVersion ++
        " does not match requested " ++ Inspect.string c.apiVersion))
    else match d.status with
      | none => .error (.decodeFailed c.command "missing status")
      | some s => c.ofStatus s

/-- The credential that a run has brought. -/
def credential (run : HelperRun) : Except AuthError Credential :=
  match run with
  | .notStarted reason => .error (.processFailed c.command none reason)
  | .ended code stdout stderr elapsed =>
    if c.limit.toNanos ≤ elapsed then .error (.timeout c.command c.limit)
    else if code = some 0 then c.ofOutput stdout
    else .error (.processFailed c.command code (Blank.trim (Utf8.decodeLossy stderr)))

/-- A credential is served until it expires. -/
def policy : Policy := fun issued now =>
  !issued.credential.isExpiredAt now.wall

end ExecConfig
end KubeClient
