import KubeClient.Document.Documented
import KubeClient.Text.Blank
import KubeClient.Text.Utf8

/-!
# Outcomes reported by the server

* `Status` : an outcome with its code, reason and message;
* `Status.synthesize` : the failure that stands for a body which is no status;
* `Status.exitCode?` : the exit code of a remote process;
* `Status.text` : the sentence shown to a user.
-/

namespace KubeClient

open Documented

/-- One cause of a failure. -/
structure StatusCause where
  reason : String
  message : String
  field : String
  deriving DecidableEq, Inhabited

namespace StatusCause

/-- For programs, such as `ExitCode`. -/
def reasonKey : Key String := .text "reason"

/-- For people. -/
def messageKey : Key String := .text "message"

/-- The field that is at fault. -/
def fieldKey : Key String := .text "field"

instance : Documented StatusCause where
  target := "StatusCause"
  shape := .ofFields "StatusCause" [reasonKey.declared, messageKey.declared, fieldKey.declared]
  ofValue v := ⟨reasonKey.of v, messageKey.of v, fieldKey.of v⟩
  toValue c := .record [reasonKey.entry c.reason, messageKey.entry c.message,
    fieldKey.entry c.field]

end StatusCause

/-- What a failure is about. -/
structure StatusDetails where
  name : String
  group : String
  kind : String
  uid : String
  causes : List StatusCause
  retryAfterSeconds : Option UInt32
  deriving DecidableEq, Inhabited

namespace StatusDetails

/-- The name of the object. -/
def nameKey : Key String := .text "name"

/-- The group of the object. -/
def groupKey : Key String := .text "group"

/-- The kind of the object. -/
def kindKey : Key String := .text "kind"

/-- The identity of the object. -/
def uidKey : Key String := .text "uid"

/-- The single causes. -/
def causesKey : Key (List StatusCause) := .list "causes"

/-- How long to wait before another attempt. -/
def retryAfterSecondsKey : Key (Option UInt32) := .optional "retryAfterSeconds"

instance : Documented StatusDetails where
  target := "StatusDetails"
  shape := .ofFields "StatusDetails" [nameKey.declared, groupKey.declared, kindKey.declared,
    uidKey.declared, causesKey.declared, retryAfterSecondsKey.declared]
  ofValue v := {
    name := nameKey.of v
    group := groupKey.of v
    kind := kindKey.of v
    uid := uidKey.of v
    causes := causesKey.of v
    retryAfterSeconds := retryAfterSecondsKey.of v }
  toValue d := .record [nameKey.entry d.name, groupKey.entry d.group, kindKey.entry d.kind,
    uidKey.entry d.uid, causesKey.entry d.causes,
    retryAfterSecondsKey.entry d.retryAfterSeconds]

end StatusDetails

/-- An outcome reported by the server. -/
structure Status where
  phase : Option StatusPhase
  code : UInt16
  reason : String
  message : String
  details : Option StatusDetails
  deriving DecidableEq, Inhabited

namespace Status

/-- Success or failure. -/
def phaseKey : Key (Option StatusPhase) := .optional "status"

/-- The response code that goes with the outcome. -/
def codeKey : Key UInt16 := .omitting "code" 0

/-- For programs, such as `NotFound`. -/
def reasonKey : Key String := .text "reason"

/-- For people. -/
def messageKey : Key String := .text "message"

/-- What a failure is about. -/
def detailsKey : Key (Option StatusDetails) := .optional "details"

instance : Documented Status where
  target := "kbx_proto::meta::Status"
  shape := .ofFields "Status" [phaseKey.declared, codeKey.declared, reasonKey.declared,
    messageKey.declared, detailsKey.declared]
  ofValue v := ⟨phaseKey.of v, codeKey.of v, reasonKey.of v, messageKey.of v, detailsKey.of v⟩
  toValue s := .record [phaseKey.entry s.phase, codeKey.entry s.code, reasonKey.entry s.reason,
    messageKey.entry s.message, detailsKey.entry s.details]

/-- A success. -/
def succeeded : Status :=
  { (default : Status) with phase := some .success }

/-- A failure. -/
def failure (code : UInt16) (reason message : String) : Status :=
  ⟨some .failure, code, reason, message, none⟩

/-- The reason that goes with a response code. -/
def reasonFor (code : Nat) : String :=
  match code with
  | 400 => "BadRequest"
  | 401 => "Unauthorized"
  | 403 => "Forbidden"
  | 404 => "NotFound"
  | 405 => "MethodNotAllowed"
  | 406 => "NotAcceptable"
  | 409 => "Conflict"
  | 410 => "Expired"
  | 413 => "RequestEntityTooLarge"
  | 415 => "UnsupportedMediaType"
  | 422 => "Invalid"
  | 429 => "TooManyRequests"
  | 500 => "InternalError"
  | 503 => "ServiceUnavailable"
  | 504 => "Timeout"
  | _ => "Unknown"

/-- The most characters of a body that are kept as a message. -/
def maxMessage : Nat := 1024

/-- The message for a body that is no status. -/
def bodyMessage (code : UInt16) (body : Bytes) : String :=
  match Blank.trimChars (Utf8.decodeLossyChars body) with
  | [] => s!"unexpected response status {code.toNat}"
  | cs => String.ofList (cs.take maxMessage)

/-- The failure that stands for a body which is no status. -/
def synthesize (code : UInt16) (body : Bytes) : Status :=
  failure code (reasonFor code.toNat) (bodyMessage code body)

/-- The outcome is a success. -/
def isSuccess (s : Status) : Bool :=
  s.phase == some .success

/-- The exit code of a remote process: zero for a success, or the one in the causes. -/
def exitCode? (s : Status) : Option Int :=
  if s.isSuccess then some 0
  else if s.reason ≠ "NonZeroExitCode" then none
  else do
    let cause ← (← s.details).causes.find? fun c => c.reason == "ExitCode"
    Numeral.toInt? 32 cause.message.toList

/-- The sentence shown to a user. -/
def text (s : Status) : String :=
  match s.reason.isEmpty, s.message.isEmpty with
  | false, false => s!"{s.reason} ({s.code.toNat}): {s.message}"
  | false, true => s!"{s.reason} ({s.code.toNat})"
  | true, false => s!"{s.message} ({s.code.toNat})"
  | true, true => s!"status {s.code.toNat}"

end Status
end KubeClient
