import KubeClient.Object.Meta

/-!
# Objects

* `ConfigMap` : named texts;
* `Widget` : a custom object with a field for every kind of scalar.

Both are types of a user of the client, so it is for the user to say where they are defined.

* `Home` : the path in front of their names.
-/

namespace KubeClient

/-- Where the types of objects are defined. -/
class Home where
  /-- The path that messages put in front of the name of a type. -/
  path : String

/-- An object that holds named texts. -/
structure ConfigMap where
  metadata : ObjectMeta
  data : NameMap String
  deriving DecidableEq, Inhabited

namespace ConfigMap

/-- What every object has. -/
def metadataKey : Key ObjectMeta := .always "metadata"

/-- Always written. -/
def dataKey : Key (NameMap String) := .defaulting "data" .empty

instance [Home] : Documented ConfigMap where
  target := Home.path ++ "::ConfigMap"
  shape := .ofFields "ConfigMap" [metadataKey.declared, dataKey.declared]
  ofValue v := ⟨metadataKey.of v, dataKey.of v⟩
  toValue c := .record [metadataKey.entry c.metadata, dataKey.entry c.data]

end ConfigMap

/-- A custom object with a field for every kind of scalar. -/
structure Widget where
  port : Option IntOrString
  cpu : Option Quantity
  period : Option Duration
  at_ : Option (Timestamp .seconds)
  microAt : Option (Timestamp .micros)
  policy : Option PropagationPolicy
  limits : List Quantity
  deriving Inhabited

namespace Widget

/-- A number or a name. -/
def portKey : Key (Option IntOrString) := .optional "port"

/-- An amount. -/
def cpuKey : Key (Option Quantity) := .optional "cpu"

/-- A span. -/
def periodKey : Key (Option Duration) := .optional "period"

/-- A second. -/
def atKey : Key (Option (Timestamp .seconds)) := .optional "at"

/-- A microsecond. -/
def microAtKey : Key (Option (Timestamp .micros)) := .optional "microAt"

/-- A token. -/
def policyKey : Key (Option PropagationPolicy) := .optional "policy"

/-- Amounts. -/
def limitsKey : Key (List Quantity) := .list "limits"

instance [Home] : Documented Widget where
  target := Home.path ++ "::Widget"
  shape := .ofFields "Widget" [portKey.declared, cpuKey.declared, periodKey.declared,
    atKey.declared, microAtKey.declared, policyKey.declared, limitsKey.declared]
  ofValue v := {
    port := portKey.of v
    cpu := cpuKey.of v
    period := periodKey.of v
    at_ := atKey.of v
    microAt := microAtKey.of v
    policy := policyKey.of v
    limits := limitsKey.of v }
  toValue w := .record [portKey.entry w.port, cpuKey.entry w.cpu, periodKey.entry w.period,
    atKey.entry w.at_, microAtKey.entry w.microAt, policyKey.entry w.policy,
    limitsKey.entry w.limits]

end Widget
end KubeClient
