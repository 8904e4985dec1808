/-!
# Rejected scalar text

A scalar that travels as a string is refused with its kind, the text itself and the reason.
-/

namespace KubeClient

/-- The text `input` is no scalar of this `kind`. -/
structure ScalarError where
  kind : String
  input : String
  reason : String
  deriving DecidableEq, Repr, Inhabited

/-- The sentence shown to a user. -/
def ScalarError.message (e : ScalarError) : String :=
  s!"invalid {e.kind} `{e.input}`: {e.reason}"

end KubeClient
