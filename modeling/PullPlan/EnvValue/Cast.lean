import PullPlan.EnvValue.Basic
import PullPlan.Json.Reader
import PullPlan.Number.Literal

/-!
# Casting a text to an environment value

The text after `=` is tried in order as nothing, a truth value, a number literal and a JSON text;
what is none of them stays text. Number literals come before JSON, so a JSON text that is a number
is never reached.
-/

namespace PullPlan

/-- The value that the text after `=` stands for. -/
def EnvValue.ofText (raw : Text) : EnvValue :=
  if raw.isEmpty then .absent
  else if raw = "true".toList then .bool true
  else if raw = "false".toList then .bool false
  else
    match Literal.number? raw with
    | some x => .number x
    | none =>
      match Json.ofText? raw with
      | some .null => .null
      | some (.bool b) => .bool b
      | some (.string t) => .text t
      | some value => .structured value
      | none => .text raw

end PullPlan
