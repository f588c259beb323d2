import PullPlan.Json.Basic

/-!
# Environment values

What a `CYPRESS_NAME=value` line assigns. A variable may be declared without a value; such an
absent value is kept in a plan and leaves a runner configuration alone, while `null` is a value.
-/

namespace PullPlan

/-- The value of an environment variable. -/
inductive EnvValue where
  /-- Declared without a value. -/
  | absent
  /-- The value `null`. -/
  | null
  /-- A truth value. -/
  | bool (value : Bool)
  /-- A number. -/
  | number (value : Double)
  /-- A JSON array or object. -/
  | structured (value : Json)
  /-- A text. -/
  | text (value : Text)

/-- The variables of a plan with their values. -/
abbrev Environment := Dict EnvValue

namespace EnvValue

instance : Inhabited EnvValue := ⟨.absent⟩

/-- Whether no value is given. -/
def isAbsent : EnvValue → Bool
  | .absent => true
  | _ => false

/-- Integers up to this bound, 2^53, exclusive, are all doubles. -/
def exactBound : Nat := Nat.pow 2 53

/-- A number as JSON: whole numbers below 2^53 are integers, so that `1` does not become `1.0`, and
an infinite number is `null`. -/
def numberJson (x : Double) : Json :=
  match x.toInt? with
  | some i => if i.natAbs < exactBound then .integer i else .float x
  | none => if x.isFinite then .float x else .null

/-- The value as JSON, unless it is absent. -/
def toJson? : EnvValue → Option Json
  | .absent => none
  | .null => some .null
  | .bool b => some (.bool b)
  | .number x => some (numberJson x)
  | .structured value => some value
  | .text t => some (.string t)

end EnvValue

end PullPlan
