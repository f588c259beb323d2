import PullPlan.Dict
import PullPlan.Toml.Value

/-!
# Decoding TOML values

Readers for the parts of a record. A record is written as a table, by the names of its fields, or
as an array, by their positions; what has no field is skipped.
-/

namespace PullPlan
namespace Toml
namespace Value

/-- A text. -/
def text? : Value → Option Text
  | .string t => some t
  | _ => none

/-- An integer that is not negative. -/
def natural? : Value → Option Nat
  | .integer i => if 0 ≤ i then some i.toNat else none
  | _ => none

/-- A truth value. -/
def bool? : Value → Option Bool
  | .boolean b => some b
  | _ => none

/-- A list of values of one kind. -/
def list? {α : Type} (decode? : Value → Option α) : Value → Option (List α)
  | .array items => items.mapM decode?
  | _ => none

/-- Whether a value can be read as a record. A date is one without any field. -/
def isRecord : Value → Bool
  | .table _ => true
  | .array _ => true
  | .date => true
  | _ => false

/-- The value of a field, by its position and its name. -/
def member? (position : Nat) (name : Text) : Value → Option Value
  | .table entries => Dict.lookup name entries
  | .array items => items[position]?
  | _ => none

/-- Reads a field that may be missing. -/
def field? {α : Type} (missing : α) (decode? : Value → Option α) (position : Nat) (name : Text)
    (value : Value) : Option α :=
  match value.member? position name with
  | none => some missing
  | some inner => decode? inner

end Value
end Toml
end PullPlan
