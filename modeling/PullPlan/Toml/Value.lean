import PullPlan.Text.Basic

/-!
# TOML values

A document is a table. Nothing in this library looks inside floats and dates, so they carry no
value; a table keeps its entries in the order in which they are written.
-/

namespace PullPlan
namespace Toml

/-- A TOML value. -/
inductive Value where
  | string (value : Text)
  | integer (value : Int)
  | float
  | boolean (value : Bool)
  | date
  | array (items : List Value)
  | table (entries : List (Text × Value))

instance : Inhabited Value := ⟨.table []⟩

end Toml
end PullPlan
