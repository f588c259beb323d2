import PullPlan.Dict
import PullPlan.Number.Double

/-!
# JSON values

A JSON number is an integer or a double: which of the two is decided by how it is written, so `1`
and `1.0` are different values and are printed differently. An object keeps its entries in the
order in which they are printed; what the reader yields is sorted by key.
-/

namespace PullPlan

/-- A JSON value. -/
inductive Json where
  | null
  | bool (value : Bool)
  | integer (value : Int)
  | float (value : Double)
  | string (value : Text)
  | array (items : List Json)
  | object (entries : List (Text × Json))

namespace Json

instance : Inhabited Json := ⟨.null⟩

/-- The array of some texts. -/
def ofTexts (texts : List Text) : Json := .array (texts.map .string)

/-- The object of a dictionary. -/
def ofDict (d : Dict Json) : Json := .object d.entries

/-- A text, or `null` for none. -/
def textOrNull : Option Text → Json
  | some t => .string t
  | none => .null

/-- A truth value, or `null` for none. -/
def boolOrNull : Option Bool → Json
  | some b => .bool b
  | none => .null

end Json
end PullPlan
