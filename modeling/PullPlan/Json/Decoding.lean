import PullPlan.Json.Reader

/-!
# Decoding JSON trees

Readers for what a tree is expected to hold. A record is written as an object, where unknown fields
are skipped and a known one may stand only once, or as an array of its fields in order; fields at
the end of such an array may be left out. A field that is skipped is never given a value.
-/

namespace PullPlan
namespace Json
namespace Tree

/-- The text of a string. -/
def text? : Tree → Option Text
  | .string pieces => Json.text? pieces
  | _ => none

/-- A natural number below 2^64. -/
def natural? : Tree → Option Nat
  | .number numeral =>
    match numeral.value? with
    | some (.integer (.ofNat n)) => some n
    | _ => none
  | _ => none

/-- The items of an array, each decoded. -/
def list? {α : Type} (decode? : Tree → Option α) : Tree → Option (List α)
  | .array items => items.mapM decode?
  | _ => none

/-- Something that may be `null`. -/
def nullable? {α : Type} (decode? : Tree → Option α) : Tree → Option (Option α)
  | .null => some none
  | tree => (decode? tree).map some

/-- The members of an object with their keys as texts. -/
def members? : Tree → Option (List (Text × Tree))
  | .object members => members.mapM fun member =>
    (Json.text? member.1).map fun key => (key, member.2)
  | _ => none

/-- The value of the only member with a key; `none` inside if there is no such member, and `none`
if there are several. -/
def only? (key : Text) (members : List (Text × Tree)) : Option (Option Tree) :=
  match members.filter fun member => member.1 = key with
  | [] => some none
  | [member] => some (some member.2)
  | _ => none

/-- The fields of a record, in the order of their names. -/
def fields? (names : List Text) : Tree → Option (List (Option Tree))
  | .array items =>
    if names.length < items.length then none
    else some (items.map some ++ List.replicate (names.length - items.length) none)
  | tree => do
    let members ← members? tree
    names.mapM fun name => only? name members

end Tree
end Json
end PullPlan
