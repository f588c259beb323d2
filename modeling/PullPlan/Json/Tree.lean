import PullPlan.Json.Numeral

/-!
# JSON trees

A JSON text is read in two steps: its tree, which is the text's structure alone, and its value.
Numbers out of range, lone surrogate escapes, malformed bytes inside strings and deep nesting are
all well formed as a tree and have no value, so that a reader who skips a field does not stumble
over what it holds.

`Tree.value?` gives the value of a tree; the keys of an object are sorted and the last entry of a
key stays.
-/

namespace PullPlan
namespace Json

/-- A piece of a string as it is written. -/
inductive Piece where
  /-- A character, plain or escaped. -/
  | char (c : Char)
  /-- One escaped half of a surrogate pair. -/
  | half (code : Nat)
  /-- A malformed stretch of bytes. -/
  | malformed
  deriving DecidableEq

/-- The structure of a JSON text. -/
inductive Tree where
  | null
  | bool (value : Bool)
  | number (numeral : Numeral)
  | string (pieces : List Piece)
  | array (items : List Tree)
  | object (members : List (List Piece × Tree))

instance : Inhabited Tree := ⟨.null⟩

/-! ### Strings -/

/-- Whether a code is the first half of a surrogate pair. -/
def isHighHalf (code : Nat) : Bool := 0xD800 ≤ code && code ≤ 0xDBFF

/-- Whether a code is the second half of a surrogate pair. -/
def isLowHalf (code : Nat) : Bool := 0xDC00 ≤ code && code ≤ 0xDFFF

/-- The character of a surrogate pair. -/
def joinHalves (high low : Nat) : Char :=
  Char.ofNat ((high - 0xD800) * 0x400 + (low - 0xDC00) + 0x10000)

/-- The text of a string: two halves in order are one character, and a string with a lone half or
with malformed bytes has no text. -/
def text? : List Piece → Option Text
  | [] => some []
  | .char c :: rest => (text? rest).map (c :: ·)
  | .half high :: .half low :: rest =>
    if isHighHalf high && isLowHalf low then (text? rest).map (joinHalves high low :: ·) else none
  | _ :: _ => none

/-! ### Values -/

namespace Tree

mutual

/-- The value of a tree, with at most the given number of arrays and objects inside each other. -/
def value? : Tree → Nat → Option Json
  | .null, _ => some .null
  | .bool b, _ => some (.bool b)
  | .number numeral, _ => numeral.value?
  | .string pieces, _ => (text? pieces).map .string
  | .array _, 0 => none
  | .array items, depth + 1 => (itemValues? items depth).map .array
  | .object _, 0 => none
  | .object members, depth + 1 =>
    (memberValues? members depth).map fun entries => .ofDict (Dict.ofList entries)

/-- The values of the items of an array. -/
def itemValues? : List Tree → Nat → Option (List Json)
  | [], _ => some []
  | item :: items, depth => do
    let value ← value? item depth
    let values ← itemValues? items depth
    return value :: values

/-- The entries of an object, in the order in which they are written. -/
def memberValues? : List (List Piece × Tree) → Nat → Option (List (Text × Json))
  | [], _ => some []
  | (key, item) :: members, depth => do
    let key ← text? key
    let value ← value? item depth
    let entries ← memberValues? members depth
    return (key, value) :: entries

end

end Tree

/-- How many arrays and objects may stand inside each other. -/
def depthLimit : Nat := 127

end Json
end PullPlan
