import PullPlan.Json.Basic
import PullPlan.Number.Shortest

/-!
# Printing JSON

Two layouts of one text: `Json.compact` writes no blank, `Json.pretty` puts each item and entry on
a line of its own, indented by two spaces per level. Doubles are written with the shortest digits
that read back.
-/

namespace PullPlan
namespace Json

/-! ### Numbers -/

/-- Doubles from ten to the power of `-5` are written without an exponent. -/
def positionalFrom : Int := -5

/-- Doubles below ten to the power of `16` are written without an exponent. -/
def positionalBelow : Int := 16

/-- A run of zeros. -/
def zeros (n : Nat) : Text := List.replicate n '0'

/-- The text of a decimal: positional with a point in the middle range, with a signed exponent
outside of it. -/
def decimalText (d : Decimal) : Text :=
  let digits := Text.ofNat d.digits
  -- The value is `0.digits * 10^point`.
  let point : Int := digits.length + d.exponent
  let leading := point - 1
  if positionalFrom ≤ leading && leading < positionalBelow then
    if 0 ≤ d.exponent then digits ++ zeros d.exponent.toNat ++ ".0".toList
    else if 0 < point then digits.take point.toNat ++ '.' :: digits.drop point.toNat
    else "0.".toList ++ zeros (-point).toNat ++ digits
  else
    let sign := if leading < 0 then '-' else '+'
    let fraction := if digits.length ≤ 1 then [] else '.' :: digits.drop 1
    digits.take 1 ++ fraction ++ 'e' :: sign :: Text.ofNat leading.natAbs

/-- The text of a finite double. Zero keeps its sign and has a point. -/
def floatText (x : Double) : Text :=
  let sign := if x.negative then ['-'] else []
  if x.magnitude.rank = 0 then sign ++ "0.0".toList
  else sign ++ decimalText x.magnitude.shortest

/-- The text of an integer. -/
def integerText (i : Int) : Text :=
  if i < 0 then '-' :: Text.ofNat i.natAbs else Text.ofNat i.natAbs

/-! ### Strings -/

/-- The hexadecimal digit of a number below sixteen, in small letters. -/
def hexDigit (n : Nat) : Char := Nat.digitChar n

/-- One character inside quotes. Quotes, backslashes and the control characters below U+0020 are
escaped, with a letter where there is one. -/
def escapeChar (c : Char) : Text :=
  if c = '"' then "\\\"".toList
  else if c = '\\' then "\\\\".toList
  else if c = '\x08' then "\\b".toList
  else if c = '\t' then "\\t".toList
  else if c = '\n' then "\\n".toList
  else if c = '\x0c' then "\\f".toList
  else if c = '\r' then "\\r".toList
  else if c.toNat < 0x20 then
    "\\u00".toList ++ [hexDigit (c.toNat / 16), hexDigit (c.toNat % 16)]
  else [c]

/-- A text in quotes. -/
def quote (t : Text) : Text := '"' :: t.flatMap escapeChar ++ ['"']

/-! ### Layouts -/

mutual

/-- The text without blanks. -/
def compact : Json → Text
  | .null => "null".toList
  | .bool true => "true".toList
  | .bool false => "false".toList
  | .integer i => integerText i
  | .float x => floatText x
  | .string t => quote t
  | .array [] => "[]".toList
  | .array (item :: items) => '[' :: compact item ++ compactItems items
  | .object [] => "\x7b\x7d".toList
  | .object ((key, value) :: entries) =>
    '\x7b' :: quote key ++ ':' :: compact value ++ compactEntries entries

/-- The further items of an array, and its end. -/
def compactItems : List Json → Text
  | [] => [']']
  | item :: items => ',' :: compact item ++ compactItems items

/-- The further entries of an object, and its end. -/
def compactEntries : List (Text × Json) → Text
  | [] => ['\x7d']
  | (key, value) :: entries =>
    ',' :: quote key ++ ':' :: compact value ++ compactEntries entries

end

/-- A line end and the indentation of a level. -/
def newLine (level : Nat) : Text := '\n' :: List.replicate (2 * level) ' '

mutual

/-- The text with one line for each item and entry; the value stands at the given level. -/
def prettyAt : Json → Nat → Text
  | .null, _ => "null".toList
  | .bool true, _ => "true".toList
  | .bool false, _ => "false".toList
  | .integer i, _ => integerText i
  | .float x, _ => floatText x
  | .string t, _ => quote t
  | .array [], _ => "[]".toList
  | .array (item :: items), level =>
    '[' :: newLine (level + 1) ++ prettyAt item (level + 1) ++ prettyItems items level
  | .object [], _ => "\x7b\x7d".toList
  | .object ((key, value) :: entries), level =>
    '\x7b' :: newLine (level + 1) ++ quote key ++ ": ".toList ++ prettyAt value (level + 1)
      ++ prettyEntries entries level

/-- The further items of an array that stands at the given level, and its end. -/
def prettyItems : List Json → Nat → Text
  | [], level => newLine level ++ [']']
  | item :: items, level =>
    ',' :: newLine (level + 1) ++ prettyAt item (level + 1) ++ prettyItems items level

/-- The further entries of an object that stands at the given level, and its end. -/
def prettyEntries : List (Text × Json) → Nat → Text
  | [], level => newLine level ++ ['\x7d']
  | (key, value) :: entries, level =>
    ',' :: newLine (level + 1) ++ quote key ++ ": ".toList ++ prettyAt value (level + 1)
      ++ prettyEntries entries level

end

/-- The text with one line for each item and entry. -/
def pretty (value : Json) : Text := prettyAt value 0

end Json
end PullPlan
