import PullPlan.Json.Basic
import PullPlan.Text.Digit

/-!
# JSON numerals

A numeral is split into its parts when it is read, and given a value only when the value is asked
for: a numeral that is out of range does no harm in a place that nobody looks at.

`Numeral.value?` is not correctly rounded. The digits are collected into a 64-bit word, digits that
no longer fit are dropped, the word is rounded to a double, and the double is multiplied or divided
by one power of ten, which rounds again.
-/

namespace PullPlan
namespace Json

/-- The parts of a number as it is written. -/
structure Numeral where
  /-- Whether a minus sign stands in front. -/
  negative : Bool
  /-- The digits before the point. -/
  whole : Text
  /-- The digits after the point; empty without a point. -/
  fraction : Text
  /-- The exponent, if one is written. -/
  exponent : Option Int
  deriving DecidableEq

namespace Numeral

/-! ### Reading -/

/-- Reads the exponent of a numeral, or nothing. -/
def exponentPart? : Text → Option (Option Int)
  | [] => some none
  | e :: rest =>
    if e = 'e' || e = 'E' then
      match rest with
      | '+' :: digits => (Text.natural? digits).map fun n => some n
      | '-' :: digits => (Text.natural? digits).map fun n => some (-n)
      | digits => (Text.natural? digits).map fun n => some n
    else none

/-- Reads what follows the sign. -/
def unsigned? (negative : Bool) (t : Text) : Option Numeral :=
  let whole := t.takeWhile isAsciiDigit
  if whole.isEmpty || (whole.head? = some '0' && 1 < whole.length) then none
  else
    match t.dropWhile isAsciiDigit with
    | '.' :: rest =>
      let fraction := rest.takeWhile isAsciiDigit
      if fraction.isEmpty then none
      else (exponentPart? (rest.dropWhile isAsciiDigit)).map (Numeral.mk negative whole fraction)
    | rest => (exponentPart? rest).map (Numeral.mk negative whole [])

/-- Reads a numeral: an optional minus sign, digits without a leading zero, an optional fraction
and an optional exponent. -/
def ofText? : Text → Option Numeral
  | '-' :: rest => unsigned? true rest
  | t => unsigned? false t

/-! ### The value -/

/-- Appends digits to a number while it stays a word; also counts the digits appended. -/
def collect (n : Nat) : Text → Nat × Nat
  | [] => (n, 0)
  | c :: digits =>
    let next := 10 * n + (c.toNat - '0'.toNat)
    if next < wordBound then
      let (total, count) := collect next digits
      (total, count + 1)
    else (n, 0)

/-- The largest power of ten that is a finite double. -/
def topPower : Nat := 308

/-- Divides by a power of ten; a power that is no double is divided off in steps, until nothing
is left. -/
def shrink (m : Magnitude) (power : Nat) : Magnitude :=
  if power ≤ topPower then m.div (.powerOfTen power)
  else if m.rank = 0 then m
  else shrink (m.div (.powerOfTen topPower)) (power - topPower)
termination_by power
decreasing_by
  have : 0 < topPower := by decide
  omega

/-- Multiplies by a power of ten; overflow is refused. -/
def grow? (m : Magnitude) (power : Nat) : Option Magnitude :=
  if power ≤ topPower then
    let product := m.mul (.powerOfTen power)
    if product.isInfinite then none else some product
  else if m.rank = 0 then some m
  else none

/-- Scales a double by a power of ten. -/
def scale? (m : Magnitude) : Int → Option Magnitude
  | .ofNat power => grow? m power
  | .negSucc power => some (shrink m (power + 1))

/-- The value of a numeral. Without fraction and exponent it is an integer if it fits a word, an
unsigned one or a signed one below zero; a zero with a minus sign is a double. Everything else is
a double, and one that overflows has no value. -/
def value? (n : Numeral) : Option Json :=
  let (front, frontCount) := collect 0 n.whole
  let isInteger := n.fraction.isEmpty && n.exponent.isNone && frontCount == n.whole.length
  if isInteger && !n.negative then some (.integer front)
  else if isInteger && 0 < front && front ≤ signedBound then some (.integer (-front))
  else
    let (total, backCount) := collect front n.fraction
    let exponent : Int := (n.whole.length - frontCount : Nat) - backCount + n.exponent.getD 0
    (scale? (.ofNat total) exponent).map fun m => .float ⟨n.negative, m⟩

end Numeral
end Json
end PullPlan
