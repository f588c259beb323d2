import PullPlan.Text.Blank
import PullPlan.Text.Digit
import PullPlan.Number.Double

/-!
# Number literals

The numeric texts of an environment line. Blank characters around a literal are ignored, and
nothing but them is the number zero. A literal is one of

* `0x`, `0o` or `0b` (or with a capital letter) and digits of the base, without a sign;
* `Infinity` after an optional sign;
* a decimal after an optional sign: digits with an optional point among or around them, and an
  optional exponent.

`Literal.number?` reads a literal and refuses everything else, `NaN` and `inf` among them.
-/

namespace PullPlan
namespace Literal

/-! ### Integers with a base mark -/

/-- The base that the mark at the front of a text announces, and what follows the mark. -/
def base? : Text → Option (Nat × Text)
  | '0' :: mark :: digits =>
    if mark = 'x' || mark = 'X' then some (16, digits)
    else if mark = 'o' || mark = 'O' then some (8, digits)
    else if mark = 'b' || mark = 'B' then some (2, digits)
    else none
  | _ => none

/-- Reads digits from the front, multiplying and adding in doubles: each of the two steps rounds. -/
def accumulate (base : Nat) : Magnitude → Text → Option Magnitude
  | m, [] => some m
  | m, c :: digits => do
    let digit ← digitValue? base c
    accumulate base ((m.mul (.ofNat base)).addNat digit) digits

/-- Reads a non-empty text of digits of a base. -/
def based? (base : Nat) (digits : Text) : Option Magnitude :=
  if digits.isEmpty then none else accumulate base .zero digits

/-! ### Decimals -/

/-- Reads a text of digits as an exponent, after an optional sign. -/
def signedExponent? : Text → Option Int
  | '+' :: digits => (Text.natural? digits).map Int.ofNat
  | '-' :: digits => (Text.natural? digits).map fun n => -(n : Int)
  | digits => (Text.natural? digits).map Int.ofNat

/-- Reads what follows the digits of a decimal: nothing, or an exponent. -/
def exponentPart? : Text → Option Int
  | [] => some 0
  | c :: rest => if c = 'e' || c = 'E' then signedExponent? rest else none

/-- Reads an unsigned decimal. -/
def decimal? (t : Text) : Option Magnitude :=
  let whole := t.takeWhile isAsciiDigit
  let (fraction, rest) := match t.dropWhile isAsciiDigit with
    | '.' :: rest => (rest.takeWhile isAsciiDigit, rest.dropWhile isAsciiDigit)
    | rest => ([], rest)
  if whole.isEmpty && fraction.isEmpty then none
  else
    (exponentPart? rest).map fun exponent =>
      .ofDecimal (Text.toNat (whole ++ fraction)) (exponent - fraction.length)

/-- Reads infinity or a decimal, unsigned. -/
def unsigned? (t : Text) : Option Magnitude :=
  if t = "Infinity".toList then some .infinity else decimal? t

/-! ### All literals -/

/-- Reads a literal without blank characters around it. -/
def trimmed? (t : Text) : Option Double :=
  match base? t with
  | some (base, digits) => (based? base digits).map (Double.mk false)
  | none =>
    match t with
    | '-' :: rest => (unsigned? rest).map (Double.mk true)
    | '+' :: rest => (unsigned? rest).map (Double.mk false)
    | _ => (unsigned? t).map (Double.mk false)

/-- The number that a text writes, if it is a literal; a blank text is zero. -/
def number? (t : Text) : Option Double :=
  let t := Text.trim t
  if t.isEmpty then some .zero else trimmed? t

end Literal
end PullPlan
