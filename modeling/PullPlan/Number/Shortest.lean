import PullPlan.Number.Magnitude

/-!
# Shortest decimals

The shortest decimal of a double is on the coarsest decimal grid that has a point among the reals
which round to that double. On each grid only the two neighbours of the exact value can be the
first such points; of two that qualify the nearer one is taken, and from the middle the even one.
-/

namespace PullPlan

/-- A natural number times a power of ten. -/
structure Decimal where
  /-- The digits, as a number. -/
  digits : Nat
  /-- The power of ten. -/
  exponent : Int
  deriving DecidableEq, Repr

namespace Magnitude

/-- The numerator of the exact value over four times its denominator. In these quarters the ends
of the interval that rounds to the double are integers. -/
def quarters (m : Magnitude) : Nat := 4 * m.significand

/-- The lower end of the interval in quarters of a unit in the last place. Just above a power of
two the next lower double is half as far away. -/
def lowerQuarters (m : Magnitude) : Nat :=
  if m.rank % binadeSize = 0 ∧ 2 * binadeSize ≤ m.rank then m.quarters - 1 else m.quarters - 2

/-- The upper end of the interval in quarters of a unit in the last place. -/
def upperQuarters (m : Magnitude) : Nat := m.quarters + 2

/-- The point of the grid `10^k` that stands for a positive double: the neighbour of its value on
the grid that rounds back to it. -/
def gridPoint? (m : Magnitude) (k : Int) : Option Nat :=
  -- A quarter is `2^scale`; comparing `point * 10^k` with `quarters * 2^scale` clears fractions.
  let scale := m.exponent - 2
  let perPoint := Nat.pow 10 k.toNat * Nat.pow 2 (-scale).toNat
  let perQuarter := Nat.pow 2 scale.toNat * Nat.pow 10 (-k).toNat
  let value := m.quarters * perQuarter
  let endsCount := m.significand % 2 == 0
  let roundsBack (point : Nat) : Bool :=
    let low := m.lowerQuarters * perQuarter
    let high := m.upperQuarters * perQuarter
    if endsCount then low ≤ point * perPoint && point * perPoint ≤ high
    else low < point * perPoint && point * perPoint < high
  let below := value / perPoint
  let above := below + 1
  match roundsBack below, roundsBack above with
  | true, true =>
    let toBelow := value - below * perPoint
    let toAbove := above * perPoint - value
    if toBelow < toAbove || (toBelow == toAbove && below % 2 == 0) then some below else some above
  | true, false => some below
  | false, true => some above
  | false, false => none

/-- The shortest decimal that rounds to a positive finite double; the grids run from `10^309`
down to `10^-330`. -/
def shortest (m : Magnitude) : Decimal :=
  let found? := (List.range 640).findSome? fun (i : Nat) =>
    (m.gridPoint? (309 - i)).map fun point => Decimal.mk point (309 - i)
  found?.getD ⟨0, 0⟩

end Magnitude
end PullPlan
