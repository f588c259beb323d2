import PullPlan.Number.Magnitude

/-!
# Doubles

A double is a sign and a magnitude, so there are two zeros. Numbers that are not a number do not
occur: no literal writes one and no operation of this library yields one.
-/

namespace PullPlan

/-- A double-precision number, infinite or finite. -/
structure Double where
  /-- Whether the sign is minus. -/
  negative : Bool
  /-- The absolute value. -/
  magnitude : Magnitude
  deriving DecidableEq

namespace Double

/-- Positive zero. -/
def zero : Double := ⟨false, .zero⟩

instance : Inhabited Double := ⟨zero⟩

/-- Whether the number is finite. -/
def isFinite (x : Double) : Bool := !x.magnitude.isInfinite

/-- The 64 bits of the number: the sign, then the rank of the magnitude. -/
def bits (x : Double) : Nat := (if x.negative then Nat.pow 2 63 else 0) + x.magnitude.rank

/-- The value as an integer, if it is one; both zeros are 0. -/
def toInt? (x : Double) : Option Int :=
  x.magnitude.toNat?.map fun n => if x.negative then -(n : Int) else n

end Double
end PullPlan
