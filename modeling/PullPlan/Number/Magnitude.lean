import PullPlan.Text.Basic

/-!
# Magnitudes of doubles

The non-negative doubles, infinity included, are numbered in ascending order: number 0 is zero,
number 1 is 2^-1074, and the number of infinity is `2047 * 2^52`. That number, the `rank`, is also
the bit pattern without its sign. Rank `e * 2^52 + f` with `f < 2^52` has the significand
`2^52 + f` and the exponent `e - 1075`, and with `e = 0` the significand `f` and the exponent
`-1074`.

All arithmetic is exact in natural numbers and rounds once, to the nearest double and from the
middle between two to the one with the even significand (`Magnitude.ofRatio`).
-/

namespace PullPlan

/-- Two to the power of 52, the number of doubles that share an exponent. -/
def binadeSize : Nat := Nat.pow 2 52

/-- The rank of infinity. -/
def infinityRank : Nat := 2047 * binadeSize

/-- A non-negative double, by its place in the ascending order of all of them. -/
structure Magnitude where
  /-- How many non-negative doubles are smaller. -/
  rank : Nat
  /-- Infinity is the largest. -/
  rank_le : rank ≤ infinityRank
  deriving DecidableEq

/-- The quotient of two naturals to the nearest natural, a half to the even neighbour. -/
def roundDiv (numerator denominator : Nat) : Nat :=
  let quotient := numerator / denominator
  let remainder := numerator % denominator
  if 2 * remainder < denominator || (2 * remainder == denominator && quotient % 2 == 0) then
    quotient
  else quotient + 1

/-- The exponent of the largest power of two that is at most the quotient of two positive
naturals. -/
def floorLog2 (numerator denominator : Nat) : Int :=
  let guess : Int := numerator.log2 - denominator.log2
  if numerator * Nat.pow 2 (-guess).toNat < denominator * Nat.pow 2 guess.toNat then guess - 1
  else guess

namespace Magnitude

/-- The number zero. -/
def zero : Magnitude := ⟨0, Nat.zero_le _⟩

/-- Infinity. -/
def infinity : Magnitude := ⟨infinityRank, Nat.le_refl _⟩

instance : Inhabited Magnitude := ⟨zero⟩

/-- Whether the magnitude is infinite. -/
def isInfinite (m : Magnitude) : Bool := m.rank == infinityRank

/-- The integer `s` of the form `s * 2^e`. -/
def significand (m : Magnitude) : Nat :=
  if m.rank < binadeSize then m.rank else binadeSize + m.rank % binadeSize

/-- The exponent `e` of the form `s * 2^e`. -/
def exponent (m : Magnitude) : Int := (max 1 (m.rank / binadeSize) : Nat) - 1075

/-- The numerator of the exact value. -/
def numerator (m : Magnitude) : Nat := m.significand * Nat.pow 2 m.exponent.toNat

/-- The denominator of the exact value. -/
def denominator (m : Magnitude) : Nat := Nat.pow 2 (-m.exponent).toNat

/-- The double nearest to the quotient of two naturals, a half to the even significand. What
rounds beyond the largest finite double is infinite. -/
def ofRatio (numerator denominator : Nat) : Magnitude :=
  if numerator = 0 then zero
  else
    let grid : Int := max (-1074) (floorLog2 numerator denominator - 52)
    let significand :=
      roundDiv (numerator * Nat.pow 2 (-grid).toNat) (denominator * Nat.pow 2 grid.toNat)
    ⟨min ((grid + 1074).toNat * binadeSize + significand) infinityRank, Nat.min_le_right _ _⟩

/-- The double nearest to a natural number. -/
def ofNat (n : Nat) : Magnitude := ofRatio n 1

/-- The product, rounded once. -/
def mul (a b : Magnitude) : Magnitude :=
  if a.isInfinite || b.isInfinite then infinity
  else ofRatio (a.numerator * b.numerator) (a.denominator * b.denominator)

/-- The quotient by a positive finite double, rounded once. -/
def div (a b : Magnitude) : Magnitude :=
  if a.isInfinite then infinity
  else ofRatio (a.numerator * b.denominator) (a.denominator * b.numerator)

/-- The sum with a natural number, rounded once. -/
def addNat (a : Magnitude) (n : Nat) : Magnitude :=
  if a.isInfinite then infinity else ofRatio (a.numerator + n * a.denominator) a.denominator

/-- The double nearest to a power of ten. -/
def powerOfTen (n : Nat) : Magnitude := ofNat (Nat.pow 10 n)

/-- The double nearest to `digits * 10^exponent`. A number of `length` digits lies between
`10^(length + exponent - 1)` and `10^(length + exponent)`, so one that is far out of range is
settled without raising ten to the power. -/
def ofDecimal (digits : Nat) (exponent : Int) : Magnitude :=
  if digits = 0 then zero
  else
    let top := exponent + (Nat.toDigits 10 digits).length
    if 310 < top then infinity
    else if top < -324 then zero
    else ofRatio (digits * Nat.pow 10 exponent.toNat) (Nat.pow 10 (-exponent).toNat)

/-- The value as a natural number, if it is one. -/
def toNat? (m : Magnitude) : Option Nat :=
  if m.isInfinite || m.numerator % m.denominator != 0 then none
  else some (m.numerator / m.denominator)

end Magnitude
end PullPlan
