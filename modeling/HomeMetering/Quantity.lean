import HomeMetering.Decimal.Binary

/-!
# Quantities

Counters, prices and conversions are written once over any type of numbers. Doubles are what runs;
fractions take their place in a statement about exact amounts of energy or money.
-/

namespace HomeMetering

/-- Numbers that a counter or a price is made of. -/
class Quantity (K : Type) extends Add K, Sub K, Mul K, Div K where
  /-- What a counter shows that was never read. -/
  zero : K
  /-- The sum of no values. -/
  noSum : K
  /-- The number nearest to an integer. -/
  ofInt : Int → K
  /-- The number that a double stands for. -/
  ofDouble : Float → K
  /-- Whether a number is zero, of either sign. -/
  isZero : K → Bool
  /-- Whether the first number is below the second. -/
  less : K → K → Bool

namespace Quantity

variable {K : Type} [Quantity K]

/-- The sum of a list, from the left. -/
def total (xs : List K) : K := xs.foldl (· + ·) noSum

end Quantity

/-- Sums of doubles start at minus zero, which leaves every summand as it is. -/
instance : Quantity Float where
  zero := 0.0
  noSum := -0.0
  ofInt n := Decimal.Binary.doubleOfInt n
  ofDouble x := x
  isZero x := x == 0.0
  less x y := x < y

/-- Fractions are exact. -/
instance : Quantity Rat where
  add := Rat.add
  sub := Rat.sub
  mul := Rat.mul
  div := Rat.div
  zero := Rat.ofInt 0
  noSum := Rat.ofInt 0
  ofInt := Rat.ofInt
  ofDouble := Decimal.Binary.fractionOf
  isZero x := x.num = 0
  less := Rat.blt

end HomeMetering
