import HomeMetering.Decimal.Shortest

/-!
# Decimals with a fixed number of places

The exact value is rounded to the nearest decimal with that many places, a half to the even one.
-/

namespace HomeMetering.Decimal

open Binary

/-- A count of `10^-places` written out. -/
def countText (places n : Nat) : List Char :=
  let ds := Text.decimal n
  let padded := List.replicate (places + 1 - ds.length) '0' ++ ds
  let ahead := padded.length - places
  if places = 0 then padded else padded.take ahead ++ '.' :: padded.drop ahead

/-- The text of a value, given by its bits. -/
def placesText (f : Format) (places bits : Nat) : List Char :=
  match f.decode bits with
  | .nan => "NaN".toList
  | .infinite => if f.isNegative bits then "-inf".toList else "inf".toList
  | .finite m q =>
    let x := (Fraction.ofBinary m q).shift (-(places : Int))
    let body := countText places (divEven x.num x.den)
    if f.isNegative bits then '-' :: body else body

/-- A double with a fixed number of places. -/
def doublePlaces (places : Nat) (x : Float) : String :=
  String.ofList (placesText .double places x.toBits.toNat)

/-- A single with a fixed number of places. -/
def singlePlaces (places : Nat) (x : Float32) : String :=
  String.ofList (placesText .single places x.toBits.toNat)

end HomeMetering.Decimal
