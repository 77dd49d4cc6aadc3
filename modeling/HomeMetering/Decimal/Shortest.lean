import HomeMetering.Decimal.Binary
import HomeMetering.Text.Digit

/-!
# Shortest decimals

The decimal with the fewest digits that reads back as a given binary value, and of those the nearest
one. A value `m · 2^q` is the one read from every real in an interval around it, ends included when
`m` is even. For one digit, two digits and so on, the two neighbours of the value on the grid of
such decimals are tried; some neighbour lies in the interval as soon as any point of the grid does.
-/

namespace HomeMetering.Decimal

open Binary

/-- A decimal `0.d₁d₂… · 10^(point)` given as an integer `digits` whose first digit stands at
`10^exponent`. -/
structure Digits where
  digits : List Char
  exponent : Int
  deriving Repr, DecidableEq

/-- A positive fraction. -/
structure Fraction where
  num : Nat
  den : Nat

/-- The integer part of the decimal logarithm of a positive fraction. -/
def Fraction.logTen (x : Fraction) : Int :=
  if x.den ≤ x.num then ((Text.decimal (x.num / x.den)).length : Int) - 1
  else -((Text.decimal ((x.den + x.num - 1) / x.num - 1)).length : Int)

def Fraction.ofBinary (m : Nat) (q : Int) : Fraction :=
  match q with
  | .ofNat k => ⟨m <<< k, 1⟩
  | .negSucc k => ⟨m, 1 <<< (k + 1)⟩

def Fraction.shift (x : Fraction) (e : Int) : Fraction :=
  match e with
  | .ofNat k => ⟨x.num, x.den * Nat.pow 10 k⟩
  | .negSucc k => ⟨x.num * Nat.pow 10 (k + 1), x.den⟩

/-- The reals that read back as a value, as multiples of a quarter of its unit. -/
structure Interval where
  low : Nat
  value : Nat
  high : Nat
  closed : Bool

/-- Whether the integer `n` lies in the interval, everything counted in units of `1 / den`. -/
def Interval.holds (i : Interval) (den n : Nat) : Bool :=
  if i.closed then i.low ≤ n * den && n * den ≤ i.high else i.low < n * den && n * den < i.high

/-- The interval of `m · 2^q` around four times the value. -/
def Format.interval (f : Format) (m : Nat) (q : Int) : Interval :=
  { low := if f.isBinadeStart m q then 4 * m - 1 else 4 * m - 2
    value := 4 * m
    high := 4 * m + 2
    closed := m % 2 = 0 }

/-- The nearer of the two integers around the value that lies in the interval. -/
def Interval.pick? (i : Interval) (tie : Tie) (den : Nat) : Option Nat :=
  let below := i.value / den
  let above := below + 1
  let nearest := divNearest tie i.value den
  let other := if nearest = below then above else below
  if i.holds den nearest && 0 < nearest then some nearest
  else if i.holds den other && 0 < other then some other
  else none

/-- The interval measured on the grid of decimals whose unit is `10^e`: the scaled interval and the
denominator that makes its bounds whole. -/
def Interval.onGrid (i : Interval) (q e : Int) : Interval × Nat :=
  let unit := (Fraction.ofBinary 1 (q - 2)).shift e
  ({ i with low := i.low * unit.num, value := i.value * unit.num, high := i.high * unit.num },
    unit.den)

/-- The digits of a positive integer without the zeros it ends in. -/
def significant (n : Nat) : List Char :=
  ((Text.decimal n).reverse.dropWhile (· == '0')).reverse

/-- Tries grids from coarse to fine: `n` more than the `tried` before. -/
def Interval.search (i : Interval) (tie : Tie) (q top : Int) : Nat → Nat → Digits
  | 0, _ => ⟨['0'], 0⟩
  | n + 1, tried =>
    let e := top - tried
    let (scaled, den) := i.onGrid q e
    match scaled.pick? tie den with
    | some c => ⟨significant c, e + ((Text.decimal c).length : Int) - 1⟩
    | none => i.search tie q top n (tried + 1)

/-- The shortest digits of the positive value `m · 2^q`. -/
def Format.shortest (f : Format) (tie : Tie) (m : Nat) (q : Int) : Digits :=
  (Format.interval f m q).search tie q (Fraction.ofBinary m q).logTen 18 0

/-! ## Layout -/

/-- Digits written without an exponent; `whole` is what stands after the digits of an integer. -/
def Digits.positional (d : Digits) (whole : List Char) : List Char :=
  match d.exponent with
  | .negSucc k => '0' :: '.' :: (List.replicate k '0' ++ d.digits)
  | .ofNat k =>
    let ahead := k + 1
    if d.digits.length ≤ ahead then
      d.digits ++ List.replicate (ahead - d.digits.length) '0' ++ whole
    else d.digits.take ahead ++ '.' :: d.digits.drop ahead

/-- Digits written with one digit before the point and an exponent that always has a sign. -/
def Digits.scientific (d : Digits) : List Char :=
  let mantissa := match d.digits with
    | [] => []
    | [x] => [x]
    | x :: r => x :: '.' :: r
  let sign := if d.exponent < 0 then '-' else '+'
  mantissa ++ 'e' :: sign :: Text.decimal d.exponent.natAbs

/-- How a format of text writes numbers. -/
structure Layout where
  /-- Below this exponent of the first digit, and from `high` on, an exponent is written. -/
  low : Int
  high : Int
  /-- What follows the digits of an integer. -/
  whole : List Char
  /-- Which of two equally near decimals is taken. -/
  tie : Tie
  nan : List Char
  infinite : List Char
  negativeInfinite : List Char

/-- The text of a value, given by its bits. -/
def Layout.text (l : Layout) (f : Format) (bits : Nat) : List Char :=
  match f.decode bits with
  | .nan => l.nan
  | .infinite => if f.isNegative bits then l.negativeInfinite else l.infinite
  | .finite m q =>
    let d := if m = 0 then ⟨['0'], 0⟩ else Format.shortest f l.tie m q
    let body := if l.low ≤ d.exponent ∧ d.exponent < l.high then d.positional l.whole
      else d.scientific
    if f.isNegative bits then '-' :: body else body

/-- The layout of messages: never an exponent, integers without a point, a tie goes up. -/
def Layout.plain : Layout :=
  { low := -400, high := 400, whole := [], tie := .up, nan := "NaN".toList,
    infinite := "inf".toList, negativeInfinite := "-inf".toList }

/-- A double in a message. -/
def plainDouble (x : Float) : String := String.ofList (Layout.plain.text .double x.toBits.toNat)

end HomeMetering.Decimal
