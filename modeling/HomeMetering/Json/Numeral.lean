import HomeMetering.Decimal.Reading

/-!
# Numbers in JSON text

An integer that fits into 64 bits is read exactly. Any other number is read from its first digits,
as many as fit into 64 bits, and scaled by one power of ten in double precision.
-/

namespace HomeMetering.Json

structure Numeral where
  negative : Bool
  whole : List Char
  fraction : Option (List Char)
  exponent : Option Int
  deriving Repr, DecidableEq

/-- A number as it is understood. -/
inductive Number where
  | natural (n : Nat)
  | negative (n : Nat)
  | real (x : Float)

namespace Numeral

/-- The largest leading part of a number that is kept. -/
def top : Nat := Nat.pow 2 64 - 1

/-- Appends digits while the result fits, and counts those appended. -/
def append (significand : Nat) : List Char → Nat × Nat
  | [] => (significand, 0)
  | c :: r =>
    let n := 10 * significand + Text.digitValue c
    if top < n then (significand, 0)
    else
      let (m, taken) := append n r
      (m, taken + 1)

/-- `10^k` in double precision. -/
def power (k : Nat) : Float := Decimal.Scaled.toDouble ⟨1, k⟩

/-- Divides by `10^k`, in steps that have a double. -/
def divide (x : Float) (k : Nat) : Float :=
  if k ≤ 308 then x / power k
  else if x == 0.0 then x
  else divide (x / power 308) (k - 308)
termination_by k

/-- `m · 10^e`, if it is finite. -/
def scale? (m : Nat) (e : Int) : Option Float :=
  let x := Decimal.Binary.doubleOfInt m
  match e with
  | .ofNat k =>
    if k ≤ 308 then
      let y := x * power k
      if y.isInf then none else some y
    else if m = 0 then some x
    else none
  | .negSucc k => some (divide x (k + 1))

/-- The meaning of a number, if it has one. -/
def value? (n : Numeral) : Option Number :=
  let (whole, kept) := append 0 n.whole
  let dropped := n.whole.length - kept
  let plain := n.fraction.isNone && n.exponent.isNone && dropped = 0
  if plain && !n.negative then some (.natural whole)
  else if plain && 0 < whole && whole ≤ Nat.pow 2 63 then some (.negative whole)
  else
    let (m, taken) := append whole (n.fraction.getD [])
    let e : Int := dropped - taken + n.exponent.getD 0
    (scale? m e).map fun x => .real (if n.negative then -x else x)

end Numeral

namespace Number

def toDouble : Number → Float
  | natural n => Decimal.Binary.doubleOfInt n
  | negative n => Decimal.Binary.doubleOfInt (-n)
  | real x => x

/-- The number in single precision; a real one is rounded twice. -/
def toSingle : Number → Float32
  | natural n => Decimal.Binary.singleOfInt n
  | negative n => Decimal.Binary.singleOfInt (-n)
  | real x => Decimal.Binary.singleOfDouble x

end Number

end HomeMetering.Json
