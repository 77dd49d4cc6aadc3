import HomeMetering.Decimal.Binary
import HomeMetering.Text.Digit

/-!
# Reading decimals

A number is an optional sign, digits with an optional point, and an optional exponent; or the name
of infinity or of a value that is not a number, in any case. The result is the nearest double.
-/

namespace HomeMetering.Decimal

open Binary

/-- An unsigned decimal: an integer times a power of ten. -/
structure Scaled where
  digits : Nat
  exponent : Int
  deriving Repr, DecidableEq

/-- The double nearest to a decimal. -/
def Scaled.toDouble (x : Scaled) : Float :=
  let order := (Text.decimal x.digits).length + x.exponent
  let bits :=
    if x.digits = 0 ∨ order < -400 then 0
    else if 400 < order then Format.double.topField <<< Format.double.fractionBits
    else match x.exponent with
      | .ofNat k => Format.double.nearest (x.digits * Nat.pow 10 k) 1
      | .negSucc k => Format.double.nearest x.digits (Nat.pow 10 (k + 1))
  Float.ofBits bits.toUInt64

/-- An exponent after its mark: an optional sign and at least one digit. -/
def exponent? (cs : List Char) : Option Int :=
  let (negative, ds) := match cs with
    | '-' :: r => (true, r)
    | '+' :: r => (false, r)
    | _ => (false, cs)
  if ds.isEmpty || !ds.all Char.isDigit then none
  else
    let n : Int := Text.digitsValue ds
    some (if negative then -n else n)

/-- The digits of a number up to its exponent: some digit stands before or after the point. -/
def mantissa? (cs : List Char) : Option Scaled :=
  let (whole, rest) := cs.span Char.isDigit
  let fraction? := match rest with
    | [] => some []
    | '.' :: r => if r.all Char.isDigit then some r else none
    | _ => none
  fraction?.bind fun fraction =>
    if whole.isEmpty && fraction.isEmpty then none
    else some ⟨Text.digitsValue (whole ++ fraction), -(fraction.length : Int)⟩

/-- An unsigned number in digits. -/
def scaled? (cs : List Char) : Option Scaled :=
  match cs.span fun c => c != 'e' && c != 'E' with
  | (m, []) => mantissa? m
  | (m, _ :: e) => do
    let x ← mantissa? m
    let k ← exponent? e
    return { x with exponent := x.exponent + k }

/-- A number without its sign. -/
def unsigned? (cs : List Char) : Option Float :=
  let name := String.ofList (cs.map Char.toLower)
  if name = "inf" ∨ name = "infinity" then some (1.0 / 0.0)
  else if name = "nan" then some (0.0 / 0.0)
  else (scaled? cs).map Scaled.toDouble

/-- The double that a text names. -/
def read? (cs : List Char) : Option Float :=
  match cs with
  | '-' :: r => (unsigned? r).map fun x => -x
  | '+' :: r => unsigned? r
  | _ => unsigned? cs

end HomeMetering.Decimal
