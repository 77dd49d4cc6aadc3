/-!
# Binary floating point formats

A finite value of a format is `m · 2^q` with integers `m` and `q`. `Format.decode` reads the bits of
a value, `Format.nearest` gives the bits of the value nearest to a fraction.
-/

namespace HomeMetering.Decimal.Binary

/-- A binary interchange format. -/
structure Format where
  /-- Significant bits, the leading one included. -/
  precision : Nat
  /-- Bits of the exponent field. -/
  exponentBits : Nat
  deriving Repr, DecidableEq

/-- What the bits of a value stand for, sign apart. -/
inductive Magnitude where
  | nan
  | infinite
  | finite (significand : Nat) (exponent : Int)
  deriving Repr, DecidableEq

namespace Format

def double : Format := ⟨53, 11⟩

def single : Format := ⟨24, 8⟩

/-- Bits of the stored fraction. -/
def fractionBits (f : Format) : Nat := f.precision - 1

/-- The exponent field of infinities and of values that are not numbers. -/
def topField (f : Format) : Nat := Nat.pow 2 f.exponentBits - 1

/-- The exponent of the smallest positive value. -/
def leastExponent (f : Format) : Int := 3 - Nat.pow 2 (f.exponentBits - 1) - f.precision

/-- The sign bit of a value. -/
def isNegative (f : Format) (bits : Nat) : Bool := bits.testBit (f.fractionBits + f.exponentBits)

/-- The value without its sign. -/
def decode (f : Format) (bits : Nat) : Magnitude :=
  let fraction := bits % Nat.pow 2 f.fractionBits
  let field := bits / Nat.pow 2 f.fractionBits % Nat.pow 2 f.exponentBits
  if field = f.topField then
    if fraction = 0 then .infinite else .nan
  else if field = 0 then .finite fraction f.leastExponent
  else .finite (Nat.pow 2 f.fractionBits + fraction) (f.leastExponent + (field - 1 : Nat))

/-- Whether the value is the lower end of a binade whose lower neighbour is half as far away. -/
def isBinadeStart (f : Format) (significand : Nat) (exponent : Int) : Bool :=
  significand = Nat.pow 2 f.fractionBits && f.leastExponent < exponent

end Format

/-- Which of two equally near integers is taken. -/
inductive Tie where
  | even
  | up
  deriving Repr, DecidableEq

/-- The integer nearest to a fraction. -/
def divNearest (tie : Tie) (num den : Nat) : Nat :=
  let q := num / den
  let r := num % den
  if 2 * r < den then q
  else if den < 2 * r then q + 1
  else if tie = .even ∧ q % 2 = 0 then q else q + 1

/-- The integer nearest to a fraction, the even one of two. -/
def divEven (num den : Nat) : Nat := divNearest .even num den

/-- The integer nearest to `num / den / 2^e`. -/
def scaleEven (num den : Nat) (e : Int) : Nat :=
  match e with
  | .ofNat k => divEven num (den <<< k)
  | .negSucc k => divEven (num <<< (k + 1)) den

def belowPower (num den : Nat) (e : Int) : Bool :=
  match e with
  | .ofNat k => num < den <<< k
  | .negSucc k => num <<< (k + 1) < den

/-- The bits, sign apart, of the value nearest to the positive fraction `num / den`; of two the one
with an even significand, and infinity above the greatest value. -/
def Format.nearest (f : Format) (num den : Nat) : Nat :=
  if num = 0 then 0
  else
    let guess : Int := (num.log2 : Int) - den.log2
    let top := if belowPower num den guess then guess - 1 else guess
    let exponent := max (top - f.fractionBits) f.leastExponent
    let significand := scaleEven num den exponent
    let steps := (exponent - f.leastExponent).toNat
    min (steps <<< f.fractionBits + significand) (f.topField <<< f.fractionBits)

/-- The fraction that a double is; zero for what is no finite number. -/
def fractionOf (x : Float) : Rat :=
  let bits := x.toBits.toNat
  match Format.double.decode bits with
  | .finite m q =>
    let m : Int := if Format.double.isNegative bits then -m else m
    match q with
    | .ofNat k => mkRat (m * Nat.pow 2 k) 1
    | .negSucc k => mkRat m (Nat.pow 2 (k + 1))
  | _ => mkRat 0 1

/-- The double nearest to an integer. -/
def doubleOfInt (n : Int) : Float :=
  let x := Float.ofBits (Format.double.nearest n.natAbs 1).toUInt64
  if n < 0 then -x else x

/-- The single nearest to an integer. -/
def singleOfInt (n : Int) : Float32 :=
  let x := Float32.ofBits (Format.single.nearest n.natAbs 1).toUInt32
  if n < 0 then -x else x

/-- The bits, sign apart, of the value of a format nearest to a magnitude. -/
def Format.round (f : Format) : Magnitude → Nat
  | .nan => f.topField <<< f.fractionBits + 1
  | .infinite => f.topField <<< f.fractionBits
  | .finite m (.ofNat k) => f.nearest (m <<< k) 1
  | .finite m (.negSucc k) => f.nearest m (1 <<< (k + 1))

/-- The single nearest to a double. -/
def singleOfDouble (x : Float) : Float32 :=
  let bits := x.toBits.toNat
  let y := Float32.ofBits (Format.single.round (Format.double.decode bits)).toUInt32
  if Format.double.isNegative bits then -y else y

end HomeMetering.Decimal.Binary
