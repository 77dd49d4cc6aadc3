/-!
# Hexadecimal text
-/

namespace HomeMetering.Text

/-- The value of a hexadecimal digit of either case. -/
def hexValue? (c : Char) : Option Nat :=
  let n := c.toNat
  if c.isDigit then some (n - 48)
  else if 'a' ≤ c && c ≤ 'f' then some (n - 87)
  else if 'A' ≤ c && c ≤ 'F' then some (n - 55)
  else none

/-- The value of a run of hexadecimal digits, from `acc` on. -/
def hexFold? (acc : Nat) : List Char → Option Nat
  | [] => some acc
  | c :: r => (hexValue? c).bind fun d => hexFold? (16 * acc + d) r

/-- A 16-bit word in hexadecimal: an optional plus sign, then any number of digits. -/
def hexWord? (cs : List Char) : Option Nat :=
  let ds := match cs with
    | '+' :: r => r
    | _ => cs
  if ds.isEmpty then none
  else (hexFold? 0 ds).filter (· < 0x10000)

/-- The bytes of a text of digit pairs. -/
def hexBytes? : List Char → Option (List UInt8)
  | [] => some []
  | [_] => none
  | a :: b :: r => do
    let x ← hexValue? a
    let y ← hexValue? b
    return (16 * x + y).toUInt8 :: (← hexBytes? r)

def hexDigit (n : Nat) : Char := Nat.digitChar (n % 16)

/-- A number in `width` lower case digits. -/
def hexPadded : Nat → Nat → List Char
  | 0, _ => []
  | width + 1, n => hexPadded width (n / 16) ++ [hexDigit n]

/-- A number in at least `width` upper case digits. -/
def hexUpper (width n : Nat) : List Char :=
  let ds := (Nat.toDigits 16 n).map Char.toUpper
  List.replicate (width - ds.length) '0' ++ ds

def hexOfBytes (bs : List UInt8) : List Char := bs.flatMap fun b => hexPadded 2 b.toNat

end HomeMetering.Text
