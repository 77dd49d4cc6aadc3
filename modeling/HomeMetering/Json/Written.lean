import HomeMetering.Json.Numeral
import HomeMetering.Text.Hex

/-!
# Reading JSON text

`Written.read?` accepts exactly one document with blanks around it. Numbers and strings keep their
spelling, so that only those a reader asks for have to make sense.
-/

namespace HomeMetering.Json

/-- One element of a string: a character, or the code unit of an escape. -/
inductive StringUnit where
  | char (c : Char)
  | unit (n : Nat)
  deriving Repr, DecidableEq

/-- A document as it is written. -/
inductive Written where
  | null
  | bool (b : Bool)
  | number (n : Numeral)
  | string (s : List StringUnit)
  | array (items : List Written)
  | object (members : List (List StringUnit × Written))
  deriving Inhabited

namespace StringUnit

/-- The characters of a string, when its escaped surrogates stand in pairs. -/
def assemble? : List StringUnit → Option (List Char)
  | [] => some []
  | char c :: r => (assemble? r).map (c :: ·)
  | unit high :: unit low :: r =>
    if 0xD800 ≤ high ∧ high < 0xDC00 then
      if 0xDC00 ≤ low ∧ low < 0xE000 then
        (assemble? r).map (Char.ofNat (0x10000 + (high - 0xD800) * 0x400 + (low - 0xDC00)) :: ·)
      else none
    else if 0xDC00 ≤ high ∧ high < 0xE000 then none
    else (assemble? (unit low :: r)).map (Char.ofNat high :: ·)
  | unit n :: r =>
    if 0xD800 ≤ n ∧ n < 0xE000 then none else (assemble? r).map (Char.ofNat n :: ·)

end StringUnit

namespace Written

/-- Blanks between the elements of a document. -/
def isGap (c : Char) : Bool := c = ' ' || c = '\n' || c = '\t' || c = '\r'

/-- The text after blanks. -/
def skip (cs : List Char) : List Char := cs.dropWhile isGap

/-- The character of a one-letter escape. -/
def escaped? : Char → Option Char
  | '"' => some '"'
  | '\\' => some '\\'
  | '/' => some '/'
  | 'b' => some '\x08'
  | 'f' => some '\x0c'
  | 'n' => some '\n'
  | 'r' => some '\r'
  | 't' => some '\t'
  | _ => none

/-- The rest of a string after its opening quote. -/
def string? : List Char → Option (List StringUnit × List Char)
  | [] => none
  | '"' :: r => some ([], r)
  | '\\' :: 'u' :: a :: b :: c :: d :: r => do
    let n ← Text.hexFold? 0 [a, b, c, d]
    let (s, rest) ← string? r
    return (.unit n :: s, rest)
  | '\\' :: c :: r => do
    let x ← escaped? c
    let (s, rest) ← string? r
    return (.char x :: s, rest)
  | c :: r =>
    if c.toNat < 0x20 || c = '\\' then none
    else do
      let (s, rest) ← string? r
      return (.char c :: s, rest)

/-- The digits of an integer: no zero before others. -/
def whole? (cs : List Char) : Option (List Char × List Char) :=
  match cs.span Char.isDigit with
  | ([], _) => none
  | ('0' :: _ :: _, _) => none
  | (ds, r) => some (ds, r)

/-- A point and the digits after it. -/
def fraction? : List Char → Option (Option (List Char) × List Char)
  | '.' :: r =>
    match r.span Char.isDigit with
    | ([], _) => none
    | (ds, r) => some (some ds, r)
  | r => some (none, r)

/-- The exponent mark and what follows it. -/
def exponent? : List Char → Option (Option Int × List Char)
  | c :: r =>
    if c = 'e' || c = 'E' then
      let (negative, ds) := match r with
        | '-' :: r => (true, r)
        | '+' :: r => (false, r)
        | _ => (false, r)
      match ds.span Char.isDigit with
      | ([], _) => none
      | (ds, rest) =>
        let n : Int := Text.digitsValue ds
        some (some (if negative then -n else n), rest)
    else some (none, c :: r)
  | [] => some (none, [])

def number? (cs : List Char) : Option (Written × List Char) := do
  let (negative, cs) := match cs with
    | '-' :: r => (true, r)
    | _ => (false, cs)
  let (whole, cs) ← whole? cs
  let (fraction, cs) ← fraction? cs
  let (exponent, cs) ← exponent? cs
  return (.number ⟨negative, whole, fraction, exponent⟩, cs)

mutual

/-- A value, blanks before it skipped; the fuel bounds the length of the text. -/
def value? : Nat → List Char → Option (Written × List Char)
  | 0, _ => none
  | fuel + 1, cs =>
    match skip cs with
    | 'n' :: 'u' :: 'l' :: 'l' :: r => some (.null, r)
    | 't' :: 'r' :: 'u' :: 'e' :: r => some (.bool true, r)
    | 'f' :: 'a' :: 'l' :: 's' :: 'e' :: r => some (.bool false, r)
    | '"' :: r => (string? r).map fun (s, rest) => (.string s, rest)
    | '[' :: r =>
      match skip r with
      | ']' :: rest => some (.array [], rest)
      | _ => (items? fuel r).map fun (xs, rest) => (.array xs, rest)
    | '{' :: r =>
      match skip r with
      | '}' :: rest => some (.object [], rest)
      | _ => (members? fuel r).map fun (ms, rest) => (.object ms, rest)
    | r => number? r

/-- Items up to the closing bracket. -/
def items? : Nat → List Char → Option (List Written × List Char)
  | 0, _ => none
  | fuel + 1, cs => do
    let (x, r) ← value? fuel cs
    match skip r with
    | ']' :: rest => some ([x], rest)
    | ',' :: r =>
      let (xs, rest) ← items? fuel r
      some (x :: xs, rest)
    | _ => none

/-- Members up to the closing brace. -/
def members? : Nat → List Char → Option (List (List StringUnit × Written) × List Char)
  | 0, _ => none
  | fuel + 1, cs =>
    match skip cs with
    | '"' :: r => do
      let (name, r) ← string? r
      match skip r with
      | ':' :: r =>
        let (x, r) ← value? fuel r
        match skip r with
        | '}' :: rest => some ([(name, x)], rest)
        | ',' :: r =>
          let (ms, rest) ← members? fuel r
          some ((name, x) :: ms, rest)
        | _ => none
      | _ => none
    | _ => none

end

/-- The document that a whole text holds. -/
def read? (text : String) : Option Written := do
  let cs := text.toList
  let (x, rest) ← value? (2 * cs.length + 2) cs
  if (skip rest).isEmpty then some x else none

/-! ## Records -/

/-- The members of a record that have a name in the list, by that list's order; every name must make
sense and none of the list may come twice. -/
def named? (names : List String) :
    List (List StringUnit × Written) → Option (List (String × Written))
  | [] => some []
  | (units, x) :: r => do
    let name := String.ofList (← StringUnit.assemble? units)
    let rest ← named? names r
    if names.contains name then
      if rest.any (·.1 == name) then none else some ((name, x) :: rest)
    else some rest

/-- The fields of a record: an object by name, or an array in the order of the names. -/
def record? (names : List String) : Written → Option (List (String × Written))
  | object members => named? names members
  | array items => if names.length < items.length then none else some (names.zip items)
  | _ => none

/-- A number that a field holds. -/
def asNumber? : Written → Option Number
  | number n => n.value?
  | _ => none

/-- A field in double precision; a missing one is zero. -/
def double? (fields : List (String × Written)) (name : String) : Option Float :=
  match fields.lookup name with
  | none => some 0.0
  | some x => x.asNumber?.map Number.toDouble

/-- A field in single precision; a missing one is zero. -/
def single? (fields : List (String × Written)) (name : String) : Option Float32 :=
  match fields.lookup name with
  | none => some 0.0
  | some x => x.asNumber?.map Number.toSingle

/-- A field that counts something. -/
def natural? (fields : List (String × Written)) (name : String) : Option Nat :=
  match fields.lookup name with
  | none => some 0
  | some x => match x.asNumber? with
    | some (.natural n) => some n
    | _ => none

end Written

end HomeMetering.Json
