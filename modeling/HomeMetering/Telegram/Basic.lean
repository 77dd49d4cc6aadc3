import HomeMetering.Checksum
import HomeMetering.Decimal.Reading
import HomeMetering.Quantity
import HomeMetering.Text.Blank
import HomeMetering.Text.Hex
import HomeMetering.Text.Lines
import HomeMetering.Text.Utf8

/-!
# Telegrams

A smart meter sends a header line, a blank line, one line per object and a trailer line with an
optional checksum. An object line is a code such as `1-0:1.8.1` and values in parentheses. The text
runs from the first slash to the first exclamation mark after it; the checksum stands behind that
mark and covers everything from the slash to the mark.
-/

namespace HomeMetering

/-- Why a text is no telegram. -/
inductive TelegramError where
  | missingHeader
  | missingTrailer
  | invalidChecksum (field : String)
  | checksumMismatch (expected computed : Nat)
  deriving Repr, DecidableEq

def TelegramError.message : TelegramError → String
  | missingHeader => "telegram has no header line"
  | missingTrailer => "telegram has no trailer line"
  | invalidChecksum field => "invalid checksum field " ++ field
  | checksumMismatch expected computed =>
    "checksum mismatch, telegram says " ++ String.ofList (Text.hexUpper 4 expected) ++
      ", computed " ++ String.ofList (Text.hexUpper 4 computed)

/-- A telegram: its header and the values of every object. -/
structure Telegram where
  header : String
  objects : List (String × List String)
  deriving Repr, DecidableEq

namespace Telegram

/-! ## Object lines -/

/-- A run of digits of any script, and what follows it. -/
def digits? (cs : List Char) : Option (List Char × List Char) :=
  match cs.span Text.isDigit with
  | ([], _) => none
  | run => some run

/-- A run of digits and the character after it. -/
def digitsThen? (c : Char) (cs : List Char) : Option (List Char × List Char) := do
  let (ds, rest) ← digits? cs
  match rest with
  | x :: r => if x = c then some (ds ++ [c], r) else none
  | [] => none

/-- An object's code at the start of a line, and what follows it. -/
def code? (cs : List Char) : Option (List Char × List Char) := do
  let (a, r) ← digitsThen? '-' cs
  let (b, r) ← digitsThen? ':' r
  let (c, r) ← digitsThen? '.' r
  let (d, r) ← digitsThen? '.' r
  let (e, r) ← digits? r
  return (a ++ b ++ c ++ d ++ e, r)

/-- The values in parentheses that make up the rest of a line. A value runs to the next closing
parenthesis; `inside` holds the part of it that was read, in reverse. -/
def values? (inside : Option (List Char)) : List Char → Option (List (List Char))
  | [] => if inside.isNone then some [] else none
  | c :: r =>
    match inside with
    | some value => if c = ')' then (values? none r).map (value.reverse :: ·)
      else values? (some (c :: value)) r
    | none =>
      if c = '(' then values? (some []) r
      else if Text.isBlank c && r.all Text.isBlank then some []
      else none

/-- An object line: a code and at least one value. -/
def objectLine? (line : List Char) : Option (String × List String) := do
  let (code, rest) ← code? line
  match ← values? none rest with
  | [] => none
  | vs => some (String.ofList code, vs.map String.ofList)

/-- The objects with one more; a code that is there gets the new values. -/
def putObject (objects : List (String × List String)) (code : String) (values : List String) :
    List (String × List String) :=
  objects.filter (fun o => o.1 != code) ++ [(code, values)]

/-- The objects of the lines between header and trailer; lines of another form say nothing. -/
def objectsOf (lines : List (List Char)) : List (String × List String) :=
  lines.foldl (fun objects line =>
    match objectLine? (Text.trim line) with
    | some (code, values) => putObject objects code values
    | none => objects) []

/-! ## Whole telegrams -/

/-- The checksum field stands for the check of the text, or is empty. -/
def checkTrailer (trailer covered : List Char) : Except TelegramError Unit :=
  if trailer.isEmpty then .ok ()
  else match Text.hexWord? trailer with
    | none => .error (.invalidChecksum (String.ofList trailer))
    | some expected =>
      let computed := (Checksum.arc (Text.Utf8.encode covered)).toNat
      if expected = computed then .ok () else .error (.checksumMismatch expected computed)

def parse (text : List Char) : Except TelegramError Telegram :=
  match text.dropWhile (· != '/') with
  | [] => .error .missingHeader
  | started =>
    match started.span (· != '!') with
    | (_, []) => .error .missingTrailer
    | (body, mark :: after) => do
      checkTrailer (Text.trim ((Text.lines after).headD [])) (body ++ [mark])
      let lines := Text.lines body
      return ⟨String.ofList (Text.trim (lines.headD [])), objectsOf lines.tail⟩

theorem parse_of_span {text body after : List Char} {mark : Char}
    (hstart : text.head? = some '/') (hspan : text.span (· != '!') = (body, mark :: after)) :
    parse text =
      (checkTrailer (Text.trim ((Text.lines after).headD [])) (body ++ [mark])).map fun _ =>
        ⟨String.ofList (Text.trim ((Text.lines body).headD [])),
          objectsOf (Text.lines body).tail⟩ := by
  obtain ⟨r, rfl⟩ := List.head?_eq_some_iff.1 hstart
  have hdrop : ('/' :: r).dropWhile (· != '/') = '/' :: r := rfl
  unfold parse
  rw [hdrop]
  dsimp only
  rw [hspan]
  dsimp only
  cases checkTrailer (Text.trim ((Text.lines after).headD [])) (body ++ [mark]) <;> rfl

/-! ## Contents -/

/-- The three letters of the manufacturer. -/
def manufacturer (t : Telegram) : String :=
  let code? := (Text.Utf8.dropBytes? 1 t.header.toList).bind (Text.Utf8.takeBytes? 3)
  String.ofList (code?.getD [])

/-- The model after the digit of the baud rate; a backslash and the character after it are a mark
and no part of it. -/
def model (t : Telegram) : String :=
  let text := match (Text.Utf8.dropBytes? 5 t.header.toList).getD [] with
    | '\\' :: r => (Text.Utf8.dropBytes? 1 r).getD []
    | r => r
  String.ofList (Text.trim text)

def object? (t : Telegram) (code : String) : Option (List String) := t.objects.lookup code

/-- A value with an optional unit after an asterisk. -/
def measure? (raw : String) : Option (Float × Option String) :=
  match Text.splitOnce? '*' raw.toList with
  | some (n, unit) =>
    (Decimal.read? (Text.trim n)).map fun x => (x, some (String.ofList unit))
  | none => (Decimal.read? (Text.trim raw.toList)).map fun x => (x, none)

/-- The number that an object carries, the last one of several. -/
def number? (t : Telegram) (code : String) : Option Float := do
  let values ← t.object? code
  let raw ← values.getLast?
  return (← measure? raw).1

/-- The sum of the objects that carry a number, if any does. -/
def sumOf? {K : Type} [Quantity K] (number? : String → Option K) (codes : List String) : Option K :=
  match codes.filterMap number? with
  | [] => none
  | xs => some (Quantity.total xs)

/-- The sum of the objects that carry a number, if any does. -/
def sum? (t : Telegram) (codes : List String) : Option Float := sumOf? t.number? codes

/-- The code of the meter's own identifier. -/
def equipmentCode : String := "0-0:96.1.1"

/-- The meter's identifier, sent as the hexadecimal form of its text. -/
def equipmentId? (t : Telegram) : Option String := do
  let values ← t.object? equipmentCode
  let raw ← values.head?
  return match Text.hexBytes? raw.toList with
    | some bytes => String.ofList (Text.Utf8.decodeLossy bytes)
    | none => raw

/-! ## Attached devices -/

/-- What a device on the meter's own bus counts. -/
inductive DeviceKind where
  | gas
  | water
  | other (type : Nat)
  deriving Repr, DecidableEq

/-- The kind behind a type number. -/
def DeviceKind.ofType : Nat → DeviceKind
  | 3 => gas
  | 7 => water
  | n => other n

/-- A device on the meter's own bus. -/
structure Device where
  channel : Nat
  kind : DeviceKind
  reading : Option Float
  deriving Repr

/-- The channel whose device type an object carries. -/
def channel? (code : String) : Option Nat := do
  let rest ← Text.dropFront? ['0', '-'] code.toList
  let (ds, rest) ← digits? rest
  if rest = ":24.1.0".toList then Text.cardinal? 255 ds else none

def readingCode (channel : Nat) : String :=
  "0-" ++ String.ofList (Text.decimal channel) ++ ":24.2.1"

/-- The device that an object announces. -/
def deviceOf? (t : Telegram) (code : String) (values : List String) : Option Device :=
  (channel? code).map fun channel =>
    { channel
      kind := .ofType ((values.head?.bind fun v => Text.cardinal? 255 v.toList).getD 0)
      reading := t.number? (readingCode channel) }

/-- The attached devices by channel. -/
def devices (t : Telegram) : List Device :=
  (t.objects.filterMap fun (code, values) => t.deviceOf? code values).mergeSort
    fun a b => a.channel ≤ b.channel

end Telegram

end HomeMetering
