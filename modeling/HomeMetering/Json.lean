import HomeMetering.Decimal.Shortest
import HomeMetering.Text.Hex

/-!
# JSON text

A value keeps the order of its members and the precision of its numbers; `text` writes it without
blanks. `tree` is the value as a generic document holds it: members sorted by name, numbers in
double precision.
-/

namespace HomeMetering

inductive Json where
  | null
  | bool (b : Bool)
  | int (n : Int)
  | double (x : Float)
  | single (x : Float32)
  | str (s : String)
  | arr (items : List Json)
  | obj (members : List (String × Json))
  deriving Inhabited

namespace Json

/-- Doubles have at least one digit after the point; below `10^-5` and from `10^16` on an exponent.
A tie goes to the even digit, what is no number is `null`. -/
def doubleLayout : Decimal.Layout :=
  { low := -5, high := 16, whole := ".0".toList, tie := .even, nan := "null".toList,
    infinite := "null".toList, negativeInfinite := "null".toList }

/-- Singles take an exponent below `10^-6` and from `10^13` on. -/
def singleLayout : Decimal.Layout := { doubleLayout with low := -6, high := 13 }

/-- A character of a string: quotes, backslashes and control characters are escaped. -/
def escape (c : Char) : List Char :=
  if c = '"' then ['\\', '"']
  else if c = '\\' then ['\\', '\\']
  else if c = '\n' then ['\\', 'n']
  else if c = '\r' then ['\\', 'r']
  else if c = '\t' then ['\\', 't']
  else if c.toNat = 8 then ['\\', 'b']
  else if c.toNat = 12 then ['\\', 'f']
  else if c.toNat < 0x20 then '\\' :: 'u' :: Text.hexPadded 4 c.toNat
  else [c]

def quoted (s : String) : List Char := '"' :: (s.toList.flatMap escape ++ ['"'])

mutual

/-- The text of a document, without blanks. -/
def chars : Json → List Char
  | null => "null".toList
  | bool true => "true".toList
  | bool false => "false".toList
  | int n => (toString n).toList
  | double x => doubleLayout.text .double x.toBits.toNat
  | single x => singleLayout.text .single x.toBits.toNat
  | str s => quoted s
  | arr [] => ['[', ']']
  | arr (j :: r) => '[' :: (chars j ++ itemChars r ++ [']'])
  | obj [] => ['{', '}']
  | obj ((k, j) :: r) => '{' :: (quoted k ++ ':' :: chars j ++ memberChars r ++ ['}'])

/-- The items after the first. -/
def itemChars : List Json → List Char
  | [] => []
  | j :: r => ',' :: (chars j ++ itemChars r)

/-- The members after the first. -/
def memberChars : List (String × Json) → List Char
  | [] => []
  | (k, j) :: r => ',' :: (quoted k ++ ':' :: chars j ++ memberChars r)

end

def text (j : Json) : String := String.ofList j.chars

/-- Members with one more in its place by name; a name that is there gets the new value. -/
def insertMember (k : String) (j : Json) : List (String × Json) → List (String × Json)
  | [] => [(k, j)]
  | (k', j') :: r =>
    if k < k' then (k, j) :: (k', j') :: r
    else if k = k' then (k, j) :: r
    else (k', j') :: insertMember k j r

mutual

/-- The document with its members sorted and its numbers in double precision. -/
def tree : Json → Json
  | single x => double x.toFloat
  | arr items => arr (treeItems items)
  | obj members => obj (treeMembers members)
  | j => j

def treeItems : List Json → List Json
  | [] => []
  | j :: r => tree j :: treeItems r

/-- The members sorted by name. -/
def treeMembers : List (String × Json) → List (String × Json)
  | [] => []
  | (k, j) :: r => insertMember k (tree j) (treeMembers r)

end

end Json

end HomeMetering
