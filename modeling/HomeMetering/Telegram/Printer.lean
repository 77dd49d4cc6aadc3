import HomeMetering.Telegram.Basic

/-!
# The text of a telegram

How a smart meter writes a telegram: the header and a blank line, each object on a line of its own,
and a trailer whose checksum, if it has one, covers everything up to the exclamation mark.
-/

namespace HomeMetering.Telegram

def lineEnd : List Char := ['\r', '\n']

/-- An object: its code and its values in parentheses. -/
def objectText (o : String × List String) : List Char :=
  o.1.toList ++ o.2.flatMap fun value => '(' :: value.toList ++ [')']

/-- Everything up to the exclamation mark. -/
def coveredText (t : Telegram) : List Char :=
  t.header.toList ++ lineEnd ++ lineEnd ++
    t.objects.flatMap (fun o => objectText o ++ lineEnd) ++ ['!']

/-- The checksum of some text, as the trailer carries it. -/
def checksumText (covered : List Char) : List Char :=
  Text.hexUpper 4 (Checksum.arc (Text.Utf8.encode covered)).toNat

def render (t : Telegram) (withChecksum : Bool) : List Char :=
  t.coveredText ++ (if withChecksum then checksumText t.coveredText else []) ++ lineEnd

end HomeMetering.Telegram
