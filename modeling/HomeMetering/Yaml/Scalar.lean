import HomeMetering.Text.Hex
import HomeMetering.Yaml.Cursor

/-!
# Scalars

A value is written plainly, in quotes, or as a block of lines below its indicator. Every reader
gives the text of the value and the place behind it; the number of characters that are left bounds
its steps.
-/

namespace HomeMetering.Yaml

/-! ## Plain -/

/-- Whether a character ends a plain value inside a flow collection. -/
def isFlowIndicator (c : Char) : Bool :=
  c == ',' || c == '[' || c == ']' || c == '{' || c == '}'

/-- The next word of a plain value. Inside a flow collection a colon must not touch an indicator. -/
def plainWord (inFlow : Bool) : Nat → List Char → Cursor → Option (List Char × Cursor)
  | 0, word, c => some (word, c)
  | fuel + 1, word, c =>
    match c.peek? with
    | none => some (word, c)
    | some x =>
      if isSpace x then some (word, c)
      else if inFlow && x == ':' && c.next.here fun y => isFlowIndicator y || y == '?' then none
      else if (x == ':' && c.endsAt 1 isSpace) || (inFlow && isFlowIndicator x) then some (word, c)
      else plainWord inFlow fuel (word ++ [x]) c.next

/-- Where a plain value ends, and whether line breaks were passed behind it. -/
structure PlainEnd where
  text : List Char
  cursor : Cursor
  passedBreak : Bool

/-- Words of a plain value with the gaps between them. -/
def plainWords (inFlow : Bool) (indent : Nat) :
    Nat → List Char → Gap → Cursor → Option PlainEnd
  | 0, text, g, c => some ⟨text, c, g.hasBreak⟩
  | fuel + 1, text, g, c =>
    if c.atDocumentMark || c.at? '#' then some ⟨text, c, g.hasBreak⟩
    else do
      let (word, c) ← plainWord inFlow c.rest.length [] c
      let (text, g) := if word.isEmpty then (text, g) else (text ++ g.folded ++ word, .empty)
      if !c.here isSpace then return ⟨text, c, g.hasBreak⟩
      else
        let (g, c) ← g.scan indent c.rest.length c
        if !inFlow && c.column < indent then return ⟨text, c, g.hasBreak⟩
        else plainWords inFlow indent fuel text g c

/-- A plain value; its further lines are indented by at least `indent`. -/
def scanPlain? (inFlow : Bool) (indent : Nat) (c : Cursor) : Option PlainEnd :=
  plainWords inFlow indent (c.rest.length + 1) [] .empty c

/-! ## Quoted -/

/-- What a single character after a backslash stands for. -/
def escapes : List (Char × Nat) :=
  [('0', 0), ('a', 7), ('b', 8), ('t', 9), ('\t', 9), ('n', 10), ('v', 11), ('f', 12), ('r', 13),
   ('e', 27), (' ', 0x20), ('"', 0x22), ('/', 0x2F), ('\\', 0x5C), ('N', 0x85), ('_', 0xA0),
   ('L', 0x2028), ('P', 0x2029)]

/-- How many hexadecimal digits follow a character after a backslash. -/
def escapeLengths : List (Char × Nat) := [('x', 2), ('u', 4), ('U', 8)]

def charOf? (n : Nat) : Option Char := if n.isValidChar then some (Char.ofNat n) else none

/-- An escape in double quotes, from behind its backslash. -/
def escape? (c : Cursor) : Option (Char × Cursor) := do
  let x ← c.peek?
  match escapes.lookup x with
  | some n => return (Char.ofNat n, c.next)
  | none =>
    let length ← escapeLengths.lookup x
    let digits := c.next.rest.take length
    if digits.length < length then none
    else return (← charOf? (← Text.hexFold? 0 digits), c.next.skip length)

/-- The next word of a quoted value, and whether it ended with an escaped line break. -/
def quotedWord (quote : Char) : Nat → List Char → Cursor → Option (List Char × Bool × Cursor)
  | 0, word, c => some (word, false, c)
  | fuel + 1, word, c =>
    match c.peek? with
    | none => some (word, false, c)
    | some x =>
      if isSpace x then some (word, false, c)
      else if x == quote then
        if quote == '\'' && c.next.at? '\'' then quotedWord quote fuel (word ++ ['\'']) (c.skip 2)
        else some (word, false, c)
      else if quote == '"' && x == '\\' then
        if c.next.here isBreak then some (word, true, c.next.nextLine)
        else do
          let (y, c) ← escape? c.next
          quotedWord quote fuel (word ++ [y]) c
      else quotedWord quote fuel (word ++ [x]) c.next

/-- Words of a quoted value with the gaps between them, up to the closing quote. -/
def quotedWords (quote : Char) : Nat → List Char → Cursor → Option (List Char × Cursor)
  | 0, _, _ => none
  | fuel + 1, text, c =>
    if c.atDocumentMark || c.atEnd then none
    else do
      let (word, joined, c) ← quotedWord quote c.rest.length [] c
      if c.at? quote then return (text ++ word, c.next)
      else
        let start : Gap := if joined then ⟨[], [], [], true⟩ else .empty
        let (g, c) ← start.scan 0 c.rest.length c
        quotedWords quote fuel (text ++ word ++ g.folded) c

/-- A quoted value, from its opening quote on. -/
def scanQuoted? (quote : Char) (c : Cursor) : Option (List Char × Cursor) :=
  quotedWords quote (c.rest.length + 1) [] c.next

/-! ## Blocks -/

/-- What becomes of the line breaks a block ends in. -/
inductive Chomping where
  | strip
  | clip
  | keep
  deriving Repr, DecidableEq

/-- The mark for chomping, if there is one. -/
def chomping? (c : Cursor) : Option Chomping × Cursor :=
  if c.at? '+' then (some .keep, c.next)
  else if c.at? '-' then (some .strip, c.next)
  else (none, c)

/-- An explicit indentation from one to nine, if there is one. -/
def increment? (c : Cursor) : Option (Option Nat × Cursor) :=
  match c.peek? with
  | some x =>
    if x == '0' then none
    else if x.isDigit then some (some (x.toNat - 48), c.next)
    else some (none, c)
  | none => some (none, c)

/-- The header of a block: chomping and indentation in either order. -/
def blockHeader? (c : Cursor) : Option (Chomping × Option Nat × Cursor) :=
  match chomping? c with
  | (some chomping, c) => do
    let (increment, c) ← increment? c
    return (chomping, increment, c)
  | (none, c) => do
    let (increment, c) ← increment? c
    if increment.isSome then
      let (chomping, c) := chomping? c
      return (chomping.getD .clip, increment, c)
    else return (.clip, none, c)

/-- The place behind the rest of a line, which is blank or a comment. -/
def endOfHeader? (c : Cursor) : Option Cursor :=
  let c := c.skipWhile isBlank
  let c := if c.at? '#' then c.skipWhile fun x => !isBreak x else c
  if c.atEnd then some c
  else if c.here isBreak then some c.nextLine
  else none

/-- Empty lines of a block: their breaks, the widest indentation, and the place at the first line
that is not empty. Without an indentation given, all spaces are taken. -/
def blockBreaks (indent : Option Nat) :
    Nat → List Char → Nat → Cursor → Option (List Char × Nat × Cursor)
  | 0, breaks, widest, c => some (breaks, widest, c)
  | fuel + 1, breaks, widest, c =>
    let room := match indent with
      | some n => n - c.column
      | none => c.rest.length
    let spaces := ((c.rest.take room).takeWhile (· == ' ')).length
    let c := c.skip spaces
    let widest := max widest c.column
    let isLeft := match indent with
      | some n => decide (c.column < n)
      | none => true
    if isLeft && c.at? '\t' then none
    else if c.here isBreak then
      blockBreaks indent fuel (breaks ++ c.breakText) widest c.nextLine
    else some (breaks, widest, c)

/-- The lines of a block. `lead` is the break behind the line before, `breaks` the empty lines after
it; in a folded block a single break between two lines that start with no blank becomes a space. -/
def blockLines (isLiteral : Bool) (indent : Nat) :
    Nat → List Char → List Char → List Char → Bool → Cursor →
      Option (List Char × List Char × List Char × Cursor)
  | 0, text, lead, breaks, _, c => some (text, lead, breaks, c)
  | fuel + 1, text, lead, breaks, wasBlank, c =>
    if c.column ≠ indent || c.atEnd then some (text, lead, breaks, c)
    else do
      let startsBlank := c.here isBlank
      let joint :=
        if !isLiteral && lead == ['\n'] && !wasBlank && !startsBlank then
          if breaks.isEmpty then [' '] else []
        else lead
      let (line, c) := c.takeWhile fun x => !isBreak x
      let lead := c.breakText
      let c := if c.atEnd then c else c.nextLine
      let text := text ++ joint ++ breaks ++ line
      let (breaks, _, c) ← blockBreaks (some indent) (c.rest.length + 1) [] 0 c
      blockLines isLiteral indent fuel text lead breaks startsBlank c

/-- A block, from its indicator on; `parent` is the indentation it is nested in, if it is. -/
def scanBlock? (isLiteral : Bool) (parent : Option Nat) (c : Cursor) :
    Option (List Char × Cursor) := do
  let (chomping, increment, c) ← blockHeader? c.next
  let c ← endOfHeader? c
  let given := increment.map fun n => parent.getD 0 + n
  let (breaks, widest, c) ← blockBreaks given (c.rest.length + 1) [] 0 c
  let least := match parent with
    | some n => n + 1
    | none => 1
  let indent := given.getD (max widest least)
  let (text, lead, breaks, c) ←
    blockLines isLiteral indent (c.rest.length + 1) [] [] breaks false c
  return (match chomping with
    | .strip => text
    | .clip => text ++ lead
    | .keep => text ++ lead ++ breaks, c)

end HomeMetering.Yaml
