/-!
# A place in a YAML text

The text from a place on, and the place itself. Line breaks are those of YAML 1.1: a carriage return
and a line feed count as one.
-/

namespace HomeMetering.Yaml

structure Cursor where
  rest : List Char
  /-- Characters before it. -/
  index : Nat
  line : Nat
  column : Nat
  deriving Repr

/-- Whether a character breaks a line. -/
def isBreak (c : Char) : Bool :=
  c == '\n' || c == '\r' || c.toNat == 0x85 || c.toNat == 0x2028 || c.toNat == 0x2029

/-- Whether a character is a blank inside a line. -/
def isBlank (c : Char) : Bool := c == ' ' || c == '\t'

/-- Whether a character is a blank or a break. -/
def isSpace (c : Char) : Bool := isBlank c || isBreak c

/-- Whether a character may stand in a text. -/
def isAllowed (c : Char) : Bool :=
  let n := c.toNat
  n = 9 || n = 10 || n = 13 || (0x20 ≤ n && n ≤ 0x7E) || n = 0x85 || (0xA0 ≤ n && n ≤ 0xD7FF) ||
    (0xE000 ≤ n && n ≤ 0xFFFD && n ≠ 0xFEFF) || 0x10000 ≤ n

namespace Cursor

def ofText (text : List Char) : Cursor := ⟨text, 0, 0, 0⟩

def peek? (c : Cursor) : Option Char := c.rest.head?

def atEnd (c : Cursor) : Bool := c.rest.isEmpty

def at? (c : Cursor) (x : Char) : Bool := c.peek? == some x

/-- Whether a character of a kind stands at the place. -/
def here (c : Cursor) (p : Char → Bool) : Bool := c.peek?.any p

/-- Whether a character of a kind, or the end of the text, stands `n` characters on. -/
def endsAt (c : Cursor) (n : Nat) (p : Char → Bool) : Bool :=
  match c.rest.drop n with
  | [] => true
  | x :: _ => p x

/-- One character on, in the same line. -/
def next (c : Cursor) : Cursor :=
  { c with rest := c.rest.tail, index := c.index + 1, column := c.column + 1 }

/-- Several characters on, in the same line. -/
def skip (c : Cursor) (n : Nat) : Cursor :=
  { c with rest := c.rest.drop n, index := c.index + n, column := c.column + n }

/-- Behind a line break. -/
def nextLine (c : Cursor) : Cursor :=
  match c.rest with
  | '\r' :: '\n' :: rest => ⟨rest, c.index + 2, c.line + 1, 0⟩
  | _ :: rest => ⟨rest, c.index + 1, c.line + 1, 0⟩
  | [] => c

/-- The characters of a kind from here on, and the place behind them. -/
def takeWhile (c : Cursor) (p : Char → Bool) : List Char × Cursor :=
  let taken := c.rest.takeWhile p
  (taken, c.skip taken.length)

/-- The place behind the characters of a kind. -/
def skipWhile (c : Cursor) (p : Char → Bool) : Cursor := (c.takeWhile p).2

/-- A line break as it counts in a value: most become a line feed. -/
def breakText (c : Cursor) : List Char :=
  match c.peek? with
  | some x => if x.toNat == 0x2028 || x.toNat == 0x2029 then [x] else ['\n']
  | none => []

/-- Whether a line starts here with a mark between documents. -/
def atMark (c : Cursor) (mark : String) : Bool :=
  c.column == 0 && c.rest.take 3 == mark.toList && c.endsAt 3 isSpace

def atDocumentMark (c : Cursor) : Bool := c.atMark "---" || c.atMark "..."

end Cursor

/-- Blanks and breaks between two parts of a value. -/
structure Gap where
  /-- Blanks before the first break. -/
  blanks : List Char
  /-- The first break, if there is one. -/
  firstBreak : List Char
  /-- The breaks after it. -/
  moreBreaks : List Char
  hasBreak : Bool
  deriving Repr

namespace Gap

def empty : Gap := ⟨[], [], [], false⟩

/-- What a gap becomes in a value: blanks stay, a single break becomes a space, and of several the
first is dropped. -/
def folded (g : Gap) : List Char :=
  if !g.hasBreak then g.blanks
  else if g.firstBreak = ['\n'] then
    if g.moreBreaks.isEmpty then [' '] else g.moreBreaks
  else g.firstBreak ++ g.moreBreaks

/-- Takes blanks and breaks in; a tab left of `indent` at the start of a line is an error. -/
def scan (indent : Nat) : Nat → Gap → Cursor → Option (Gap × Cursor)
  | 0, g, c => some (g, c)
  | fuel + 1, g, c =>
    match c.peek? with
    | none => some (g, c)
    | some x =>
      if isBlank x then
        if g.hasBreak then
          if c.column < indent && x == '\t' then none else scan indent fuel g c.next
        else scan indent fuel { g with blanks := g.blanks ++ [x] } c.next
      else if isBreak x then
        let g := if g.hasBreak then { g with moreBreaks := g.moreBreaks ++ c.breakText }
          else ⟨[], c.breakText, [], true⟩
        scan indent fuel g c.nextLine
      else some (g, c)

end Gap

end HomeMetering.Yaml
