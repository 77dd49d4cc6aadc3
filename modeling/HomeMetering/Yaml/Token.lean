import HomeMetering.Text.Digit
import HomeMetering.Yaml.Scalar

/-!
# Tokens

A YAML text as a list of tokens. Indentation opens and closes block collections, which is why the
list has tokens that no character stands for. What turns out to be a key when its colon comes gets
its mark in front of it afterwards; such a key is in one line and has at most 1024 characters.
-/

namespace HomeMetering.Yaml

inductive Token where
  | directive
  | documentStart
  | documentEnd
  | blockSequenceStart
  | blockMappingStart
  | blockEnd
  | flowSequenceStart
  | flowSequenceEnd
  | flowMappingStart
  | flowMappingEnd
  | blockEntry
  | flowEntry
  | key
  | value
  | anchor (name : String)
  | alias (name : String)
  | tag
  | scalar (isPlain : Bool) (text : String)
  deriving Repr, DecidableEq

/-- Something that becomes a key when a colon follows it. -/
structure PossibleKey where
  /-- Tokens before it. -/
  position : Nat
  /-- Where it starts. -/
  cursor : Cursor
  /-- Whether nothing but a key can stand there. -/
  isRequired : Bool

/-- The longest key, in characters. -/
def maxKeyLength : Nat := 1024

/-- The state between two tokens. -/
structure Scan where
  cursor : Cursor
  tokens : Array Token
  /-- Indentations of the block collections at hand, the innermost first. -/
  indents : List Nat
  /-- For the text outside of flow collections and for each that is open, the innermost first, what
  may become a key. -/
  keys : List (Option PossibleKey)
  /-- Whether a key may start here. -/
  keyAllowed : Bool

namespace Scan

/-- The start of a text. -/
def ofText (text : List Char) : Scan := ⟨.ofText text, #[], [], [none], true⟩

/-- Whether a flow collection is open. -/
def inFlow (s : Scan) : Bool := 1 < s.keys.length

/-- The indentation of the innermost block collection. -/
def indent? (s : Scan) : Option Nat := s.indents.head?

/-- The least indentation of what is nested in the innermost block collection. -/
def innerIndent (s : Scan) : Nat :=
  match s.indent? with
  | some n => n + 1
  | none => 0

def emit (s : Scan) (t : Token) : Scan := { s with tokens := s.tokens.push t }

def insert (s : Scan) (position : Nat) (t : Token) : Scan :=
  { s with tokens := (s.tokens.toList.insertIdx position t).toArray }

/-! ## Possible keys -/

def key? (s : Scan) : Option PossibleKey := s.keys.head?.join

def setKey (s : Scan) (k : Option PossibleKey) : Scan := { s with keys := k :: s.keys.tail }

/-- Gives up what may have become a key; one that was required is missing its colon. -/
def dropKey? (s : Scan) : Option Scan :=
  match s.key? with
  | some k => if k.isRequired then none else some (s.setKey none)
  | none => some s

/-- Whether a possible key has become too long, or has been left behind in another line. -/
def isStale (c : Cursor) (k : PossibleKey) : Bool :=
  k.cursor.line < c.line || k.cursor.index + maxKeyLength < c.index

/-- Gives up every possible key that is stale. -/
def dropStale? (s : Scan) : Option Scan := do
  let keys ← s.keys.mapM fun key =>
    match key with
    | some k =>
      if !isStale s.cursor k then some (some k)
      else if k.isRequired then none
      else some none
    | none => some none
  return { s with keys }

/-- Notes that a key may start here. -/
def saveKey? (s : Scan) : Option Scan :=
  if s.keyAllowed then do
    let isRequired := !s.inFlow && s.indent? == some s.cursor.column
    return (← s.dropKey?).setKey (some ⟨s.tokens.size, s.cursor, isRequired⟩)
  else some s

/-! ## Indentation -/

/-- Whether a column lies right of the innermost block collection. -/
def isDeeper (s : Scan) (column : Nat) : Bool :=
  match s.indent? with
  | some n => n < column
  | none => true

/-- Opens a block collection unless one of that indentation is open. -/
def roll (s : Scan) (column position : Nat) (t : Token) : Scan :=
  if !s.inFlow && s.isDeeper column then
    { s.insert position t with indents := column :: s.indents }
  else s

/-- Closes the block collections right of a column; all of them without one. -/
def unrollFrom (column : Option Nat) : List Nat → Array Token → List Nat × Array Token
  | [], tokens => ([], tokens)
  | n :: rest, tokens =>
    if column.all fun c => c < n then unrollFrom column rest (tokens.push .blockEnd)
    else (n :: rest, tokens)

/-- Closes the block collections right of a column. -/
def unroll (s : Scan) (column : Option Nat) : Scan :=
  if s.inFlow then s
  else
    let (indents, tokens) := unrollFrom column s.indents s.tokens
    { s with indents, tokens }

/-! ## Blanks and comments -/

/-- Passes blanks, comments and line breaks. A tab counts as blank where no key can start. -/
def passBlanks : Nat → Scan → Scan
  | 0, s => s
  | fuel + 1, s =>
    let c := s.cursor.skipWhile fun x => x == ' ' || ((s.inFlow || !s.keyAllowed) && x == '\t')
    let c := if c.at? '#' then c.skipWhile fun x => !isBreak x else c
    if c.here isBreak then
      passBlanks fuel { s with cursor := c.nextLine, keyAllowed := !s.inFlow || s.keyAllowed }
    else { s with cursor := c }

/-! ## Single tokens -/

/-- A token of some characters. -/
def punctuation (s : Scan) (length : Nat) (t : Token) : Scan :=
  { s.emit t with cursor := s.cursor.skip length }

/-- Leaves every block collection, as marks between documents do. -/
def leaveBlocks? (s : Scan) : Option Scan := do
  return { ← (s.unroll none).dropKey? with keyAllowed := false }

/-- A mark between documents. -/
def documentMark? (s : Scan) (t : Token) : Option Scan := do
  return (← s.leaveBlocks?).punctuation 3 t

/-- The place behind the rest of a line that is blank or a comment. -/
def restOfLine? (c : Cursor) : Option Cursor :=
  let c := c.skipWhile isBlank
  let c := if c.at? '#' then c.skipWhile fun x => !isBreak x else c
  if c.atEnd then some c else if c.here isBreak then some c.nextLine else none

/-- A directive: a version 1.1 or 1.2, or a shorthand for tags. -/
def directive? (s : Scan) : Option Scan := do
  let s ← s.leaveBlocks?
  let (name, c) := s.cursor.next.takeWhile fun x => !isSpace x
  let (argument, c) := (c.skipWhile isBlank).takeWhile fun x => !isSpace x && x != '#'
  let c ← if name = "YAML".toList then
      if argument = "1.1".toList ∨ argument = "1.2".toList then some c else none
    else if name = "TAG".toList then
      if argument.isEmpty then none else some ((c.skipWhile isBlank).skipWhile fun x => !isSpace x)
    else none
  return { s.emit .directive with cursor := ← restOfLine? c }

def flowStart? (s : Scan) (t : Token) : Option Scan := do
  let s ← s.saveKey?
  return { s.punctuation 1 t with keys := none :: s.keys, keyAllowed := true }

def flowEnd? (s : Scan) (t : Token) : Option Scan := do
  let s ← s.dropKey?
  let keys := if s.inFlow then s.keys.tail else s.keys
  return { s.punctuation 1 t with keys, keyAllowed := false }

/-- The comma of a flow collection. -/
def flowEntry? (s : Scan) : Option Scan := do
  return { (← s.dropKey?).punctuation 1 .flowEntry with keyAllowed := true }

/-- Opens a block collection where an indicator stands; it may only stand where a key may. -/
def rollHere? (s : Scan) (t : Token) : Option Scan :=
  if s.inFlow then some s
  else if s.keyAllowed then some (s.roll s.cursor.column s.tokens.size t)
  else none

/-- The dash of a block sequence. -/
def blockEntry? (s : Scan) : Option Scan := do
  let s ← s.rollHere? .blockSequenceStart
  return { (← s.dropKey?).punctuation 1 .blockEntry with keyAllowed := true }

/-- The question mark in front of a key. -/
def explicitKey? (s : Scan) : Option Scan := do
  let s ← s.rollHere? .blockMappingStart
  return { (← s.dropKey?).punctuation 1 .key with keyAllowed := !s.inFlow }

/-- The colon behind a key. -/
def value? (s : Scan) : Option Scan :=
  match s.key? with
  | some k =>
    let s := s.insert k.position .key
    let s := s.roll k.cursor.column k.position .blockMappingStart
    some { (s.setKey none).punctuation 1 .value with keyAllowed := false }
  | none => do
    let s ← s.rollHere? .blockMappingStart
    return { s.punctuation 1 .value with keyAllowed := !s.inFlow }

/-- A character of the name of an anchor. -/
def isNameChar (c : Char) : Bool := c.isAlphanum || c == '-' || c == '_'

/-- The name of an anchor or of the place that refers to one. -/
def anchored? (s : Scan) (t : String → Token) : Option Scan := do
  let s ← s.saveKey?
  let (name, c) := s.cursor.next.takeWhile isNameChar
  let isOver := c.endsAt 0 fun x =>
    isSpace x || ['?', ':', ',', ']', '}', '%', '@', (Char.ofNat 0x60)].contains x
  if name.isEmpty || !isOver then none
  else return { s.emit (t (String.ofList name)) with cursor := c, keyAllowed := false }

/-- Characters of a tag. -/
def isTagChar (c : Char) : Bool :=
  isNameChar c || [';', '/', '?', ':', '@', '&', '=', '+', '$', '.', '!', '~', '*', '\'', '(', ')',
    '%'].contains c

/-- Whether a tag uses a shorthand with a name of its own. -/
def hasNamedHandle (c : Cursor) : Bool :=
  let (name, c) := c.takeWhile isNameChar
  !name.isEmpty && c.at? '!'

/-- A tag. Tags are passed over; shorthands with names are not known. -/
def tag? (s : Scan) : Option Scan := do
  let s ← s.saveKey?
  let c := s.cursor.next
  let c ← if c.at? '<' then
      let (uri, c) := c.next.takeWhile fun x => isTagChar x || [',', '[', ']'].contains x
      if uri.isEmpty || !c.at? '>' then none else some c.next
    else if hasNamedHandle c then none
    else some (c.skipWhile isTagChar)
  if c.endsAt 0 isSpace || (s.inFlow && c.at? ',') then
    return { s.emit .tag with cursor := c, keyAllowed := false }
  else none

def block? (s : Scan) (isLiteral : Bool) : Option Scan := do
  let s ← s.dropKey?
  let (text, cursor) ← scanBlock? isLiteral s.indent? s.cursor
  return { s.emit (.scalar false (String.ofList text)) with cursor, keyAllowed := true }

def quoted? (s : Scan) (quote : Char) : Option Scan := do
  let s ← s.saveKey?
  let (text, cursor) ← scanQuoted? quote s.cursor
  return { s.emit (.scalar false (String.ofList text)) with cursor, keyAllowed := false }

def plain? (s : Scan) : Option Scan := do
  let s ← s.saveKey?
  let found ← scanPlain? s.inFlow s.innerIndent s.cursor
  return { s.emit (.scalar true (String.ofList found.text)) with
    cursor := found.cursor, keyAllowed := found.passedBreak }

/-- Characters that start something else than a plain value. -/
def isIndicator (c : Char) : Bool :=
  ['-', '?', ':', ',', '[', ']', '{', '}', '#', '&', '*', '!', '|', '>', '\'', '"', '%', '@',
    (Char.ofNat 0x60)].contains c

/-- Whether a plain value starts here. -/
def startsPlain (s : Scan) (x : Char) : Bool :=
  !(isSpace x || isIndicator x) || (x == '-' && !s.cursor.next.here isBlank) ||
    (!s.inFlow && (x == '?' || x == ':') && !s.cursor.endsAt 1 isSpace)

/-- The token that starts with a character. -/
def token? (s : Scan) (x : Char) : Option Scan :=
  let loose := s.inFlow || s.cursor.endsAt 1 isSpace
  if s.cursor.column == 0 && x == '%' then s.directive?
  else if s.cursor.atMark "---" then s.documentMark? .documentStart
  else if s.cursor.atMark "..." then s.documentMark? .documentEnd
  else if x == '[' then s.flowStart? .flowSequenceStart
  else if x == '{' then s.flowStart? .flowMappingStart
  else if x == ']' then s.flowEnd? .flowSequenceEnd
  else if x == '}' then s.flowEnd? .flowMappingEnd
  else if x == ',' then s.flowEntry?
  else if x == '-' && s.cursor.endsAt 1 isSpace then s.blockEntry?
  else if x == '?' && loose then s.explicitKey?
  else if x == ':' && loose then s.value?
  else if x == '*' then s.anchored? .alias
  else if x == '&' then s.anchored? .anchor
  else if x == '!' then s.tag?
  else if x == '|' && !s.inFlow then s.block? true
  else if x == '>' && !s.inFlow then s.block? false
  else if x == '\'' || x == '"' then s.quoted? x
  else if s.startsPlain x then s.plain?
  else none

/-- Ends the text: everything is left. -/
def finish? (s : Scan) : Option (List Token) := do
  return (← (s.unroll none).dropKey?).tokens.toList

/-- The tokens from here on. Each takes at least one character. -/
def all? : Nat → Scan → Option (List Token)
  | 0, s => s.finish?
  | fuel + 1, s => do
    let s ← (passBlanks (s.cursor.rest.length + 1) s).dropStale?
    let s := s.unroll (some s.cursor.column)
    match s.cursor.peek? with
    | none => s.finish?
    | some x => all? fuel (← s.token? x)

end Scan

/-- The tokens of a text, which may start with a byte order mark. -/
def tokens? (text : List Char) : Option (List Token) :=
  let text := match text with
    | x :: rest => if x.toNat = 0xFEFF then rest else text
    | [] => []
  if text.all isAllowed then Scan.all? (text.length + 1) (.ofText text) else none

end HomeMetering.Yaml
