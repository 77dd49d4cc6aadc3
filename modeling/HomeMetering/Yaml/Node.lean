import HomeMetering.Yaml.Token

/-!
# Documents

A document is a scalar, a sequence or a mapping. Anchors name parts of it, and a place that refers
to one holds the same part. The grammar follows the tokens; its depth is bounded by their number.
-/

namespace HomeMetering.Yaml

/-- A document or a part of one. -/
inductive Node where
  | scalar (isPlain : Bool) (text : String)
  | seq (items : List Node)
  | map (members : List (Node × Node))
  /-- A part that refers to one it is inside of. -/
  | cycle
  deriving Inhabited

namespace Node

/-- A value that is left out. -/
def absent : Node := .scalar true ""

/-- Anchors in the order of their appearance, the latest first, and the parts that are complete. -/
structure Anchors where
  names : List (String × Nat)
  parts : List (Nat × Node)

namespace Anchors

def empty : Anchors := ⟨[], []⟩

/-- Names a part that begins. -/
def start (a : Anchors) (name : String) : Nat × Anchors :=
  (a.names.length, { a with names := (name, a.names.length) :: a.names })

/-- Completes a part. -/
def complete (a : Anchors) (number : Option Nat) (n : Node) : Anchors :=
  match number with
  | some i => { a with parts := (i, n) :: a.parts }
  | none => a

/-- The part that was named last with a name. -/
def find? (a : Anchors) (name : String) : Option Node :=
  (a.names.lookup name).map fun i => (a.parts.lookup i).getD .cycle

end Anchors

/-- A reader: takes tokens, and knows the anchors before them. -/
abbrev Reader (α : Type) := StateT (List Token × Anchors) Option α

/-- The token at hand. -/
def peek : Reader (Option Token) := do
  return (← get).1.head?

/-- Passes the token at hand. -/
def pass : Reader Unit := modify fun (ts, a) => (ts.tail, a)

/-- Passes a token if it is the one at hand, and tells whether it was. -/
def passIf (t : Token) : Reader Bool := do
  if (← peek) == some t then
    pass
    return true
  else return false

/-- Passes the token at hand, which must be a certain one. -/
def expect (t : Token) : Reader Unit := do
  if !(← passIf t) then failure

/-- Passes an anchor if one is at hand, and names the part that begins. -/
def passAnchor : Reader (Option Nat) := do
  match ← peek with
  | some (.anchor name) =>
    pass
    modifyGet fun (ts, a) => let (i, a) := a.start name; (some i, (ts, a))
  | _ => return none

/-- Passes anchor and tag in front of a part, in either order: the number of the anchor, and whether
any stood there. -/
def properties : Reader (Option Nat × Bool) := do
  match ← passAnchor with
  | some i =>
    let _ ← passIf .tag
    return (some i, true)
  | none =>
    let hasTag ← passIf .tag
    let number ← if hasTag then passAnchor else pure none
    return (number, hasTag)

mutual

/-- A part: `inBlock` allows block collections, `isIndentless` a sequence as deep as its key. -/
def part : Nat → Bool → Bool → Reader Node
  | 0, _, _ => failure
  | fuel + 1, inBlock, isIndentless => do
    match ← peek with
    | some (.alias name) =>
      pass
      match (← get).2.find? name with
      | some n => return n
      | none => failure
    | _ =>
      let (number, found) ← properties
      let n ← content fuel inBlock isIndentless found
      modify fun (ts, a) => (ts, a.complete number n)
      return n

/-- A part behind its properties, which may stand for a value that is left out. -/
def content : Nat → Bool → Bool → Bool → Reader Node
  | 0, _, _, _ => failure
  | fuel + 1, inBlock, isIndentless, hasProperties => do
    match ← peek with
    | some (.scalar isPlain text) =>
      pass
      return .scalar isPlain text
    | some .flowSequenceStart =>
      pass
      return .seq (← flowItems fuel true)
    | some .flowMappingStart =>
      pass
      return .map (← flowMembers fuel true)
    | some .blockEntry =>
      if isIndentless then return .seq (← indentlessItems fuel)
      else if hasProperties then return absent
      else failure
    | some .blockSequenceStart =>
      if inBlock then
        pass
        return .seq (← blockItems fuel)
      else if hasProperties then return absent
      else failure
    | some .blockMappingStart =>
      if inBlock then
        pass
        return .map (← blockMembers fuel)
      else if hasProperties then return absent
      else failure
    | _ => if hasProperties then return absent else failure

/-- A part unless one of some tokens follows, which leaves it out. -/
def partUnless : Nat → List Token → Bool → Bool → Reader Node
  | 0, _, _, _ => failure
  | fuel + 1, closers, inBlock, isIndentless => do
    match ← peek with
    | some t => if closers.contains t then return absent else part fuel inBlock isIndentless
    | none => part fuel inBlock isIndentless

/-- The items of a block sequence. -/
def blockItems : Nat → Reader (List Node)
  | 0 => failure
  | fuel + 1 => do
    if ← passIf .blockEntry then
      let n ← partUnless fuel [.blockEntry, .blockEnd] true false
      return n :: (← blockItems fuel)
    else
      expect .blockEnd
      return []

/-- The items of a sequence that is as deep as its key. -/
def indentlessItems : Nat → Reader (List Node)
  | 0 => failure
  | fuel + 1 => do
    if ← passIf .blockEntry then
      let n ← partUnless fuel [.blockEntry, .key, .value, .blockEnd] true false
      return n :: (← indentlessItems fuel)
    else return []

/-- The members of a block mapping. -/
def blockMembers : Nat → Reader (List (Node × Node))
  | 0 => failure
  | fuel + 1 => do
    if ← passIf .key then
      let k ← partUnless fuel [.key, .value, .blockEnd] true true
      let v ← if ← passIf .value then partUnless fuel [.key, .value, .blockEnd] true true
        else pure absent
      return (k, v) :: (← blockMembers fuel)
    else
      expect .blockEnd
      return []

/-- The items of a flow sequence; a single pair counts as a mapping. -/
def flowItems : Nat → Bool → Reader (List Node)
  | 0, _ => failure
  | fuel + 1, isFirst => do
    if ← passIf .flowSequenceEnd then return []
    else
      if !isFirst then expect .flowEntry
      if ← passIf .flowSequenceEnd then return []
      else
        let n ← if ← passIf .key then
            let closers : List Token := [.flowEntry, .flowSequenceEnd]
            let k ← pairKey fuel (.value :: closers)
            let v ← if ← passIf .value then partUnless fuel closers false false else pure absent
            pure (Node.map [(k, v)])
          else part fuel false false
        return n :: (← flowItems fuel false)

/-- The key of a single pair in a flow sequence. Where it is left out, the token that shows it is
passed over with it. -/
def pairKey : Nat → List Token → Reader Node
  | 0, _ => failure
  | fuel + 1, closers => do
    match ← peek with
    | some t =>
      if closers.contains t then
        pass
        return absent
      else part fuel false false
    | none => failure

/-- The members of a flow mapping. -/
def flowMembers : Nat → Bool → Reader (List (Node × Node))
  | 0, _ => failure
  | fuel + 1, isFirst => do
    if ← passIf .flowMappingEnd then return []
    else
      if !isFirst then expect .flowEntry
      if ← passIf .flowMappingEnd then return []
      else
        let closers : List Token := [.flowEntry, .flowMappingEnd]
        let member ← if ← passIf .key then
            let k ← partUnless fuel (.value :: closers) false false
            let v ← if ← passIf .value then partUnless fuel closers false false else pure absent
            pure (k, v)
          else
            let k ← part fuel false false
            pure (k, absent)
        return member :: (← flowMembers fuel false)

end

/-- Directives in front of a document. -/
def directives : Nat → Reader Bool
  | 0 => return false
  | fuel + 1 => do
    if ← passIf .directive then
      let _ ← directives fuel
      return true
    else return false

/-- Marks for the end of a document; more than one may stand in a row. -/
def documentEnds : Nat → Reader Unit
  | 0 => return
  | fuel + 1 => do
    if ← passIf .documentEnd then documentEnds fuel

/-- The only document of a text; a text without one is a value that is left out. -/
def document (size : Nat) : Reader Node := do
  let n ← if (← peek).isNone then pure absent
    else
      let hasDirectives ← directives size
      if hasDirectives then expect .documentStart
      let isExplicit ← if hasDirectives then pure true else passIf .documentStart
      if isExplicit then
        match ← peek with
        | none => pure absent
        | some t =>
          if [Token.directive, .documentStart, .documentEnd].contains t then pure absent
          else part (4 * size + 4) true false
      else part (4 * size + 4) true false
  documentEnds size
  if (← peek).isSome then failure
  return n

/-- The document that a text holds. -/
def ofText? (text : List Char) : Option Node := do
  let tokens ← tokens? text
  return (← (document tokens.length).run (tokens, .empty)).1

end Node

end HomeMetering.Yaml
