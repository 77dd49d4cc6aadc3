import HomeMetering.Decimal.Reading
import HomeMetering.Text.Lines
import HomeMetering.Yaml.Node

/-!
# Typed reading

How parts of a document become values. Texts and names take scalars of any style, numbers and flags
only plain ones. A collection may be left out where it may be empty; a record is a mapping whose
known members stand in it once, or a sequence of the members in their order.
-/

namespace HomeMetering.Yaml.Node

def text? : Node → Option String
  | scalar _ text => some text
  | _ => none

def plain? : Node → Option String
  | scalar true text => some text
  | _ => none

/-- Whether the part was left out. -/
def isAbsent : Node → Bool
  | scalar isPlain text => isPlain && text.isEmpty
  | _ => false

/-- The value of a digit in bases up to sixteen. -/
def digit? (base : Nat) (c : Char) : Option Nat :=
  let value? :=
    if c.isDigit then some (c.toNat - 48)
    else if 'a' ≤ c ∧ c ≤ 'f' then some (c.toNat - 87)
    else if 'A' ≤ c ∧ c ≤ 'F' then some (c.toNat - 55)
    else none
  value?.filter (· < base)

/-- The number that digits of a base stand for. -/
def digits? (base : Nat) (cs : List Char) : Option Nat :=
  if cs.isEmpty then none
  else cs.foldlM (fun n c => (digit? base c).map fun d => n * base + d) 0

/-- The bases that a number may name in front of its digits. -/
def bases : List (String × Nat) := [("0x", 16), ("0o", 8), ("0b", 2)]

/-- Whether digits start with a zero that does not count. -/
def hasLeadingZero (cs : List Char) : Bool :=
  match cs with
  | '0' :: rest => !rest.isEmpty && rest.all Char.isDigit
  | _ => false

/-- A number with an optional plus sign in one of the bases, decimal without leading zeros. -/
def number? (text : String) : Option Nat :=
  let cs := match text.toList with
    | '+' :: r => r
    | cs => cs
  let marked (mark : String) (base : Nat) := (Text.dropFront? mark.toList cs).bind (digits? base)
  match bases.findSome? fun (mark, base) => marked mark base with
  | some n => some n
  | none => if hasLeadingZero cs then none else digits? 10 cs

/-- A number below a bound. -/
def natural? (bound : Nat) (n : Node) : Option Nat := do
  (← number? (← n.plain?)) |> fun x => if x < bound then some x else none

/-- The words for numbers that are not finite. -/
def words : List (String × Float) :=
  [(".inf", 1.0 / 0.0), (".Inf", 1.0 / 0.0), (".INF", 1.0 / 0.0), ("-.inf", -1.0 / 0.0),
   ("-.Inf", -1.0 / 0.0), ("-.INF", -1.0 / 0.0), ("+.inf", 1.0 / 0.0), ("+.Inf", 1.0 / 0.0),
   ("+.INF", 1.0 / 0.0), (".nan", 0.0 / 0.0), (".NaN", 0.0 / 0.0), (".NAN", 0.0 / 0.0)]

/-- A number that may have a fraction. -/
def double? (n : Node) : Option Float := do
  let text ← n.plain?
  match words.lookup text with
  | some x => return x
  | none => (Decimal.read? text.toList).filter Float.isFinite

def flag? (n : Node) : Option Bool := do
  let text ← n.plain?
  if ["true", "True", "TRUE"].contains text then return true
  else if ["false", "False", "FALSE"].contains text then return false
  else none

/-- A value that may be missing: left out, a tilde, or a word for nothing. -/
def option? {α : Type} (read : Node → Option α) (n : Node) : Option (Option α) :=
  if (n.plain?).any fun t => ["", "~", "null", "Null", "NULL"].contains t then some none
  else (read n).map some

def list? {α : Type} (read : Node → Option α) : Node → Option (List α)
  | seq items => items.mapM read
  | n => if n.isAbsent then some [] else none

/-- The known members of a record. -/
structure Fields where
  members : List (String × Node)
  /-- Whether the members were named, and not only listed. -/
  areNamed : Bool

/-- A record with members of some names; others are passed over. -/
def record? (names : List String) : Node → Option Fields
  | map members => do
    let named ← members.mapM fun (k, v) => (text? k).map fun name => (name, v)
    let known := named.filter fun m => names.contains m.1
    if (known.map Prod.fst).Nodup then return ⟨known, true⟩ else none
  | seq items => if items.length ≤ names.length then some ⟨names.zip items, false⟩ else none
  | n => if n.isAbsent then some ⟨[], true⟩ else none

namespace Fields

variable {α : Type}

/-- A member that must be there. -/
def required? (f : Fields) (name : String) (read : Node → Option α) : Option α :=
  (f.members.lookup name).bind read

/-- A member that has a default. -/
def default? (f : Fields) (name : String) (value : α) (read : Node → Option α) : Option α :=
  match f.members.lookup name with
  | some n => read n
  | none => some value

/-- A member that may be missing where members are named. -/
def optional? (f : Fields) (name : String) (read : Node → Option α) : Option (Option α) :=
  match f.members.lookup name with
  | some n => n.option? read
  | none => if f.areNamed then some none else none

end Fields

end HomeMetering.Yaml.Node
