/-!
# Lines

A connection has up to three lines, numbered from zero. Values per line are written only for lines
that exist.
-/

namespace HomeMetering

/-- Number of a line or of a device's phase, from zero. -/
abbrev LineIndex := Nat

def lineCount : Nat := 3

/-- A line was named that no connection has. -/
structure LineOutOfRange where
  line : LineIndex
  deriving Repr, DecidableEq

def LineOutOfRange.message (e : LineOutOfRange) : String :=
  "line index " ++ toString e.line ++ " is out of range, must be below 3"

structure PerLine (α : Type) where
  first : α
  second : α
  third : α
  deriving Repr, DecidableEq, BEq

namespace PerLine

variable {α β : Type}

/-- The same value on every line. -/
def const (a : α) : PerLine α := ⟨a, a, a⟩

def get? (p : PerLine α) : LineIndex → Option α
  | 0 => some p.first
  | 1 => some p.second
  | 2 => some p.third
  | _ => none

/-- The values with one of them replaced; a line that does not exist changes nothing. -/
def set (p : PerLine α) (line : LineIndex) (a : α) : PerLine α :=
  match line with
  | 0 => { p with first := a }
  | 1 => { p with second := a }
  | 2 => { p with third := a }
  | _ => p

/-- The values in order of their lines. -/
def toList (p : PerLine α) : List α := [p.first, p.second, p.third]

def map (f : α → β) (p : PerLine α) : PerLine β := ⟨f p.first, f p.second, f p.third⟩

/-- The values of a list in order, the rest filled up. -/
def ofList (fill : α) : List α → PerLine α
  | [] => const fill
  | [a] => ⟨a, fill, fill⟩
  | [a, b] => ⟨a, b, fill⟩
  | a :: b :: c :: _ => ⟨a, b, c⟩

theorem get?_set (p : PerLine α) (i j : LineIndex) (a : α) :
    (p.set i a).get? j = if i = j ∧ i < 3 then some a else p.get? j := by
  rcases i with _ | _ | _ | i <;> rcases j with _ | _ | _ | j <;> simp [set, get?]

end PerLine

/-- Fails for a line that does not exist. -/
def checkLine (line : LineIndex) : Except LineOutOfRange Unit :=
  if lineCount ≤ line then .error ⟨line⟩ else .ok ()

/-- The values with one of them replaced; fails for a line that does not exist. -/
def PerLine.put {α : Type} (p : PerLine α) (line : LineIndex) (a : α) :
    Except LineOutOfRange (PerLine α) := do
  checkLine line
  return p.set line a

end HomeMetering
