import HomeMetering.Failure
import HomeMetering.Telegram.Basic

/-!
# Telegrams from a stream of bytes

A port delivers bytes in pieces of any size, and now and then fails. The reader cuts them into
lines, waits for a header line and collects until a trailer line. What cannot be text drops the
telegram at hand: a line that is too long, bytes that are no characters, a telegram that is too
long. A failure of the port is handed on and drops it as well.
-/

namespace HomeMetering.Telegram

/-- What one read of a port yields. -/
inductive Delivery where
  | bytes (bs : List UInt8)
  | failure (f : IoFailure)
  /-- The stream has ended for good. -/
  | hangUp
  deriving Repr, DecidableEq

/-- What the reader hands on. -/
inductive Outcome where
  | telegram (t : Telegram)
  | rejected (e : TelegramError)
  | failed (f : IoFailure)
  deriving Repr, DecidableEq

/-- The reader between two bytes. -/
structure Reader where
  /-- The bytes of the line at hand, the latest first. -/
  line : List UInt8
  /-- The text of the telegram at hand. -/
  collected : List Char
  deriving Repr, DecidableEq

namespace Reader

/-- A line of so many bytes is complete, and too long unless it ends just there. -/
def maxLine : Nat := 1024

/-- A telegram of more bytes is dropped. -/
def maxTelegram : Nat := 8192

def newline : UInt8 := 10

def fresh : Reader := ⟨[], []⟩

def startsWith (c : Char) (line : List Char) : Bool := line.head? == some c

/-- The text of a line, if it can be one. -/
def text? (raw : List UInt8) : Option (List Char) :=
  if raw.length = maxLine && raw.getLast? != some newline then none
  else Text.Utf8.decode? raw

/-- The telegram that ends with a line, or what is collected after it. -/
def takeText (collected line : List Char) : List Char × Option (Except TelegramError Telegram) :=
  let collected := if startsWith '/' line then [] else collected
  if collected.isEmpty && !startsWith '/' line then ([], none)
  else
    let text := collected ++ line
    if startsWith '!' line then ([], some (parse text))
    else if maxTelegram < Text.Utf8.size text then ([], none)
    else (text, none)

/-- A telegram or the reason why it was rejected. -/
def outcomeOf : Except TelegramError Telegram → Outcome
  | .ok t => .telegram t
  | .error e => .rejected e

def takeLine (collected : List Char) (raw : List UInt8) : Reader × Option Outcome :=
  match text? raw with
  | none => (fresh, none)
  | some line =>
    let (collected, result) := takeText collected line
    (⟨[], collected⟩, result.map outcomeOf)

def push (r : Reader) (b : UInt8) : Reader × Option Outcome :=
  let line := b :: r.line
  if b = newline || line.length = maxLine then takeLine r.collected line.reverse
  else ({ r with line }, none)

/-- Takes bytes up to the first outcome; gives the bytes that are left. -/
def takeBytes (r : Reader) : List UInt8 → Reader × Option (Outcome × List UInt8)
  | [] => (r, none)
  | b :: bs =>
    match r.push b with
    | (r, some o) => (r, some (o, bs))
    | (r, none) => takeBytes r bs

/-- What the end of the stream yields first: an unfinished line counts as one. -/
def finish (r : Reader) : Reader × Outcome :=
  if r.line.isEmpty then (fresh, .failed .endOfStream)
  else match takeLine r.collected r.line.reverse with
    | (_, some o) => (fresh, o)
    | (_, none) => (fresh, .failed .endOfStream)

/-- Reads up to the first outcome; without one, everything that was delivered is taken in. -/
def next (r : Reader) : List Delivery → Reader × Option Outcome × List Delivery
  | [] => (r, none, [])
  | .failure f :: ds => (fresh, some (.failed f), ds)
  | .hangUp :: ds =>
    let (r, o) := r.finish
    (r, some o, .hangUp :: ds)
  | .bytes bs :: ds =>
    match r.takeBytes bs with
    | (r, some (o, rest)) => (r, some o, .bytes rest :: ds)
    | (r, none) => next r ds

/-- Every outcome of some bytes, and the reader after them. -/
def allOfBytes (r : Reader) : List UInt8 → Reader × List Outcome
  | [] => (r, [])
  | b :: bs =>
    let (r, o) := r.push b
    let (r, os) := allOfBytes r bs
    (r, o.toList ++ os)

theorem allOfBytes_append (r : Reader) (as bs : List UInt8) :
    r.allOfBytes (as ++ bs) =
      (((r.allOfBytes as).1.allOfBytes bs).1,
        (r.allOfBytes as).2 ++ ((r.allOfBytes as).1.allOfBytes bs).2) := by
  induction as generalizing r with
  | nil => rfl
  | cons a as ih => simp only [List.cons_append, allOfBytes, ih, List.append_assoc]

/-- What the end of the stream yields: at last that it has ended. -/
def last (r : Reader) : List Outcome :=
  match r.finish.2 with
  | .failed .endOfStream => [.failed .endOfStream]
  | o => [o, .failed .endOfStream]

/-- Every outcome of a whole stream. -/
def all (r : Reader) : List Delivery → List Outcome
  | [] => r.last
  | .hangUp :: _ => r.last
  | .failure f :: ds => .failed f :: all fresh ds
  | .bytes bs :: ds =>
    let (r, os) := r.allOfBytes bs
    os ++ all r ds

end Reader

end HomeMetering.Telegram
