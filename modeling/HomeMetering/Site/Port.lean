import HomeMetering.Telegram.Reader

/-!
# Telegram ports

A port delivers bytes. Once a meter was found on it, a follower keeps reading in the background and
holds the latest telegram; a read that failed is tried again a second later, and the end of the
stream ends the follower.
-/

namespace HomeMetering.Site

open Telegram

/-- What a follower does at the moment. -/
inductive Phase where
  | reading
  /-- Waits for a time in milliseconds. -/
  | pausing (wake : Nat)
  | stopped
  deriving Repr, DecidableEq

/-- A reader in the background. -/
structure Follower where
  phase : Phase
  /-- Telegrams so far. -/
  count : Nat
  latest : Telegram
  deriving Repr

namespace Follower

/-- Milliseconds between a failed read and the next one. -/
def retryDelay : Nat := 1000

/-- A follower that was handed its first telegram. -/
def new (first : Telegram) : Follower := ⟨.reading, 1, first⟩

/-- Takes what the reader yields at a time. -/
def take (f : Follower) (now : Nat) : Outcome → Follower
  | .telegram t => { f with count := f.count + 1, latest := t }
  | .rejected _ => f
  | .failed .endOfStream => { f with phase := .stopped }
  | .failed _ => { f with phase := .pausing (now + retryDelay) }

end Follower

/-- An opened port. -/
structure Port where
  device : String
  reader : Reader
  /-- What was delivered and not read yet. -/
  pending : List Delivery
  follower : Option Follower

namespace Port

/-- A port that delivers something from its opening on. -/
def new (device : String) (pending : List Delivery) : Port := ⟨device, .fresh, pending, none⟩

/-- Reads what is there, and after a pause as long as it ends by the time `limit`. -/
def drain (f : Follower) (limit : Nat) :
    Nat → Reader → List Delivery → Follower × Reader × List Delivery
  | _, r, [] => (f, r, [])
  | now, r, .bytes bs :: ds =>
    let (r, outcomes) := r.allOfBytes bs
    drain (outcomes.foldl (fun f o => f.take now o) f) limit now r ds
  | now, _, .failure e :: ds =>
    let f := f.take now (.failed e)
    match f.phase with
    | .pausing wake =>
      if wake ≤ limit then drain { f with phase := .reading } limit wake .fresh ds
      else (f, .fresh, ds)
    | _ => (f, .fresh, ds)
  | now, r, .hangUp :: ds =>
    let last := (r.last.foldl (fun (f : Follower) o => f.take now o) f)
    (last, .fresh, .hangUp :: ds)

/-- Lets the follower read from a time up to another. -/
def advance (p : Port) (now limit : Nat) : Port :=
  match p.follower with
  | none => p
  | some f =>
    let read (f : Follower) (now : Nat) : Port :=
      let (f, reader, pending) := drain f limit now p.reader p.pending
      { p with reader, pending, follower := some f }
    match f.phase with
    | .reading => read f now
    | .pausing wake => if wake ≤ limit then read { f with phase := .reading } wake else p
    | .stopped => p

/-- What the port yields first of what is there. -/
def first (p : Port) : Option Outcome × Port :=
  let (reader, outcome, pending) := p.reader.next p.pending
  (outcome, { p with reader, pending })

def deliver (p : Port) (ds : List Delivery) : Port := { p with pending := p.pending ++ ds }

end Port

end HomeMetering.Site
