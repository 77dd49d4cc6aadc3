import HomeMetering.Source
import HomeMetering.Site.Basic

/-!
# When ticks happen

Ticks are due at even distances from the start. A tick begins when it is due and the one before it
is over. One that begins late leaves out what it missed: the next one is due at the first even
distance after its beginning.
-/

namespace HomeMetering.Schedule

/-- Milliseconds that a tick may be late without anything being left out. -/
def tolerance : Nat := 5

/-- When the next tick is due, after one that was due and began at the given times. -/
def nextDue (interval due began : Nat) : Nat :=
  if due + tolerance < began then began + interval - (began - due) % interval else due + interval

/-- A tick that begins late does not make the next one due before it. -/
theorem lt_nextDue (interval due began : Nat) (h : 0 < interval) :
    due < nextDue interval due began := by
  unfold nextDue
  split
  · have := Nat.mod_lt (began - due) h
    omega
  · omega

/-- When the ticks before a time begin, from one that is due at `due` and may begin at `free`;
each takes `duration` milliseconds. -/
def startsFrom (interval duration limit due free : Nat) : List Nat :=
  let began := max due free
  if _h : began < limit ∧ 0 < interval then
    began :: startsFrom interval duration limit (nextDue interval due began) (began + duration)
  else []
termination_by limit - due
decreasing_by
  have := lt_nextDue interval due (max due free) _h.2
  omega

/-- When the ticks before a time begin. -/
def starts (interval duration limit : Nat) : List Nat :=
  startsFrom interval duration limit interval 0

variable {K : Type} [Quantity K]

/-- Milliseconds that a tick takes. -/
def duration : List (Meter K) → Nat
  | [] => 0
  | m :: rest => m.delay + duration rest

/-- When the polls of each meter begin, given when the ticks begin. -/
def polls (limit : Nat) (starts : List Nat) : List (Meter K) → List (List Nat)
  | [] => []
  | m :: rest =>
    starts.filter (· < limit) :: polls limit (starts.map (· + m.delay)) rest

/-- Runs a number of ticks and gives what each of them publishes. -/
def ticks (now : Instant) : Nat → Source K → Site → List (Publication K)
  | 0, _, _ => []
  | n + 1, s, site =>
    let ((published, s), site) := (s.tick now).run site
    published :: ticks now n s site

/-- What a source did until it was stopped. -/
structure Report where
  /-- When the polls of each meter began. -/
  polls : List (List Nat)
  /-- Ticks that were finished. -/
  tickCount : Nat
  /-- Ticks that published readings of electricity. -/
  published : Nat
  /-- How often each meter was let go of. -/
  shutdowns : List Nat
  /-- Whether a second start would have done anything while the source ran. -/
  canStartTwice : Bool
  /-- Whether a start would do anything after it was stopped. -/
  canRestart : Bool
  deriving Repr, DecidableEq

/-- Runs a source from its start up to a time, and stops it then. -/
def run (now : Instant) (limit : Nat) (s : Source K) (site : Site) : Report :=
  let duration := duration s.meters
  let begun := starts s.interval duration limit
  let tickCount := (begun.filter fun t => t + duration < limit).length
  let started := s.start.2.runner
  let (stopped, deeds) := started.run started.stopping
  { polls := polls limit begun s.meters
    tickCount
    published := ((ticks now tickCount s site).filter fun p => p.electricity.isSome).length
    shutdowns := (List.range s.meters.length).map fun i => deeds.count (.shutdown i)
    canStartTwice := started.canStart
    canRestart := stopped.canStart }

end HomeMetering.Schedule
