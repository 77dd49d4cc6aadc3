/-!
# Running a source

A source is started once. From then on a single runner waits for the next tick, polls one meter
after the other, and goes on until it is told to stop; then it lets go of every meter. A tick that
has begun is finished, and a runner that has ended is not started again.
-/

namespace HomeMetering

/-- What the runner of a source does at the moment. -/
inductive Runner.Stage where
  | idle
  /-- Waits for the next tick. -/
  | waiting
  /-- The meters before this number were polled in this tick. -/
  | polling (next : Nat)
  /-- The meters before this number were let go of. -/
  | closing (next : Nat)
  | ended
  deriving Repr, DecidableEq

/-- The runner of a source with some meters. -/
structure Runner where
  meters : Nat
  stage : Runner.Stage
  isCancelled : Bool
  deriving Repr, DecidableEq

namespace Runner

/-- What can happen to a runner. -/
inductive Action where
  | start
  | cancel
  /-- The next tick is due. -/
  | due
  /-- The runner, while it waits, sees that it was cancelled. -/
  | notice
  /-- The runner goes on with the meters. -/
  | proceed
  deriving Repr, DecidableEq

/-- What a runner does to a meter. -/
inductive Deed where
  | update (meter : Nat)
  | shutdown (meter : Nat)
  deriving Repr, DecidableEq

def new (meters : Nat) : Runner := ⟨meters, .idle, false⟩

/-- Whether a start would do anything. -/
def canStart (r : Runner) : Bool := r.stage == .idle

/-- The runner after an action, and what it did to a meter. -/
def act (r : Runner) : Action → Runner × Option Deed
  | .start => (if r.canStart then { r with stage := .waiting } else r, none)
  | .cancel => ({ r with isCancelled := true }, none)
  | .due => (if r.stage = .waiting then { r with stage := .polling 0 } else r, none)
  | .notice =>
    (if r.stage = .waiting ∧ r.isCancelled then { r with stage := .closing 0 } else r, none)
  | .proceed =>
    match r.stage with
    | .polling i =>
      if i < r.meters then ({ r with stage := .polling (i + 1) }, some (.update i))
      else ({ r with stage := .waiting }, none)
    | .closing i =>
      if i < r.meters then ({ r with stage := .closing (i + 1) }, some (.shutdown i))
      else ({ r with stage := .ended }, none)
    | _ => (r, none)

/-- The runner after some actions, and everything it did. -/
def run (r : Runner) : List Action → Runner × List Deed
  | [] => (r, [])
  | a :: rest =>
    let (r, deed) := r.act a
    let (r, deeds) := r.run rest
    (r, deed.toList ++ deeds)

/-- Everything that follows a cancellation while the runner waits. -/
def stopping (r : Runner) : List Action :=
  .cancel :: .notice :: List.replicate (r.meters + 1) .proceed

end Runner

end HomeMetering
