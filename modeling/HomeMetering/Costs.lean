import HomeMetering.Event.Basic

/-!
# Costs

Counters of energy become money. The first reading of a source sets a baseline; later readings are
billed by their distance to the one before. A reading older than the last one is ignored, and a
counter that went backwards belongs to another meter and sets a new baseline.
-/

namespace HomeMetering

open Electricity

/-- Prices of a kWh. -/
structure Tariff (K : Type) where
  importPrice : K
  exportPrice : K
  deriving Repr, DecidableEq

/-- The counters of a source at its last reading. -/
structure Baseline (K : Type) where
  consumed : K
  provided : K
  time : Instant
  deriving Repr, DecidableEq

abbrev Baselines (K : Type) := List (String × Baseline K)

variable {K : Type} [Quantity K]

namespace Tariff

/-- What two differences of the counters cost. -/
def bill (t : Tariff K) (consumed provided : K) : Costs K :=
  { consumed, provided, importCost := consumed * t.importPrice
    exportRevenue := provided * t.exportPrice }

end Tariff

namespace Baselines

/-- The baseline that a reading stands for. -/
def reading (e : Event (Energy K)) : Baseline K :=
  ⟨e.values.usage.totalConsumed, e.values.usage.totalProvided, e.time⟩

/-- Whether a reading comes too late to count. -/
def isLate (last : Option (Baseline K)) (now : Baseline K) : Bool :=
  match last with
  | some last => now.time.before last.time
  | none => false

/-- What a reading adds to the one before, if anything. -/
def difference (last : Option (Baseline K)) (now : Baseline K) : Option (K × K) :=
  match last with
  | none => none
  | some last =>
    if Quantity.less now.consumed last.consumed || Quantity.less now.provided last.provided then
      none
    else
      let consumed := now.consumed - last.consumed
      let provided := now.provided - last.provided
      if Quantity.isZero consumed && Quantity.isZero provided then none
      else some (consumed, provided)

/-- Takes a reading in: the differences to bill and the baselines after it. -/
def take (b : Baselines K) (e : Event (Energy K)) : Option (K × K) × Baselines K :=
  if e.values.usage.isZero then (none, b)
  else
    let now := reading e
    let last := b.lookup e.source
    if isLate last now then (none, b)
    else (difference last now, (e.source, now) :: b.filter fun entry => entry.1 != e.source)

end Baselines

/-- Turns readings into cost events. -/
structure Biller (K : Type) where
  tariff : Tariff K
  baselines : Baselines K

namespace Biller

def new (tariff : Tariff K) : Biller K := ⟨tariff, []⟩

/-- Takes a reading in; the cost event it causes is dated at `now`. -/
def take (b : Biller K) (now : Instant) (e : Event (Energy K)) :
    Option (Event (Costs K)) × Biller K :=
  let (difference, baselines) := b.baselines.take e
  (difference.map fun (consumed, provided) =>
    ⟨now, e.source, e.role, b.tariff.bill consumed provided⟩, { b with baselines })

end Biller

end HomeMetering
