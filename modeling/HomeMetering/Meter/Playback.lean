import HomeMetering.Meter.Readings

/-!
# Playback

A meter without a device: it plays recorded readings back, one per poll, and stays at the last one.
-/

namespace HomeMetering.Meter

/-- A recorded reading, and whether the meter reported a change with it. -/
structure Frame (K : Type) where
  changed : Bool
  readings : Readings K

structure Playback (K : Type) where
  brand : Brand
  model : String
  serial : String
  setup : Setup
  frames : List (Frame K)
  /-- How many milliseconds a poll takes. -/
  delay : Nat

namespace Playback

variable {K : Type} [Quantity K]

/-- Writes the lines and attributes that the meter is set up for; other values unless zero. -/
def fill (setup : Setup) (played r : Readings K) : Readings K :=
  let pairs := phasePairs setup.lines false
  { state := if setup.has .state then mergeState r.state played.state pairs else r.state
    usage := if setup.has .usage then
        mergeUsage r.usage played.usage pairs (coversAllLines setup.lines)
      else r.usage
    battery := if played.battery.isZero then r.battery else played.battery
    gas := if played.gas.isZero then r.gas else played.gas
    water := if played.water.isZero then r.water else played.water }

def update (m : Playback K) (r : Readings K) : Bool × Readings K × Playback K :=
  match m.frames with
  | [] => (false, r, m)
  | [last] => (last.changed, fill m.setup last.readings r, m)
  | next :: rest => (next.changed, fill m.setup next.readings r, { m with frames := rest })

end Playback

end HomeMetering.Meter
