import HomeMetering.Meter.Readings
import HomeMetering.Telegram.Basic

/-!
# What a telegram contributes

Power, voltage and current stand in a telegram per line. Energy stands in it as totals of two
tariffs, so every line gets an even share.
-/

namespace HomeMetering.Telegram

open Electricity

/-- Power that the net delivers, per line, in kW. -/
def deliveredCode : PerLine String := ⟨"1-0:21.7.0", "1-0:41.7.0", "1-0:61.7.0"⟩

/-- Power that the net receives, per line, in kW. -/
def receivedCode : PerLine String := ⟨"1-0:22.7.0", "1-0:42.7.0", "1-0:62.7.0"⟩

def voltageCode : PerLine String := ⟨"1-0:32.7.0", "1-0:52.7.0", "1-0:72.7.0"⟩

def currentCode : PerLine String := ⟨"1-0:31.7.0", "1-0:51.7.0", "1-0:71.7.0"⟩

/-- Energy consumed, per tariff. -/
def consumedCodes : List String := ["1-0:1.8.1", "1-0:1.8.2"]

/-- Energy provided, per tariff. -/
def providedCodes : List String := ["1-0:2.8.1", "1-0:2.8.2"]

/-- What a telegram says about one tick. -/
structure Values (K : Type) where
  state : State
  usage : Usage K
  gas : Volume
  water : Volume

/-- A number that counts as zero when the telegram does not carry it. -/
def numberOf (t : Telegram) (codes : PerLine String) (line : LineIndex) : Float :=
  (((codes.get? line).bind t.number?)).getD 0.0

def addLine (t : Telegram) (s : State) (line : LineIndex) : State :=
  let watts := (t.numberOf deliveredCode line - t.numberOf receivedCode line) * 1000.0
  { power := s.power.set line (Decimal.Binary.singleOfDouble watts)
    voltage := s.voltage.set line (Decimal.Binary.singleOfDouble (t.numberOf voltageCode line))
    current := s.current.set line (Decimal.Binary.singleOfDouble (t.numberOf currentCode line)) }

/-- The state of the lines that exist. -/
def stateOf (t : Telegram) (lines : List LineIndex) : State :=
  (lines.filter (· < lineCount)).foldl t.addLine .zero

/-- The counters spread over the lines, and their totals. -/
def usageOf {K : Type} [Quantity K] (number? : String → Option K) (lines : List LineIndex) :
    Usage K :=
  let consumed := (sumOf? number? consumedCodes).getD Quantity.zero
  let provided := (sumOf? number? providedCodes).getD Quantity.zero
  let spread := (lines.filter (· < lineCount)).foldl (fun (u : Usage K) line =>
    { u with
      consumed := u.consumed.set line (Meter.splitEvenly consumed lines)
      provided := u.provided.set line (Meter.splitEvenly provided lines) }) .zero
  { spread with setConsumed := consumed, setProvided := provided }

/-- The last reading of a kind among the devices. -/
def volumeOf (kind : DeviceKind) (devices : List Device) : Volume :=
  devices.foldl (fun v d =>
    match d.reading with
    | some x => if d.kind = kind then ⟨x⟩ else v
    | none => v) .zero

/-- Everything that a telegram says about some lines. -/
def values {K : Type} [Quantity K] (t : Telegram) (lines : List LineIndex) : Values K :=
  { state := t.stateOf lines
    usage := usageOf (fun code => (t.number? code).map Quantity.ofDouble) lines
    gas := volumeOf .gas t.devices
    water := volumeOf .water t.devices }

end HomeMetering.Telegram
