/-!
# Names

The closed vocabularies of the domain and their spellings.
-/

namespace HomeMetering

/-- What an energy source is to the building. -/
inductive Role where
  | grid
  | pv
  | battery
  | evCharger
  deriving Repr, DecidableEq

namespace Role

/-- Every role. -/
def all : List Role := [grid, pv, battery, evCharger]

/-- The lower case name, used in messages and topics. -/
def name : Role → String
  | grid => "grid"
  | pv => "pv"
  | battery => "battery"
  | evCharger => "evcharger"

/-- The name in documents. -/
def title : Role → String
  | grid => "Grid"
  | pv => "Pv"
  | battery => "Battery"
  | evCharger => "EvCharger"

def ofTitle? (text : String) : Option Role := all.find? fun r => r.title == text

/-- The role that a user names: either spelling, and `PV`. -/
def ofName? (text : String) : Option Role :=
  if text = "PV" then some pv else all.find? fun r => r.title == text || r.name == text

end Role

/-- A vendor of meters, or the standard a family of meters follows. -/
inductive Brand where
  | abb
  | carloGavazzi
  | dsmr
  | victron
  deriving Repr, DecidableEq

namespace Brand

def all : List Brand := [abb, carloGavazzi, dsmr, victron]

def name : Brand → String
  | abb => "ABB"
  | carloGavazzi => "Carlo Gavazzi"
  | dsmr => "DSMR"
  | victron => "Victron"

def ofName? (text : String) : Option Brand := all.find? fun b => b.name == text

end Brand

/-- What a meter contributes: its instant values, its counters, or both. -/
inductive Attribute where
  | state
  | usage
  deriving Repr, DecidableEq

namespace Attribute

def all : List Attribute := [state, usage]

/-- The name in documents. -/
def name : Attribute → String
  | state => "state"
  | usage => "usage"

/-- The name in messages. -/
def title : Attribute → String
  | state => "State"
  | usage => "Usage"

def ofName? (text : String) : Option Attribute := all.find? fun a => a.name == text

end Attribute

/-- Which ticks hand their readings on. -/
inductive PublishPolicy where
  /-- Every tick with readings that are not zero. -/
  | always
  /-- Only ticks in which some meter reported a changed instant value. -/
  | onChange
  deriving Repr, DecidableEq

namespace PublishPolicy

def all : List PublishPolicy := [always, onChange]

/-- The name in documents. -/
def name : PublishPolicy → String
  | always => "Always"
  | onChange => "OnChange"

def ofName? (text : String) : Option PublishPolicy := all.find? fun p => p.name == text

end PublishPolicy

/-- How a slot reaches its meter. -/
inductive Transport where
  | modbus
  | serial
  deriving Repr, DecidableEq

namespace Transport

def all : List Transport := [modbus, serial]

/-- The name in documents. -/
def name : Transport → String
  | modbus => "modbus"
  | serial => "serial"

/-- The name in listings. -/
def title : Transport → String
  | modbus => "Modbus"
  | serial => "Serial"

def ofName? (text : String) : Option Transport := all.find? fun t => t.name == text

end Transport

end HomeMetering
