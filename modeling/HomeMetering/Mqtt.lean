import HomeMetering.Event.Basic

/-!
# Messages for a broker

Every event becomes a message under a topic of its source and family.
-/

namespace HomeMetering.Mqtt

/-- How the broker is reached. -/
structure Settings where
  host : String
  port : Nat
  user : String
  pass : String
  clientName : String
  topicRoot : String
  deriving Repr, DecidableEq

/-- Characters that have a meaning in topics. -/
def isReserved (c : Char) : Bool := c == '/' || c == '+' || c == '#'

/-- A source as one level of a topic. -/
def level (source : String) : String := source.map fun c => if isReserved c then '_' else c

/-- The root of topics without the separators it ends in. -/
def trimRoot (root : String) : String :=
  String.ofList (root.toList.reverse.dropWhile (· == '/')).reverse

/-- The topic of a source and a kind of events. -/
def topic (root source kind : String) : String :=
  trimRoot root ++ "/" ++ level source ++ "/" ++ kind

/-- A message. Every one is delivered at least once and none is retained. -/
structure Message where
  topic : String
  payload : String
  deriving Repr, DecidableEq

/-- The message for an event. -/
def Message.ofOccurrence (root id : String) (o : Occurrence) : Message where
  topic := Mqtt.topic root o.event.source o.family.name
  payload := (o.event.toJson o.family id).text

/-- How a client introduces itself. -/
structure Login where
  client : String
  credentials : Option (String × String)
  /-- Seconds between signs of life. -/
  keepAlive : Nat
  deriving Repr, DecidableEq

/-- The introduction of a client: credentials only when there is a user. -/
def Settings.login (s : Settings) : Login :=
  ⟨s.clientName, if s.user.isEmpty then none else some (s.user, s.pass), 5⟩

structure Received where
  login : Option Login
  messages : List Message
  deriving Repr, DecidableEq

/-- What a broker gets of some events; one that cannot be reached gets nothing. -/
def Settings.received (s : Settings) (isReachable : Bool) (id : String)
    (occurrences : List Occurrence) : Received :=
  if isReachable then ⟨some s.login, occurrences.map (.ofOccurrence s.topicRoot id)⟩
  else ⟨none, []⟩

end HomeMetering.Mqtt
