import HomeMetering.Modbus.Error
import HomeMetering.Modbus.Register
import HomeMetering.Modbus.Registry
import HomeMetering.Telegram.Reader

/-!
# Jobs

Whatever talks to the hardware is a job: a series of requests, each of which happens at once and
depends on the answers before it. Between two requests of a job those of other jobs can happen.
-/

namespace HomeMetering.Site

open Modbus

/-- A telegram port that was opened; ports are numbered in the order of their opening. -/
abbrev PortId := Nat

inductive Severity where
  | warning
  | error
  deriving Repr, DecidableEq

/-- One request to the site. -/
inductive Request where
  /-- The shared client of an address. -/
  | cached (url : String)
  /-- Enters a client that was just opened. -/
  | adopt (url : String) (client : ClientId)
  /-- Takes out a client without leases. -/
  | evict (url : String)
  /-- Counts one more lease. -/
  | lease (url : String)
  /-- Counts one lease less. -/
  | giveBack (url : String)
  /-- Opens a connection. -/
  | connect (url : String) (baud : Nat)
  /-- Waits until nobody else drives a client, and keeps others from it. -/
  | lock (client : ClientId)
  | unlock (client : ClientId)
  /-- Sets the unit that the following requests go to. -/
  | select (client : ClientId) (unit : UInt8)
  | read (client : ClientId) (block : Block)
  | write (client : ClientId) (address value : UInt16)
  /-- The rate of the bus that a client is connected to. -/
  | rate (client : ClientId)
  | close (client : ClientId)
  | openPort (device : String) (baud : Nat)
  /-- What a port yields first, if anything within some milliseconds. -/
  | firstTelegram (port : PortId) (timeout : Nat)
  /-- Keeps reading a port in the background. -/
  | follow (port : PortId) (first : Telegram)
  /-- The telegram that came last, with its number. -/
  | latest (port : PortId)
  | unfollow (port : PortId)
  | note (severity : Severity) (text : String)
  deriving Repr

abbrev Request.Answer : Request → Type
  | cached _ => Option ClientId
  | adopt _ _ => Option ClientId
  | evict _ => Option ClientId
  | lease _ => Unit
  | giveBack _ => Option ClientId
  | connect _ _ => Except BusError ClientId
  | lock _ => Unit
  | unlock _ => Unit
  | select _ _ => Unit
  | read _ _ => Except BusError (List UInt16)
  | write _ _ _ => Except BusError Unit
  | rate _ => Nat
  | close _ => Except BusError Unit
  | openPort _ _ => Except IoFailure PortId
  | firstTelegram _ _ => Option Telegram.Outcome
  | follow _ _ => Unit
  | latest _ => Option (Nat × Telegram)
  | unfollow _ => Unit
  | note _ _ => Unit

/-- A job that ends with a value. -/
inductive Job (α : Type) where
  | done (a : α)
  | ask (q : Request) (next : q.Answer → Job α)

namespace Job

variable {α β : Type}

/-- One job after another. -/
def bind : Job α → (α → Job β) → Job β
  | done a, f => f a
  | ask q next, f => ask q fun answer => (next answer).bind f

instance : Monad Job where
  pure := done
  bind := bind

def request (q : Request) : Job q.Answer := ask q done

def isDone : Job α → Bool
  | done _ => true
  | ask _ _ => false

def result? : Job α → Option α
  | done a => some a
  | ask _ _ => none

/-- What the job ends with when every request has one answer. -/
def outcome (answer : (q : Request) → q.Answer) : Job α → α
  | done a => a
  | ask q next => (next (answer q)).outcome answer

theorem bind_done (x : Job α) : x.bind done = x := by
  induction x with
  | done _ => rfl
  | ask q next ih => simp only [bind, ih]

theorem bind_assoc {γ : Type} (x : Job α) (f : α → Job β) (g : β → Job γ) :
    (x.bind f).bind g = x.bind fun a => (f a).bind g := by
  induction x with
  | done _ => rfl
  | ask q next ih => simp only [bind, ih]

instance : LawfulMonad Job :=
  LawfulMonad.mk' Job bind_done (fun _ _ => rfl) bind_assoc

theorem outcome_bind (answer : (q : Request) → q.Answer) (x : Job α) (f : α → Job β) :
    (x.bind f).outcome answer = (f (x.outcome answer)).outcome answer := by
  induction x with
  | done _ => rfl
  | ask q next ih => exact ih (answer q)

end Job

end HomeMetering.Site
