import HomeMetering.Proofs.Modbus.Custody

/-!
# Jobs that keep to the operations

A job may open, drop, lease and give back shared connections, and use them in between. Whatever it
does in which order, it is careful with the clients that come into its hands.
-/

namespace HomeMetering

open Modbus Site

namespace Site.Job

variable {α β : Type}

/-- A job that opens, drops, leases and gives back connections in any order, and uses them in
between; what it does next may depend on every answer. -/
inductive Orderly : Job α → Prop where
  | done (a : α) : Orderly (pure a)
  | getOrOpen (url : String) (baud : Nat) (next : Except BusError (ClientId × Bool) → Job α)
      (h : ∀ answer, Orderly (next answer)) : Orderly (Modbus.getOrOpen url baud >>= next)
  | removeUnused (url : String) (next : Unit → Job α) (h : ∀ answer, Orderly (next answer)) :
      Orderly (Modbus.removeUnused url >>= next)
  | lease (url : String) (next : Unit → Job α) (h : ∀ answer, Orderly (next answer)) :
      Orderly (request (.lease url) >>= next)
  | release (url : String) (next : Unit → Job α) (h : ∀ answer, Orderly (next answer)) :
      Orderly (Modbus.release url >>= next)
  | use (q : Request) (hq : q.IsUse) (next : q.Answer → Job α)
      (h : ∀ answer, Orderly (next answer)) : Orderly (ask q next)

theorem Orderly.bind {x : Job α} {f : α → Job β} (hx : x.Orderly) (hf : ∀ a, (f a).Orderly) :
    (x >>= f).Orderly := by
  induction hx with
  | done a => exact hf a
  | getOrOpen url baud next _ ih =>
    rw [LawfulMonad.bind_assoc]
    exact .getOrOpen url baud _ ih
  | removeUnused url next _ ih =>
    rw [LawfulMonad.bind_assoc]
    exact .removeUnused url _ ih
  | lease url next _ ih => exact .lease url _ ih
  | release url next _ ih =>
    rw [LawfulMonad.bind_assoc]
    exact .release url _ ih
  | use q hq next _ ih => exact .use q hq _ ih

theorem Orderly.of_all {x : Job α} {Q : α → Prop} (h : x.All Request.IsUse Q) : x.Orderly := by
  induction x with
  | done a => exact .done a
  | ask q next ih => exact .use q h.1 next fun answer => ih answer (h.2 answer)

theorem careful_closeClient (client : ClientId) : (closeClient client).Careful (.doomed client) :=
  ⟨rfl, fun _ => ⟨rfl, fun _ => ⟨trivial, fun _ => rfl⟩⟩⟩

theorem careful_closeTaken (taken : Option ClientId) :
    (closeTaken taken).Careful ((taken.map Custody.doomed).getD .nothing) := by
  cases taken with
  | none => rfl
  | some client => exact (careful_closeClient client).bind fun _ => rfl

theorem careful_removeUnused (url : String) : (removeUnused url).Careful .nothing := by
  refine ⟨trivial, fun taken => ?_⟩
  cases taken with
  | none => exact careful_closeTaken none
  | some client => exact careful_closeTaken (some client)

theorem careful_release (url : String) : (Modbus.release url).Careful .nothing := by
  refine ⟨trivial, fun taken => ?_⟩
  cases taken with
  | none => exact careful_closeTaken none
  | some client => exact careful_closeTaken (some client)

theorem careful_getOrOpen (url : String) (baud : Nat) :
    (getOrOpen url baud).Careful .nothing := by
  refine ⟨trivial, fun cached => ?_⟩
  cases cached with
  | some client => rfl
  | none =>
    refine ⟨trivial, fun opened => ?_⟩
    cases opened with
    | error e => rfl
    | ok client =>
      refine ⟨⟨rfl, rfl⟩, fun winner => ?_⟩
      cases winner with
      | none => rfl
      | some winner => exact (careful_closeClient client).bind fun _ => rfl

theorem Orderly.careful {x : Job α} (h : x.Orderly) : x.Careful .nothing := by
  induction h with
  | done a => rfl
  | getOrOpen url baud next _ ih => exact (careful_getOrOpen url baud).bind ih
  | removeUnused url next _ ih => exact (careful_removeUnused url).bind ih
  | lease url next _ ih => exact ⟨trivial, ih⟩
  | release url next _ ih => exact (careful_release url).bind ih
  | use q hq next _ ih =>
    refine ⟨Custody.permits_of_isUse hq, fun answer => ?_⟩
    rw [Custody.after_of_isUse hq]
    exact ih answer

end Site.Job

end HomeMetering
