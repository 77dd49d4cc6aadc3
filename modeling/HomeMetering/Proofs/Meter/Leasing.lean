import HomeMetering.Proofs.Meter.Probing
import HomeMetering.Proofs.Modbus.Leases

/-!
# Searches and shutdowns mind their leases

A search takes its lease at the very end, with the meter that it found. A shutdown begins with the
lease that its meter has.
-/

namespace HomeMetering

open Modbus Site Site.Job

variable {K : Type}

/-- The address that a search leased for the meter that it found. -/
def leaseOfFound (found : Option (Meter K)) : Option String := found.bind Meter.leased?

def letGo : Option (Meter K) → Job (Option (Meter K))
  | none => pure none
  | some m => m.shutdown >>= fun m' => pure (some m')

/-! ## Searches -/

theorem leavesLeases_of_uses {α : Type} {x : Job α} {Q : α → Prop} (hx : x.All Request.IsUse Q) :
    x.All Request.LeavesLeases Q :=
  hx.imp (fun _ h => h.leavesRegistry.leavesLeases) fun _ h => h

theorem leaseOfFound_of_link {found : Option (Meter K)} (h : ∀ m ∈ found, m.link? = none) :
    leaseOfFound found = none := by
  cases found with
  | none => rfl
  | some m =>
    show m.leased? = none
    unfold Meter.leased?
    rw [h m rfl]
    rfl

theorem unleased_passing {x : Job (Option (Meter K))}
    {rest : Option (Meter K) → Job (Option (Meter K))} (hx : x.Unleased leaseOfFound)
    (hfound : ∀ m, rest (some m) = pure (some m)) (hrest : (rest none).Unleased leaseOfFound) :
    (x >>= rest).Unleased leaseOfFound := by
  have hsame : ∀ a, (rest a).leased? leaseOfFound = leaseOfFound a := by
    intro a
    cases a with
    | none => exact hrest.2
    | some m =>
      rw [hfound]
      rfl
  refine ⟨hx.1.bind (fun a => ?_) hsame fun a ha => ?_, (leased?_bind hsame x).trans hx.2⟩
  · cases a with
    | none => exact hrest.1
    | some m =>
      rw [hfound]
      trivial
  · cases a with
    | none => cases ha
    | some m =>
      rw [hfound]
      rfl

namespace Slot

variable [Quantity K]

theorem unleased_tryBrands (s : Slot) (client : ClientId) (baud : Nat) (brands : List Brand) :
    (s.tryBrands client baud brands : Job (Option (Meter K))).Unleased leaseOfFound := by
  induction brands with
  | nil => exact .done rfl
  | cons brand rest ih =>
    refine .after (leavesLeases_of_uses (all_probeBrand brand _ _)) fun r hlink => ?_
    cases r with
    | error e => exact ih
    | ok m =>
      have hleased : m.leased? = some s.connect :=
        Meter.leased?_eq_some.2 ⟨_, hlink m rfl, rfl, rfl⟩
      exact ⟨fun _ => ⟨trivial, hleased, fun _ => rfl⟩, rfl⟩

theorem unleased_tryRates (s : Slot) (isSerial : Bool) (brands : List Brand) (rates : List Nat) :
    (s.tryRates isSerial brands rates : Job (Option (Meter K))).Unleased leaseOfFound := by
  induction rates with
  | nil => exact .done rfl
  | cons baud rest ih =>
    refine .after (leavesLeases_getOrOpen ..) fun opened _ => ?_
    rcases opened with e | ⟨client, wasOpen⟩
    · exact ih
    · refine unleased_passing (s.unleased_tryBrands ..) (fun m => rfl) ?_
      cases wasOpen with
      | true => exact ih
      | false => exact .after (leavesLeases_removeUnused _) fun _ _ => ih

theorem unleased_probeBus (s : Slot) :
    (s.probeBus : Job (Option (Meter K))).Unleased leaseOfFound := by
  unfold probeBus
  split
  · exact .after (leavesLeases_of_uses (all_warn _)) fun _ _ => .done rfl
  · split
    · exact .after (leavesLeases_of_uses (all_warn _)) fun _ _ => .done rfl
    · exact .after (leavesLeases_of_uses (s.all_rates _)) fun rates _ =>
        s.unleased_tryRates _ _ rates

/-- A search has no lease until it ends with a meter. -/
theorem unleased_probe (s : Slot) (timeout : Nat) :
    (s.probe timeout : Job (Option (Meter K))).Unleased leaseOfFound := by
  have hsearch : (s.search timeout : Job (Option (Meter K))).Unleased leaseOfFound := by
    unfold search
    cases s.transport with
    | modbus => exact s.unleased_probeBus
    | serial =>
      exact .of_all (leavesLeases_of_uses (s.all_probePort timeout)) fun _ => leaseOfFound_of_link
  rw [probe_eq]
  refine unleased_passing hsearch (fun m => rfl) ?_
  exact .of_all (leavesLeases_of_uses (s.all_report none)) fun _ h => h ▸ rfl

end Slot

/-- A job that begins with a lease on an address, if on any: it gives it back first. -/
structure GivesBackFirst (x : Job (Option (Meter K))) (url : Option String) : Prop where
  minds : x.MindsLeases leaseOfFound
  leased : x.leased? leaseOfFound = url
  busy : url.isSome → x.isDone = false

theorem givesBackFirst_of_uses {x : Job (Option (Meter K))} (hx : x.Unleased leaseOfFound) :
    GivesBackFirst x none :=
  ⟨hx.1, hx.2, by rintro ⟨⟩⟩

theorem givesBackFirst_link (wrap : Link → Meter K) (hwrap : ∀ l, (wrap l).link? = some l)
    (l : Link) :
    GivesBackFirst ((l.release >>= fun l' => pure (wrap l')) >>= fun m => pure (some m))
      (leaseOfFound (some (wrap l))) := by
  have hlease : ∀ l, leaseOfFound (some (wrap l)) = if l.released then none else some l.url := by
    intro l
    show (wrap l).leased? = _
    unfold Meter.leased?
    rw [hwrap]
    rfl
  rw [hlease, LawfulMonad.bind_assoc]
  unfold Link.release
  by_cases hl : l.released
  · rw [if_pos hl, if_pos hl]
    refine givesBackFirst_of_uses (.done ?_)
    rw [hlease, if_pos hl]
  · -- The lease goes with the first request; what follows has none.
    rw [if_neg hl, if_neg hl]
    refine ⟨fun taken => ?_, rfl, fun _ => rfl⟩
    have hclosed : (closeTaken taken >>= fun _ => pure { l with released := true }).All
        Request.LeavesLeases fun l' => l'.released = true :=
      .bind (leavesLeases_closeTaken taken) fun _ _ => .done rfl
    have hrest : ((closeTaken taken >>= fun _ => pure { l with released := true }) >>=
        fun l' => pure (some (wrap l'))).Unleased leaseOfFound :=
      .after hclosed fun l' hl' => .done ((hlease l').trans (if_pos hl'))
    exact ⟨hrest.1, hrest.2, by rintro ⟨⟩⟩

/-- Letting go of a meter begins with the lease that the meter has, and ends without any. -/
theorem givesBackFirst_letGo (found : Option (Meter K)) :
    GivesBackFirst (letGo found) (leaseOfFound found) := by
  cases found with
  | none => exact givesBackFirst_of_uses (.done rfl)
  | some m =>
    cases m with
    | abb m => exact givesBackFirst_link (fun l => .abb { m with link := l }) (fun _ => rfl) _
    | carloGavazzi m =>
      exact givesBackFirst_link (fun l => .carloGavazzi { m with link := l }) (fun _ => rfl) _
    | victron m =>
      exact givesBackFirst_link (fun l => .victron { m with link := l }) (fun _ => rfl) _
    | dsmr m =>
      have hall : (Meter.shutdown (.dsmr m)).All Request.LeavesLeases fun m' => m' = .dsmr m :=
        .bind (.request (q := .unfollow m.port) trivial) fun _ _ => .done rfl
      exact givesBackFirst_of_uses (.after hall fun m' hm' => .done (hm' ▸ rfl))
    | playback m => exact givesBackFirst_of_uses (.done rfl)

end HomeMetering
