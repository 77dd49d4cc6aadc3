import HomeMetering.Meter.Prober
import HomeMetering.Proofs.Site.Jobs

/-!
# What identifying a meter asks for

Whoever identifies a device uses the connection of the link and nothing else, and the meter that is
found keeps that link.
-/

namespace HomeMetering

open Modbus Site Site.Job

/-! ## Registers -/

namespace Modbus

theorem all_readBlock (client : ClientId) (unit : UInt8) (block : Block) :
    (readBlock client unit block).All (Request.IsOn client) fun _ => True :=
  .bind (.request rfl) fun _ _ => .bind (.request rfl) fun _ _ =>
    .bind (.request rfl) fun _ _ => .bind (.request rfl) fun _ _ => .done trivial

theorem all_writeRegister (client : ClientId) (unit : UInt8) (address value : UInt16) :
    (writeRegister client unit address value).All (Request.IsOn client) fun _ => True :=
  .bind (.request rfl) fun _ _ => .bind (.request rfl) fun _ _ =>
    .bind (.request rfl) fun _ _ => .bind (.request rfl) fun _ _ => .done trivial

theorem Link.all_read (l : Link) (block : Block) :
    (l.read block).All (Request.IsOn l.client) fun _ => True :=
  all_readBlock l.client l.unit block

end Modbus

/-! ## Brands -/

namespace Meter

variable {K : Type} [Quantity K]

theorem CarloGavazzi.all_readOne (link : Link) (address : UInt16) :
    (readOne link address).All (Request.IsOn link.client) fun _ => True :=
  .bind (link.all_read _) fun _ _ => .done trivial

theorem CarloGavazzi.all_ensureApplicationH (link : Link) :
    (ensureApplicationH link).All (Request.IsOn link.client) fun _ => True := by
  refine .bind (all_readOne link _) fun application _ => ?_
  cases application with
  | error e => exact .done trivial
  | ok application =>
    dsimp only
    split
    · exact .done trivial
    · refine .bind (all_readOne link _) fun selector _ => ?_
      cases selector with
      | error e => exact .done trivial
      | ok selector =>
        dsimp only
        split
        · exact .done trivial
        · exact .bind (all_writeRegister ..) fun _ _ => .done trivial

theorem CarloGavazzi.all_probe (link : Link) (setup : Setup) :
    (probe link setup : Job (Except MeterError (CarloGavazzi K))).All (Request.IsOn link.client)
      fun r => ∀ m, r = .ok m → m.link = link := by
  refine .bind (link.all_read _) fun model _ => ?_
  cases model with
  | error e => exact .done (by simp)
  | ok registers =>
    dsimp only
    split
    · exact .done (by simp)
    · refine .bind (link.all_read _) fun serial _ => ?_
      split
      · refine .bind (all_ensureApplicationH link) fun switched _ => .done ?_
        cases switched <;> simp [Except.map]
      · exact .done (by simp)

theorem Abb.all_probe (link : Link) (setup : Setup) :
    (probe link setup : Job (Except MeterError (Abb K))).All (Request.IsOn link.client)
      fun r => ∀ m, r = .ok m → m.link = link := by
  refine .bind (link.all_read _) fun designation _ => ?_
  cases designation with
  | error e => exact .done (by simp)
  | ok registers =>
    dsimp only
    split
    · exact .done (by simp)
    · split
      · exact .done (by simp)
      · exact .bind (link.all_read _) fun serial _ => .done (by simp)

theorem Victron.all_probe (link : Link) (setup : Setup) :
    (probe link setup : Job (Except MeterError (Victron K))).All (Request.IsOn link.client)
      fun r => ∀ m, r = .ok m → m.link = link := by
  unfold probe
  split
  · exact .done (by simp)
  · refine .bind (all_readBlock ..) fun serial _ => ?_
    cases serial with
    | error e => exact .done (by simp)
    | ok registers =>
      dsimp only
      split
      · exact .done (by simp)
      · exact .done (by simp)

theorem Dsmr.all_probe (device : String) (baud : Nat) (setup : Setup) (timeout : Nat) :
    (probe device baud setup timeout : Job (Except MeterError (Dsmr K))).All Request.IsUse
      fun _ => True := by
  refine .bind (.request trivial) fun port _ => ?_
  cases port with
  | error failure => exact .done trivial
  | ok port =>
    refine .bind (.request trivial) fun first _ => ?_
    split
    · exact .done trivial
    · exact .done trivial
    · exact .done trivial
    · exact .bind (.request trivial) fun _ _ => .done trivial

end Meter

namespace Slot

theorem all_wrap {K M : Type} {x : Job (Except MeterError M)} {linkOf : M → Link} {link : Link}
    (hx : x.All (Request.IsOn link.client) fun r => ∀ m, r = .ok m → linkOf m = link)
    (wrap : M → Meter K) (hwrap : ∀ m, (wrap m).link? = some (linkOf m)) :
    (x >>= fun r => pure (r.map wrap)).All (Request.IsOn link.client)
      fun r => ∀ m, r = .ok m → m.link? = some link := by
  refine .bind hx fun r hr => .done ?_
  cases r with
  | error e => simp [Except.map]
  | ok m => simp [Except.map, hwrap, hr m rfl]

variable {K : Type} [Quantity K]

theorem probeBrand_isOn (brand : Brand) (link : Link) (setup : Setup) :
    (probeBrand brand link setup : Job (Except MeterError (Meter K))).All
      (Request.IsOn link.client) fun r => ∀ m, r = .ok m → m.link? = some link := by
  cases brand with
  | carloGavazzi => exact all_wrap (Meter.CarloGavazzi.all_probe link setup) _ fun _ => rfl
  | abb => exact all_wrap (Meter.Abb.all_probe link setup) _ fun _ => rfl
  | victron => exact all_wrap (Meter.Victron.all_probe link setup) _ fun _ => rfl
  | dsmr => exact .done (by simp)

theorem all_probeBrand (brand : Brand) (link : Link) (setup : Setup) :
    (probeBrand brand link setup : Job (Except MeterError (Meter K))).All Request.IsUse
      fun r => ∀ m, r = .ok m → m.link? = some link :=
  (probeBrand_isOn brand link setup).imp (fun _ hq => hq.isUse) fun _ h => h

/-! ## Around the identification -/

theorem all_warn (text : String) : (warn text).All Request.IsUse fun _ => True :=
  .request trivial

theorem all_rates (s : Slot) (url : ConnectUrl) :
    (s.rates url).All Request.IsUse fun _ => True := by
  unfold rates
  split
  · exact .done trivial
  · refine .bind (.request trivial) fun cached _ => ?_
    cases cached with
    | none => exact .done trivial
    | some client =>
      refine .bind (.request trivial) fun _ _ => .bind (.request trivial) fun rate _ =>
        .bind (.request trivial) fun _ _ => ?_
      dsimp only
      split
      · exact .bind (all_warn _) fun _ _ => .done trivial
      · exact .done trivial

theorem all_tryPort (s : Slot) (device : String) (timeout : Nat) (rates : List Nat) :
    (s.tryPort device timeout rates : Job (Option (Meter K))).All Request.IsUse
      fun found => ∀ m ∈ found, m.link? = none := by
  induction rates with
  | nil => exact .done (by simp)
  | cons baud rest ih =>
    refine .bind (Meter.Dsmr.all_probe ..) fun r _ => ?_
    cases r with
    | error e => exact ih
    | ok m => exact .done (by simp [Meter.link?])

theorem all_probePort (s : Slot) (timeout : Nat) :
    (s.probePort timeout : Job (Option (Meter K))).All Request.IsUse
      fun found => ∀ m ∈ found, m.link? = none := by
  unfold probePort
  split
  · exact .bind (all_warn _) fun _ _ => .done (by simp)
  · split
    · exact s.all_tryPort _ _ _
    · exact .bind (all_warn _) fun _ _ => .done (by simp)

end Slot

end HomeMetering
