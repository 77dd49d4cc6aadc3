import HomeMetering.Proofs.Meter.Wiring

/-!
# Searches that nobody disturbs

A search writes at most when it has found its meter, and asks nothing of the bus afterwards. So
where nobody else changes the devices, they answer it as they did at first.
-/

namespace HomeMetering

open Modbus Site Site.Job

namespace Meter

variable {K : Type} [Quantity K]

theorem CarloGavazzi.writesLast_readOne (link : Link) (address : UInt16) :
    (readOne link address).WritesLast fun _ => False :=
  .after (writesLast_readBlock _ _ _) fun _ => trivial

theorem CarloGavazzi.writesLast_ensureApplicationH (link : Link) :
    (ensureApplicationH link).WritesLast fun r => r.isOk := by
  refine .after (writesLast_readOne link _) fun application => ?_
  cases application with
  | error e => exact trivial
  | ok application =>
    dsimp only
    split_ifs
    · exact trivial
    · refine .after (writesLast_readOne link _) fun selector => ?_
      cases selector with
      | error e => exact trivial
      | ok selector =>
        dsimp only
        split_ifs
        · exact trivial
        · refine .bind (writesLast_writeRegister _ _ _ _) (fun _ => trivial) ?_
          rintro _ rfl
          exact .done rfl

theorem CarloGavazzi.writesLast_probe (link : Link) (setup : Setup) :
    (probe link setup : Job (Except MeterError (CarloGavazzi K))).WritesLast fun r => r.isOk := by
  refine .after (writesLast_readBlock _ _ _) fun model => ?_
  cases model with
  | error e => exact trivial
  | ok registers =>
    dsimp only
    split
    · exact trivial
    · refine .after (writesLast_readBlock _ _ _) fun serial => ?_
      split_ifs
      · refine .bind (writesLast_ensureApplicationH link) (fun _ => trivial) fun switched h => ?_
        refine .done ?_
        cases switched with
        | error e => cases h
        | ok done => rfl
      · exact trivial

theorem Abb.writesLast_probe (link : Link) (setup : Setup) :
    (probe link setup : Job (Except MeterError (Abb K))).WritesLast fun _ => False := by
  refine .after (writesLast_readBlock _ _ _) fun designation => ?_
  cases designation with
  | error e => exact trivial
  | ok registers =>
    dsimp only
    split_ifs
    · exact trivial
    · split
      · exact trivial
      · exact .after (writesLast_readBlock _ _ _) fun _ => trivial

theorem Victron.writesLast_probe (link : Link) (setup : Setup) :
    (probe link setup : Job (Except MeterError (Victron K))).WritesLast fun _ => False := by
  unfold probe
  split_ifs
  · exact trivial
  · refine .after (writesLast_readBlock _ _ _) fun serial => ?_
    cases serial with
    | error e => exact trivial
    | ok registers =>
      dsimp only
      split_ifs <;> exact trivial

end Meter

namespace Slot

variable {K : Type} [Quantity K]

theorem writesLast_probeBrand (brand : Brand) (link : Link) (setup : Setup) :
    (probeBrand brand link setup : Job (Except MeterError (Meter K))).WritesLast
      fun r => r.isOk := by
  unfold probeBrand
  cases brand with
  | carloGavazzi =>
    refine .bind (Meter.CarloGavazzi.writesLast_probe link setup) (fun _ => trivial) fun r h => ?_
    refine .done ?_
    cases r with
    | error e => cases h
    | ok m => rfl
  | abb => exact .after (Meter.Abb.writesLast_probe link setup) fun _ => trivial
  | victron => exact .after (Meter.Victron.writesLast_probe link setup) fun _ => trivial
  | dsmr => exact trivial

theorem writesLast_tryBrands (s : Slot) (client : ClientId) (baud : Nat) (brands : List Brand) :
    (s.tryBrands client baud brands : Job (Option (Meter K))).WritesLast fun r => r.isSome := by
  induction brands with
  | nil => exact trivial
  | cons brand rest ih =>
    refine .bind (writesLast_probeBrand brand _ _) (fun found => ?_) fun found h => ?_
    · cases found with
      | error e => exact ih
      | ok m => exact fun _ => trivial
    · cases found with
      | error e => cases h
      | ok m => exact ⟨trivial, fun _ => rfl⟩

theorem writesLast_getOrOpen (url : String) (baud : Nat) :
    (getOrOpen url baud).WritesLast fun _ => False := by
  intro cached
  cases cached with
  | some client => exact trivial
  | none =>
    intro opened
    cases opened with
    | error e => exact trivial
    | ok client =>
      intro winner
      cases winner with
      | none => exact trivial
      | some winner => exact fun _ _ _ => trivial

theorem writesLast_tryRates (s : Slot) (isSerial : Bool) (brands : List Brand) (rates : List Nat) :
    (s.tryRates isSerial brands rates : Job (Option (Meter K))).WritesLast fun r => r.isSome := by
  induction rates with
  | nil => exact trivial
  | cons baud rest ih =>
    refine .after (writesLast_getOrOpen s.connect baud) fun opened => ?_
    rcases opened with e | ⟨client, wasOpen⟩
    · exact ih
    · refine .bind (s.writesLast_tryBrands client _ brands) (fun found => ?_) fun found h => ?_
      · cases found with
        | some m => exact trivial
        | none =>
          cases wasOpen with
          | true => exact ih
          | false =>
            refine .after (fun taken => ?_) fun _ => ih
            cases taken with
            | none => exact trivial
            | some client => exact fun _ _ _ => trivial
      · cases found with
        | none => cases h
        | some m => exact .done rfl

theorem writesLast_rates (s : Slot) (url : ConnectUrl) :
    (s.rates url).WritesLast fun _ => False := by
  unfold Slot.rates
  split
  · exact trivial
  · intro cached
    cases cached with
    | none => exact trivial
    | some client =>
      intro _ rate _
      dsimp only
      split
      · exact fun _ => trivial
      · exact trivial

/-- A search asks nothing of a bus once it wrote something there. -/
theorem writesLast_probe {s : Slot} (hbus : s.transport = .modbus) (timeout : Nat) :
    (s.probe timeout : Job (Option (Meter K))).WritesLast fun _ => True := by
  have hwarn : ∀ text, (warn text).WritesLast fun _ => False := fun text _ => trivial
  have hreport : ∀ found : Option (Meter K), (s.report found).WritesLast fun _ => True := by
    intro found
    cases found with
    | none => exact .after (hwarn _) fun _ => trivial
    | some m => exact trivial
  rw [probe_eq, search_of_modbus hbus]
  refine .bind (Q := fun r => r.isSome) ?_ hreport fun found h => ?_
  · by_cases hfit : s.IsUnfit
    · obtain ⟨text, hprobe⟩ := probeBus_of_isUnfit (K := K) hfit
      rw [hprobe]
      exact .after (hwarn _) fun _ => trivial
    · obtain ⟨url, -, hprobe⟩ := probeBus_of_not_isUnfit (K := K) hfit
      rw [hprobe]
      exact .after (s.writesLast_rates url) fun rates => s.writesLast_tryRates _ _ rates
  · cases found with
    | none => cases h
    | some m => exact .done trivial

/-- Where nobody changes the devices meanwhile, a search meets a bus that answers alike. -/
theorem runsUnder_probe {s : Slot} (hbus : s.transport = .modbus) (timeout : Nat) (a : Site) :
    (s.probe timeout : Job (Option (Meter K))).RunsUnder ((a.conduct s.connect).Agrees s.connect) a
      ((s.probe timeout).run a).1 ((s.probe timeout : Job (Option (Meter K))).run a).2 :=
  (writesLast_probe hbus timeout).runsUnder rfl

end Slot

end HomeMetering
