import HomeMetering.Proofs.Meter.Leasing
import HomeMetering.Proofs.Meter.Life
import HomeMetering.Proofs.Meter.Switching

/-!
# Errands

What a process does with meters: it probes slots, polls the meters that it found, and lets go of
them, any number of these at once. All of them drive one client at a time, and the only register
that any of them writes is the one that switches an EM24.
-/

namespace HomeMetering

open Electricity Modbus Site Site.Job

variable {K : Type}

/-! ## Polls -/

namespace Meter

section

variable {n : Nat} {W : Dialogue → ClientId → UInt16 → UInt16 → Prop} {S : ClientId → Prop}

theorem polite_decoded {α : Type} {link : Link} (hlink : S link.client) (block : Block)
    (decode : List UInt16 → α) :
    (do return (← link.read block).map decode : Job (Except BusError α)).Polite n W S :=
  (polite_readBlock hlink link.unit block).bind fun _ => .done _

theorem polite_poll {setup : Setup} {now : Instant} {cache : Cache K}
    {instant : Job (Except BusError State)} {totals : Job (Except BusError (Usage K))}
    (hinstant : instant.Polite n W S) (htotals : totals.Polite n W S) :
    (poll setup now cache instant totals).Polite n W S := by
  have hstate : (pollState setup cache instant).Polite n W S := by
    unfold pollState
    split
    · refine hinstant.bind fun answer => ?_
      cases answer <;> exact .done _
    · exact .done _
  have husage : ∀ cache, (pollUsage setup now cache totals).Polite n W S := by
    intro cache
    unfold pollUsage
    split
    · split
      · refine htotals.bind fun answer => ?_
        cases answer <;> exact .done _
      · exact .done _
    · exact .done _
  exact hstate.bind fun _ => (husage _).bind fun _ => .done _

variable [Quantity K]

theorem Abb.polite_update (m : Abb K) (now : Instant) (r : Readings K) (hlink : S m.link.client) :
    (m.update now r).Polite n W S := by
  have htotals : m.readTotals.Polite n W S := by
    refine (polite_readBlock hlink _ _).bind fun totals => ?_
    cases totals with
    | error e => exact .done _
    | ok totals =>
      dsimp only
      split
      · exact .done _
      · exact polite_decoded hlink _ _
  exact (polite_poll (polite_decoded hlink _ _) htotals).bind fun _ => .done _

theorem CarloGavazzi.polite_update (m : CarloGavazzi K) (now : Instant) (r : Readings K)
    (hlink : S m.link.client) : (m.update now r).Polite n W S :=
  (polite_poll (polite_decoded hlink _ _) (polite_decoded hlink _ _)).bind fun _ => .done _

omit [Quantity K] in
theorem Victron.polite_identify (m : Victron K) (hlink : S m.link.client) :
    m.identify.Polite n W S := by
  refine (polite_readBlock hlink _ _).bind fun serial => ?_
  cases serial with
  | error e => exact .done _
  | ok registers =>
    refine (polite_readBlock hlink _ _).bind fun count => ?_
    cases count <;> exact .done _

omit [Quantity K] in
theorem Victron.all_identify_link (m : Victron K) :
    m.identify.All (fun _ => True) fun m' => m'.link = m.link := by
  refine .bind (.any _) fun serial _ => ?_
  cases serial with
  | error e => exact .done rfl
  | ok registers =>
    refine .bind (.any _) fun count _ => ?_
    cases count <;> exact .done rfl

theorem Victron.all_update_link (m : Victron K) (now : Instant) (r : Readings K) :
    (m.update now r).All (fun _ => True) fun x => x.2.2.link = m.link := by
  unfold Victron.update
  split
  · exact .bind (.any _) fun _ _ => .done rfl
  · split
    · exact .bind m.all_identify_link fun _ hm' => .bind (.any _) fun _ _ => .done hm'
    · have hsame : (pure m : Job (Victron K)).All (fun _ => True) fun m' => m'.link = m.link := rfl
      exact .bind hsame fun _ hm' => .bind (.any _) fun _ _ => .done hm'

theorem Victron.polite_update (m : Victron K) (now : Instant) (r : Readings K)
    (hlink : S m.link.client) : (m.update now r).Polite n W S := by
  have hidentified : ∀ m' : Victron K, m'.link = m.link →
      (poll m'.setup now m'.cache m'.readInstant m'.readTotals).Polite n W S := by
    intro m' hm'
    have hlink' : S m'.link.client := hm' ▸ hlink
    exact polite_poll (polite_decoded hlink' _ _) (polite_decoded hlink' _ _)
  unfold Victron.update
  split
  · refine Polite.bind ?_ fun answer => ?_
    · refine (polite_readBlock hlink _ _).bind fun registers => ?_
      cases registers with
      | error e => exact .done _
      | ok registers => exact (polite_readBlock hlink _ _).bind fun _ => .done _
    · cases answer <;> exact .done _
  · split
    · exact (m.polite_identify hlink).bind_of_all m.all_identify_link fun m' hm' =>
        (hidentified m' hm').bind fun _ => .done _
    · exact (hidentified m rfl).bind fun _ => .done _

/-- The client that a meter drives. -/
def Drives {K : Type} (m : Meter K) (client : ClientId) : Prop :=
  ∃ l, m.link? = some l ∧ l.client = client

theorem polite_update (m : Meter K) (now : Instant) (r : Readings K) :
    (m.update now r).Polite n W m.Drives := by
  cases m with
  | abb m => exact (m.polite_update now r ⟨_, rfl, rfl⟩).bind fun _ => .done _
  | carloGavazzi m => exact (m.polite_update now r ⟨_, rfl, rfl⟩).bind fun _ => .done _
  | victron m => exact (m.polite_update now r ⟨_, rfl, rfl⟩).bind fun _ => .done _
  | dsmr m =>
    intro past hgrip _
    exact ⟨trivial, fun _ => hgrip⟩
  | playback m => exact .done _

theorem all_update_link (m : Meter K) (now : Instant) (r : Readings K) :
    (m.update now r).All (fun _ => True) fun x => x.2.2.link? = m.link? := by
  cases m with
  | abb m | carloGavazzi m =>
    exact .bind (.bind (.any _) fun _ _ => .done (congrArg some rfl)) fun x hx => .done hx
  | victron m => exact .bind (m.all_update_link now r) fun x hx => .done (congrArg some hx)
  | dsmr m => exact .bind (.any _) fun _ _ => .done rfl
  | playback m => exact .done rfl

theorem polite_shutdown {K : Type} (m : Meter K) : m.shutdown.Polite n W S := by
  have hrelease : ∀ l : Link, l.release.Polite n W S := by
    intro l
    unfold Link.release
    split
    · exact .done _
    · exact (polite_release l.url).bind fun _ => .done _
  cases m with
  | abb m | carloGavazzi m | victron m => exact (hrelease m.link).bind fun _ => .done _
  | dsmr m =>
    intro past hgrip _
    exact ⟨trivial, fun _ => hgrip⟩
  | playback m => exact .done _

theorem all_shutdown_drives {K : Type} (m : Meter K) :
    m.shutdown.All (fun _ => True) fun m' => ∀ c, m'.Drives c → m.Drives c := by
  have hrelease : ∀ l : Link, l.release.All (fun _ => True) fun l' => l'.client = l.client := by
    intro l
    unfold Link.release
    split
    · exact .done rfl
    · exact .bind (.any _) fun _ _ => .done rfl
  cases m with
  | abb m | carloGavazzi m | victron m =>
    refine .bind (hrelease m.link) fun l hl => .done ?_
    rintro c ⟨l', hl', rfl⟩
    obtain rfl := Option.some.inj hl'
    exact ⟨_, rfl, hl.symm⟩
  | dsmr m => exact .bind (.any _) fun _ _ => .done fun _ h => h
  | playback m => exact .done fun _ h => h

/-! ## Probes -/

theorem Abb.polite_probe (link : Link) (setup : Setup) (hlink : S link.client) :
    (probe link setup : Job (Except MeterError (Abb K))).Polite n W S := by
  refine (polite_readBlock hlink _ _).bind fun designation => ?_
  cases designation with
  | error e => exact .done _
  | ok registers =>
    dsimp only
    split
    · exact .done _
    · split
      · exact .done _
      · exact (polite_readBlock hlink _ _).bind fun _ => .done _

theorem Victron.polite_probe (link : Link) (setup : Setup) (hlink : S link.client) :
    (probe link setup : Job (Except MeterError (Victron K))).Polite n W S := by
  unfold probe
  split
  · exact .done _
  · refine (polite_readBlock hlink _ _).bind fun serial => ?_
    cases serial with
    | error e => exact .done _
    | ok registers =>
      dsimp only
      split <;> exact .done _

theorem CarloGavazzi.polite_probe {units : UInt8 → Prop} (link : Link) (setup : Setup)
    (hlink : S link.client) (hunit : units link.unit) :
    (probe link setup : Job (Except MeterError (CarloGavazzi K))).Polite n (MaySwitch units) S := by
  intro past hgrip hknown
  refine (since_probe hgrip (hknown _ hlink) setup).imp ?_ fun _ _ h => h.1
  intro d q hdue
  refine hdue.imp ?_
  rintro client address value ⟨rfl, haddress, hvalue, d', hd, hfinds⟩
  exact ⟨haddress, hvalue, link.unit, d', past, hunit, hd, hfinds⟩

theorem Dsmr.polite_probe (device : String) (baud : Nat) (setup : Setup) (timeout : Nat) :
    (probe device baud setup timeout : Job (Except MeterError (Dsmr K))).Polite n W S := by
  intro past hgrip _
  refine ⟨trivial, fun port => ?_⟩
  cases port with
  | error failure => exact .done hgrip
  | ok port =>
    refine ⟨trivial, fun first => ?_⟩
    rcases first with _ | telegram | e | failure
    · exact .done hgrip
    · exact ⟨trivial, fun _ => hgrip⟩
    · exact .done hgrip
    · exact .done hgrip

end

end Meter

namespace Slot

variable {n : Nat} {W : Dialogue → ClientId → UInt16 → UInt16 → Prop} {S : ClientId → Prop}

theorem polite_warn (text : String) : (warn text).Polite n W S :=
  fun _ hgrip _ => ⟨trivial, fun _ => hgrip⟩

theorem polite_rates (s : Slot) (url : ConnectUrl) : (s.rates url).Polite n W S := by
  intro past hgrip hknown
  unfold rates
  split
  · exact .done hgrip
  · refine ⟨trivial, fun cached => ?_⟩
    cases cached with
    | none => exact .done hgrip
    | some client =>
      refine ⟨⟨hgrip, Dialogue.knows_cons rfl⟩, fun _ => ⟨rfl, fun rate => ⟨rfl, fun _ => ?_⟩⟩⟩
      dsimp only
      split
      · exact ⟨trivial, fun _ => rfl⟩
      · exact .done rfl

variable [Quantity K]

theorem polite_probeBrand {units : UInt8 → Prop} (brand : Brand) (link : Link) (setup : Setup)
    (hlink : S link.client) (hunit : units link.unit) :
    (probeBrand brand link setup : Job (Except MeterError (Meter K))).Polite n
      (Meter.CarloGavazzi.MaySwitch units) S := by
  cases brand with
  | carloGavazzi =>
    exact (Meter.CarloGavazzi.polite_probe link setup hlink hunit).bind fun _ => .done _
  | abb => exact (Meter.Abb.polite_probe link setup hlink).bind fun _ => .done _
  | victron => exact (Meter.Victron.polite_probe link setup hlink).bind fun _ => .done _
  | dsmr => exact .done _

/-- The unit that a slot names. -/
def OwnUnit (s : Slot) (unit : UInt8) : Prop := unit = s.unit

theorem polite_tryBrands (s : Slot) {client : ClientId} (hclient : S client) (baud : Nat)
    (brands : List Brand) :
    (s.tryBrands client baud brands : Job (Option (Meter K))).Polite n
      (Meter.CarloGavazzi.MaySwitch s.OwnUnit) S := by
  induction brands with
  | nil => exact .done _
  | cons brand rest ih =>
    let link : Link := ⟨client, s.connect, s.unit, baud, encodingOf brand, false⟩
    have hprobe : (probeBrand brand link s.setup : Job (Except MeterError (Meter K))).Polite n
        (Meter.CarloGavazzi.MaySwitch s.OwnUnit) S := polite_probeBrand brand link _ hclient rfl
    refine hprobe.bind fun found => ?_
    cases found with
    | error e => exact ih
    | ok meter => exact fun _ hgrip _ => ⟨trivial, fun _ => hgrip⟩

theorem all_tryBrands_link (s : Slot) (client : ClientId) (baud : Nat) (brands : List Brand) :
    (s.tryBrands client baud brands : Job (Option (Meter K))).All (fun _ => True)
      fun found => ∀ m ∈ found, ∀ c, m.Drives c → c = client := by
  induction brands with
  | nil => exact .done (by simp)
  | cons brand rest ih =>
    refine .bind ((all_probeBrand brand _ _).imp (fun _ _ => trivial) fun _ h => h)
      fun found h => ?_
    cases found with
    | error e => exact ih
    | ok meter =>
      refine .bind (.any _) fun _ _ => .done ?_
      rintro _ ⟨⟩ c ⟨l, hl, rfl⟩
      rw [h meter rfl] at hl
      cases hl
      rfl

end Slot

/-! ## Errands -/

/-- What a job has in its hands when it ends: no client to itself, and meters on connections that it
knows. -/
def EndsWith (n : Nat) (d : Dialogue) (found : Option (Meter K)) : Prop :=
  d.grip = none ∧ ∀ m ∈ found, ∀ c, m.Drives c → d.Knows n c

namespace Slot

variable [Quantity K] {n : Nat} {past : Dialogue}

theorem since_tryRates (s : Slot) (isSerial : Bool) (brands : List Brand) (rates : List Nat)
    (hgrip : past.grip = none) :
    (s.tryRates isSerial brands rates : Job (Option (Meter K))).Since
      (Request.Due n (Meter.CarloGavazzi.MaySwitch s.OwnUnit)) (EndsWith n) past := by
  induction rates generalizing past with
  | nil => exact .done ⟨hgrip, by simp⟩
  | cons baud rest ih =>
    refine (since_getOrOpen hgrip s.connect baud).bind ?_
    rintro d (e | ⟨client, wasOpen⟩) ⟨hd, hopened⟩
    · exact ih hd
    have hclient := hopened client wasOpen rfl
    have htry := s.polite_tryBrands (K := K) (S := (· = client)) (n := n) rfl
      (if isSerial then baud else 0) brands d hd fun c hc => hc ▸ hclient
    refine (htry.and_all (s.all_tryBrands_link client _ brands)).suffix.bind ?_
    rintro d' found ⟨⟨hd', hlinks⟩, hsuffix⟩
    cases found with
    | some meter =>
      refine .done ⟨hd', fun m hm c hc => ?_⟩
      rw [hlinks m hm c hc]
      exact hclient.mono hsuffix
    | none =>
      cases wasOpen with
      | true => exact ih hd'
      | false =>
        exact (polite_removeUnused (S := fun _ => False) s.connect d' hd' nofun).bind
          fun _ _ h => ih h

theorem since_probeBus (s : Slot) (hgrip : past.grip = none) :
    (s.probeBus : Job (Option (Meter K))).Since
      (Request.Due n (Meter.CarloGavazzi.MaySwitch s.OwnUnit)) (EndsWith n) past := by
  have hwarn : ∀ text, (warn text >>= fun _ => pure none : Job (Option (Meter K))).Since
      (Request.Due n (Meter.CarloGavazzi.MaySwitch s.OwnUnit)) (EndsWith n) past :=
    fun _ => ⟨trivial, fun _ => ⟨hgrip, by simp⟩⟩
  unfold probeBus
  split
  · exact hwarn _
  · split
    · exact hwarn _
    · exact (s.polite_rates (S := fun _ => False) _ past hgrip nofun).bind fun _ rates hd =>
        s.since_tryRates _ _ rates hd

theorem polite_tryPort {W : Dialogue → ClientId → UInt16 → UInt16 → Prop} {S : ClientId → Prop}
    (s : Slot) (device : String) (timeout : Nat) (rates : List Nat) :
    (s.tryPort device timeout rates : Job (Option (Meter K))).Polite n W S := by
  induction rates with
  | nil => exact .done _
  | cons baud rest ih =>
    refine (Meter.Dsmr.polite_probe device baud s.setup timeout).bind fun found => ?_
    cases found with
    | error e => exact ih
    | ok m => exact .done _

theorem polite_probePort {W : Dialogue → ClientId → UInt16 → UInt16 → Prop} {S : ClientId → Prop}
    (s : Slot) (timeout : Nat) :
    (s.probePort timeout : Job (Option (Meter K))).Polite n W S := by
  unfold probePort
  split
  · exact (polite_warn _).bind fun _ => .done _
  · split
    · exact s.polite_tryPort _ _ _
    · exact (polite_warn _).bind fun _ => .done _

theorem since_probe (s : Slot) (timeout : Nat) (hgrip : past.grip = none) :
    (s.probe timeout : Job (Option (Meter K))).Since
      (Request.Due n (Meter.CarloGavazzi.MaySwitch s.OwnUnit)) (EndsWith n) past := by
  have hsearch : (s.search timeout : Job (Option (Meter K))).Since
      (Request.Due n (Meter.CarloGavazzi.MaySwitch s.OwnUnit)) (EndsWith n) past := by
    unfold search
    cases s.transport with
    | modbus => exact s.since_probeBus hgrip
    | serial =>
      refine ((s.polite_probePort (S := fun _ => False) timeout past hgrip nofun).and_all
        (s.all_probePort timeout)).imp (fun _ _ h => h) ?_
      rintro d found ⟨hd, hlinks⟩
      refine ⟨hd, fun m hm c hc => ?_⟩
      obtain ⟨l, hl, -⟩ := hc
      rw [hlinks m hm] at hl
      cases hl
  rw [probe_eq]
  refine hsearch.bind ?_
  rintro d found ⟨hd, hknown⟩
  cases found with
  | some meter => exact .done ⟨hd, hknown⟩
  | none => exact ⟨trivial, fun _ => ⟨hd, by simp⟩⟩

end Slot

section

variable [Quantity K]

/-- A probe of a slot, a poll of a meter that was returned before, or letting go of one. -/
inductive Errand (returned : Meter K → Prop) : Job (Option (Meter K)) → Prop
  | probe (slot : Slot) (timeout : Nat) : Errand returned (slot.probe timeout)
  | poll (m : Meter K) (h : returned m) (now : Instant) (r : Readings K) :
      Errand returned (m.update now r >>= fun x => pure (some x.2.2))
  | letGo (m : Meter K) (h : returned m) : Errand returned (letGo (some m))

/-- The unit of the slot that an errand probes. -/
def ProbedUnit (errand : Job (Option (Meter K))) (unit : UInt8) : Prop :=
  ∃ (slot : Slot) (timeout : Nat), errand = slot.probe timeout ∧ slot.unit = unit

variable {n : Nat} {returned : Meter K → Prop} {errand : Job (Option (Meter K))}

theorem Errand.since (h : Errand returned errand)
    (hreturned : ∀ m, returned m → ∀ c, m.Drives c → c < n) :
    errand.Since (Request.Due n (Meter.CarloGavazzi.MaySwitch (ProbedUnit errand))) (EndsWith n)
      [] := by
  cases h with
  | probe slot timeout =>
    refine (slot.since_probe timeout rfl).imp ?_ fun _ _ h => h
    intro d q hdue
    refine hdue.imp ?_
    rintro client address value ⟨haddress, hvalue, unit, d', earlier, rfl, hd, hfinds⟩
    exact ⟨haddress, hvalue, slot.unit, d', earlier, ⟨slot, timeout, rfl, rfl⟩, hd, hfinds⟩
  | poll m hm now r =>
    have hknown : ∀ c, m.Drives c → Dialogue.Knows [] n c := fun c hc =>
      Or.inl (hreturned m hm c hc)
    refine ((m.polite_update now r [] rfl hknown).and_all (m.all_update_link now r)).bind ?_
    rintro d x ⟨hd, hlink⟩
    refine .done ⟨hd, ?_⟩
    rintro _ ⟨⟩ c ⟨l, hl, hc⟩
    exact Or.inl (hreturned m hm c ⟨l, hlink ▸ hl, hc⟩)
  | letGo m hm =>
    have hknown : ∀ c, m.Drives c → Dialogue.Knows [] n c := fun c hc =>
      Or.inl (hreturned m hm c hc)
    refine ((m.polite_shutdown [] rfl hknown).and_all m.all_shutdown_drives).bind ?_
    rintro d m' ⟨hd, hdrives⟩
    refine .done ⟨hd, ?_⟩
    rintro _ ⟨⟩ c hc
    exact Or.inl (hreturned m hm c (hdrives c hc))

end

end HomeMetering
