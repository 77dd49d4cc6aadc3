import HomeMetering.Proofs.Meter.LeftAlone
import Mathlib.Data.List.ProdSigma

/-!
# The first meter that identifies itself

A search on a bus tries rates one by one, and at each rate the brands in order. On a bus that
answers alike at one rate, it finds the first pair of a rate and a brand that works.
-/

namespace HomeMetering

open Modbus Site Site.Job

section

variable {ε α β : Type} (f : α → β) (x : Except ε α)

theorem isOk_map : (x.map f).isOk = x.isOk := by
  cases x <;> rfl

theorem isSome_toOption : x.toOption.isSome = x.isOk := by
  cases x <;> rfl

variable {f x}

theorem map_eq_ok {b : β} : x.map f = .ok b ↔ ∃ a, x = .ok a ∧ f a = b := by
  cases x <;> simp [Except.map]

theorem toOption_eq_some {a : α} : x.toOption = some a ↔ x = .ok a := by
  cases x <;> simp [Except.toOption]

end

/-! ## One brand at one rate -/

namespace Meter

variable {K : Type} [Quantity K] {b : Conduct} {rate : Nat} {set : UInt8}

/-! ### The number of a client makes no difference -/

theorem CarloGavazzi.outcome_ensureApplicationH (link : Link) (client : ClientId) :
    b.outcome rate set (ensureApplicationH { link with client }) =
      b.outcome rate set (ensureApplicationH link) := by
  unfold ensureApplicationH readOne Link.read
  simp only [LawfulMonad.bind_assoc, LawfulMonad.pure_bind, Conduct.outcome_readBlock]
  cases Except.map _ (Block.accept _ (b.registers rate link.unit (.holding applicationAddress 1)))
  case error e => rfl
  case ok application =>
    dsimp only
    split_ifs
    · rfl
    · rw [Conduct.outcome_readBlock, Conduct.outcome_readBlock]
      cases Except.map _ (Block.accept _ (b.registers rate link.unit (.holding selectorAddress 1)))
      case error e => rfl
      case ok selector =>
        dsimp only
        split_ifs <;> rfl

theorem CarloGavazzi.outcome_probe (link : Link) (client : ClientId) (setup : Setup) :
    (b.outcome rate set (probe { link with client } setup) :
      Except MeterError (CarloGavazzi K)).isOk =
      (b.outcome rate set (probe link setup) : Except MeterError (CarloGavazzi K)).isOk := by
  unfold probe Link.read
  rw [Conduct.outcome_readBlock, Conduct.outcome_readBlock]
  cases Block.accept _ (b.registers rate link.unit modelBlock) with
  | error e => rfl
  | ok registers =>
    dsimp only
    cases Family.ofModelId? (registers.headD 0).toNat with
    | none => rfl
    | some family =>
      dsimp only
      rw [Conduct.outcome_readBlock, Conduct.outcome_readBlock]
      split_ifs
      · rw [Conduct.outcome_map, Conduct.outcome_map, outcome_ensureApplicationH]
        cases b.outcome rate link.unit (ensureApplicationH link) <;> rfl
      · rfl

theorem Abb.outcome_probe (link : Link) (client : ClientId) (setup : Setup) :
    (b.outcome rate set (probe { link with client } setup) : Except MeterError (Abb K)).isOk =
      (b.outcome rate set (probe link setup) : Except MeterError (Abb K)).isOk := by
  unfold probe Link.read
  rw [Conduct.outcome_readBlock, Conduct.outcome_readBlock]
  cases Block.accept _ (b.registers rate link.unit designationBlock) with
  | error e => rfl
  | ok registers =>
    dsimp only
    split_ifs
    · rfl
    · cases Family.ofDesignation? (asciiText registers) <;> rfl

theorem Victron.outcome_probe (link : Link) (client : ClientId) (setup : Setup) :
    (b.outcome rate set (probe { link with client } setup) : Except MeterError (Victron K)).isOk =
      (b.outcome rate set (probe link setup) : Except MeterError (Victron K)).isOk := by
  unfold probe
  split_ifs
  · rfl
  · rw [Conduct.outcome_readBlock, Conduct.outcome_readBlock]
    cases Block.accept _ (b.registers rate systemUnit systemSerialBlock) with
    | error e => rfl
    | ok registers =>
      dsimp only
      split_ifs <;> rfl

end Meter

namespace Slot

variable {K : Type} [Quantity K] {b : Conduct} {rate : Nat} {set : UInt8}

theorem outcome_probeBrand (brand : Brand) (link : Link) (client : ClientId) (setup : Setup) :
    (b.outcome rate set (probeBrand brand { link with client } setup) :
      Except MeterError (Meter K)).isOk =
      (b.outcome rate set (probeBrand brand link setup) : Except MeterError (Meter K)).isOk := by
  unfold probeBrand
  cases brand with
  | carloGavazzi =>
    rw [Conduct.outcome_map, Conduct.outcome_map, isOk_map, isOk_map]
    exact Meter.CarloGavazzi.outcome_probe link client setup
  | abb =>
    rw [Conduct.outcome_map, Conduct.outcome_map, isOk_map, isOk_map]
    exact Meter.Abb.outcome_probe link client setup
  | victron =>
    rw [Conduct.outcome_map, Conduct.outcome_map, isOk_map, isOk_map]
    exact Meter.Victron.outcome_probe link client setup
  | dsmr => rfl

theorem outcome_set (brand : Brand) (link : Link) (setup : Setup) (other : UInt8) :
    (b.outcome rate set (probeBrand brand link setup) : Except MeterError (Meter K)) =
      b.outcome rate other (probeBrand brand link setup) := by
  cases brand with
  | carloGavazzi | abb | dsmr => rfl
  | victron =>
    unfold probeBrand
    rw [Conduct.outcome_map, Conduct.outcome_map]
    unfold Meter.Victron.probe
    split_ifs <;> rfl

end Slot

/-! ## What a search is expected to find -/

/-- The rate of the open client of an address. -/
def Site.openRate? (s : Site) (url : String) : Option Nat :=
  (s.registry.cached? url).bind fun c => (s.open? c).map Prod.snd

namespace Slot

/-- The rates that a slot is searched at, given the one at which its bus is open already: a serial
bus keeps to that one, and a network has none. -/
def ratesTried (s : Slot) (running : Option Nat) : List Nat :=
  match ConnectUrl.parse s.connect with
  | .error _ => []
  | .ok (.rtu _) => match running with
    | some rate => [rate]
    | none => if s.baud ≠ 0 then [s.baud] else candidateRates
  | .ok _ => [s.baud]

def brandsTried (s : Slot) : List Brand := (s.brand.map fun b => [b]).getD busBrands

/-- Every pair of a rate and a brand, the rates in their order and the brands in theirs. -/
def pairs (s : Slot) (running : Option Nat) : List (Nat × Brand) :=
  s.ratesTried running ×ˢ s.brandsTried

def isSerial (s : Slot) : Bool :=
  match ConnectUrl.parse s.connect with
  | .error _ => false
  | .ok url => url.isSerial

def linkAt (s : Slot) (client : ClientId) (p : Nat × Brand) : Link :=
  ⟨client, s.connect, s.unit, if s.isSerial then p.1 else 0, encodingOf p.2, false⟩

variable {K : Type} [Quantity K]

/-- What the probe of a brand ends with at a rate, unless the bus is open at another one. -/
def identify (s : Slot) (b : Conduct) (running : Option Nat) (client : ClientId)
    (p : Nat × Brand) : Except MeterError (Meter K) :=
  b.outcome (running.getD p.1) s.unit (probeBrand p.2 (s.linkAt client p) s.setup)

/-- The bus is open or can be opened at the rate, and the probe of the brand succeeds. -/
def Works (K : Type) [Quantity K] (s : Slot) (b : Conduct) (running : Option Nat)
    (p : Nat × Brand) : Prop :=
  (running.isSome ∨ b.opens p.1) ∧ ∃ client, ∃ m : Meter K, s.identify b running client p = .ok m

/-- The meter of a pair that works. -/
def attempt (s : Slot) (b : Conduct) (running : Option Nat) (client : ClientId)
    (p : Nat × Brand) : Option (Meter K) :=
  if running.isSome || b.opens p.1 then (s.identify b running client p).toOption else none

variable {s : Slot} {b : Conduct} {running : Option Nat} {p : Nat × Brand}

theorem attempt_isSome (client other : ClientId) :
    (s.attempt b running other p : Option (Meter K)).isSome =
      (s.attempt b running client p : Option (Meter K)).isSome := by
  unfold attempt
  split_ifs
  · rw [isSome_toOption, isSome_toOption]
    exact outcome_probeBrand p.2 (s.linkAt client p) other s.setup
  · rfl

theorem attempt_eq_some {client : ClientId} {m : Meter K} :
    s.attempt b running client p = some m ↔
      (running.isSome ∨ b.opens p.1) ∧ s.identify b running client p = .ok m := by
  unfold attempt
  rw [← Bool.or_eq_true]
  split_ifs with hopens
  · rw [toOption_eq_some, iff_and_self]
    exact fun _ => hopens
  · exact ⟨nofun, fun h => absurd h.1 hopens⟩

theorem works_iff (client : ClientId) :
    s.Works K b running p ↔ (s.attempt b running client p : Option (Meter K)).isSome := by
  constructor
  · rintro ⟨hopens, c, m, hm⟩
    rw [attempt_isSome c, attempt_eq_some.2 ⟨hopens, hm⟩]
    rfl
  · intro h
    obtain ⟨m, hm⟩ := Option.isSome_iff_exists.1 h
    obtain ⟨hopens, hm⟩ := attempt_eq_some.1 hm
    exact ⟨hopens, client, m, hm⟩

theorem brand_of_identify {client : ClientId} {m : Meter K}
    (h : s.identify b running client p = .ok m) : m.brand = p.2 := by
  obtain ⟨rate, brand⟩ := p
  unfold identify probeBrand at h
  cases brand with
  | carloGavazzi | abb | victron =>
    dsimp only at h
    rw [Conduct.outcome_map] at h
    obtain ⟨_, -, rfl⟩ := map_eq_ok.1 h
    rfl
  | dsmr => cases h

theorem link_of_identify {client : ClientId} {m : Meter K}
    (h : s.identify b running client p = .ok m) : m.link? = some (s.linkAt client p) :=
  Conduct.outcome_of_all (probeBrand_isOn p.2 (s.linkAt client p) s.setup) m h

theorem findSome?_attempt {client : ClientId} {ps : List (Nat × Brand)}
    (h : ps.findSome? (s.attempt b running client : _ → Option (Meter K)) = none)
    (other : ClientId) :
    ps.findSome? (s.attempt b running other : _ → Option (Meter K)) = none := by
  rw [List.findSome?_eq_none_iff] at h ⊢
  intro p hp
  rw [← Option.not_isSome_iff_eq_none, attempt_isSome client, h p hp]
  exact Bool.false_ne_true

/-! ## What a search finds -/

section

variable {found : Option (Meter K)} {client : ClientId} {a t : Site}

theorem tryBrands_first {brands : List Brand} {rate : Nat}
    (h : (s.tryBrands client (if s.isSerial then rate else 0) brands).RunsUnder
      (b.Agrees s.connect) a found t)
    (hleads : a.open? client = some (s.connect, running.getD rate)) :
    found = brands.findSome? fun brand => (s.identify b running client (rate, brand)).toOption := by
  induction brands generalizing a with
  | nil => exact h.1
  | cons brand rest ih =>
    obtain ⟨answer, u, hprobe, h⟩ := runsUnder_bind.1 h
    obtain ⟨c, hc, hopen, hurl, hbaud⟩ := open?_eq_some.1 hleads
    -- The unit that was set before makes no difference.
    have hanswer : answer = s.identify b running client (rate, brand) := by
      rw [Conduct.outcome_of_runs (probeBrand_isOn ..) hprobe hc hopen hurl, hbaud]
      exact outcome_set ..
    rw [List.findSome?_cons, ← hanswer]
    cases answer with
    | error e => exact ih h (keepsOpen_of_uses (all_probeBrand ..) hprobe.runs _ _ _ hleads)
    | ok m =>
      obtain ⟨_, v, -, h⟩ := runsUnder_bind.1 h
      exact h.1

theorem tryBrands_pairs {brands : List Brand} {rate : Nat}
    (h : (s.tryBrands client (if s.isSerial then rate else 0) brands).RunsUnder
      (b.Agrees s.connect) a found t)
    (hleads : a.open? client = some (s.connect, running.getD rate))
    (hopens : running.isSome || b.opens rate) :
    found = (brands.map fun brand => (rate, brand)).findSome? (s.attempt b running client) := by
  rw [tryBrands_first h hleads, List.findSome?_map]
  congr 1
  funext brand
  exact (if_pos hopens).symm

theorem tryRates_open {brands : List Brand} {rates : List Nat} {rate : Nat}
    (hcached : a.registry.cached? s.connect = some client)
    (hleads : a.open? client = some (s.connect, rate))
    (h : (s.tryRates s.isSerial brands rates).RunsUnder (b.Agrees s.connect) a found t) :
    found = (rates ×ˢ brands).findSome? (s.attempt b (some rate) client) ∧
      ∀ m ∈ found, t.registry.cached? s.connect = some client := by
  induction rates generalizing a with
  | nil =>
    obtain ⟨rfl, -⟩ := h
    exact ⟨rfl, by simp⟩
  | cons baud rest ih =>
    obtain ⟨answer, u, hopen, h⟩ := runsUnder_bind.1 h
    obtain ⟨hopening, hkept⟩ := getOrOpen_runsUnder hopen
    cases hopening with
    | failed absent | opened absent =>
      rw [Registry.cached?, absent] at hcached
      cases hcached
    | @shared _ c cached hreg =>
      obtain rfl : c = client := Option.some.inj (cached.symm.trans hcached)
      obtain ⟨tried, v, htry, h⟩ := runsUnder_bind.1 h
      obtain ⟨hvcached, hvkept⟩ := tryBrands_keeps htry.runs
      have hv : v.registry.cached? s.connect = some c := by rw [hvcached, hreg, cached]
      have huleads : u.open? c = some (s.connect, (some rate).getD baud) := hkept _ _ _ hleads
      have htried := tryBrands_pairs htry huleads rfl
      rw [List.product_cons, List.findSome?_append, ← htried]
      cases tried with
      | some m =>
        obtain ⟨rfl, rfl⟩ := h
        exact ⟨rfl, fun _ _ => hv⟩
      | none => exact ih hv (hvkept _ _ _ huleads) h

theorem tryRates_closed {brands : List Brand} {rates : List Nat}
    (habsent : a.registry.find? s.connect = none)
    (h : (s.tryRates s.isSerial brands rates).RunsUnder (b.Agrees s.connect) a found t) :
    ∃ client, found = (rates ×ˢ brands).findSome? (s.attempt b none client) ∧
      ∀ m ∈ found, t.registry.cached? s.connect = some client := by
  induction rates generalizing a with
  | nil =>
    obtain ⟨rfl, -⟩ := h
    exact ⟨0, rfl, by simp⟩
  | cons baud rest ih =>
    obtain ⟨answer, u, hopen, h⟩ := runsUnder_bind.1 h
    obtain ⟨hopening, hkept⟩ := getOrOpen_runsUnder hopen
    cases hopening with
    | shared cached =>
      rw [Registry.cached?, habsent] at cached
      cases cached
    | failed absent suits answer hreg =>
      have hclosed : b.opens baud = false := by
        rw [← suits rfl, answer]
        rfl
      obtain ⟨client, hfound, hcached⟩ := ih (hreg ▸ absent) h
      refine ⟨client, ?_, hcached⟩
      have hnone : (brands.map fun brand => (baud, brand)).findSome?
          (s.attempt b none client : _ → Option (Meter K)) = none := by
        simp [attempt, hclosed]
      rw [List.product_cons, List.findSome?_append, hnone, hfound]
      rfl
    | @opened _ _ c absent suits answer hreg hleads =>
      have hopens : b.opens baud := by
        rw [← suits rfl, answer]
        rfl
      obtain ⟨tried, v, htry, h⟩ := runsUnder_bind.1 h
      have huleads : u.open? c = some (s.connect, Option.getD none baud) := hleads
      have htried := tryBrands_pairs htry huleads hopens
      cases tried with
      | some m =>
        obtain ⟨rfl, rfl⟩ := h
        refine ⟨c, ?_, fun _ _ => ?_⟩
        · rw [List.product_cons, List.findSome?_append, ← htried]
          rfl
        · rw [(tryBrands_keeps htry.runs).1, hreg, Registry.cached?, Registry.find?_put, if_pos rfl]
          rfl
      | none =>
        -- The client that was opened for nothing is dropped before the next rate is tried.
        obtain ⟨_, w, hremove, h⟩ := runsUnder_bind.1 h
        have hv : v.registry = u.registry := by
          rcases tryBrands_runs htry.runs with ⟨-, hv⟩ | ⟨_, hm, -⟩
          · exact hv
          · cases hm
        have hw : w.registry = a.registry := by
          rw [removeUnused_runs hremove.runs, hv, hreg, Registry.evict_put absent]
        obtain ⟨client, hfound, hcached⟩ := ih (hw ▸ habsent) h
        refine ⟨client, ?_, hcached⟩
        rw [List.product_cons, List.findSome?_append, findSome?_attempt htried.symm client, hfound]
        rfl

theorem rate_of_open {device : String} {rate : Nat}
    (hparse : ConnectUrl.parse s.connect = .ok (.rtu device))
    (hleads : a.open? client = some (s.connect, rate)) : (a.answer (.rate client)).1 = rate := by
  obtain ⟨c, hc, -, hurl, hbaud⟩ := open?_eq_some.1 hleads
  show (a.clients[client]?.map Client.rate).getD 0 = rate
  rw [hc, Option.map_some, Option.getD_some, Client.rate, hurl, hparse]
  exact hbaud

theorem rates_runs {url : ConnectUrl} {rates : List Nat} (ha : a.Wired)
    (hparse : ConnectUrl.parse s.connect = .ok url) (h : (s.rates url).Runs a rates t) :
    rates = s.ratesTried (a.openRate? s.connect) := by
  unfold ratesTried
  rw [hparse]
  unfold Slot.rates at h
  cases url with
  | tcp target | rtuOverTcp target => exact h.1
  | rtu device =>
    obtain ⟨cached, u, ⟨other, hcached, hu⟩, h⟩ := runs_bind.1 h
    change cached = a.registry.cached? s.connect at hcached
    have hsame : ∀ i, u.open? i = a.open? i := by
      intro i
      rw [hu]
      rfl
    rw [openRate?, ← hcached]
    cases cached with
    | none => exact h.1
    | some c =>
      obtain ⟨rate, hleads⟩ := ha s.connect c hcached.symm
      rw [Option.bind_some, hleads]
      obtain ⟨_, v, hlock, h⟩ := runs_bind.1 h
      obtain ⟨answer, w, ⟨other', hanswer, -⟩, h⟩ := runs_bind.1 h
      have hall : (request (.lock c)).All Request.IsUse fun _ => True := .request trivial
      have hv := keepsOpen_of_uses hall hlock _ _ _ ((hsame c).trans hleads)
      have hrate := rate_of_open (a := v.withHardware other') hparse hv
      obtain rfl : answer = rate := hanswer.trans hrate
      obtain ⟨_, x, -, h⟩ := runs_bind.1 h
      dsimp only at h
      split at h
      · obtain ⟨_, y, -, h⟩ := runs_bind.1 h
        exact h.1
      · exact h.1

theorem findSome?_of_isUnfit (h : s.IsUnfit) :
    (s.pairs running).findSome? (s.attempt b running client : _ → Option (Meter K)) = none := by
  unfold pairs
  rcases h with hparse | hbrand
  · have hrates : s.ratesTried running = [] := by
      unfold ratesTried
      split
      · rfl
      · rename_i hurl
        exact absurd hurl (hparse _)
      · rename_i hurl
        exact absurd hurl (hparse _)
    rw [hrates]
    rfl
  · rw [List.findSome?_eq_none_iff]
    rintro ⟨rate, brand⟩ hp
    obtain ⟨-, hmem⟩ := List.mem_product.1 hp
    unfold brandsTried at hmem
    rw [hbrand] at hmem
    obtain rfl := List.mem_singleton.1 hmem
    unfold attempt
    split_ifs <;> rfl

theorem probe_of_isUnfit {timeout : Nat} (hbus : s.transport = .modbus) (hfit : s.IsUnfit)
    (h : (s.probe timeout).Runs a found t) :
    found = none ∧ t.journal = a.journal ∧ t.clients = a.clients ∧ t.registry = a.registry := by
  have hall : (s.probe timeout : Job (Option (Meter K))).All
      (fun q => ∃ severity text, q = .note severity text) fun r => r = none := by
    obtain ⟨text, hwarn⟩ := probeBus_of_isUnfit (K := K) hfit
    rw [probe_eq, search_of_modbus hbus, hwarn]
    exact ⟨⟨_, _, rfl⟩, fun _ => ⟨⟨_, _, rfl⟩, fun _ => rfl⟩⟩
  refine ⟨hall.runs h, h.keeps hall (I := fun u => u.journal = a.journal ∧ u.clients = a.clients ∧
    u.registry = a.registry) ?_ ⟨rfl, rfl, rfl⟩⟩
  rintro u other q ⟨severity, text, rfl⟩ hu
  exact hu

/-- A search finds the first pair that works. -/
theorem probe_first {timeout : Nat} (ha : a.Wired) (hbus : s.transport = .modbus)
    (hrunning : a.openRate? s.connect = running)
    (h : (s.probe timeout).RunsUnder (b.Agrees s.connect) a found t) :
    ∃ client, found = (s.pairs running).findSome? (s.attempt b running client) ∧
      ∀ m ∈ found, t.registry.cached? s.connect = some client := by
  rw [probe_eq, search_of_modbus hbus] at h
  obtain ⟨searched, u, hsearch, hreport⟩ := runsUnder_bind.1 h
  obtain ⟨hsame, rfl⟩ := registry_of_uses (s.all_report searched) hreport.runs
  rw [hsame]
  by_cases hfit : s.IsUnfit
  · obtain ⟨text, hwarn⟩ := probeBus_of_isUnfit (K := K) hfit
    rw [hwarn] at hsearch
    obtain ⟨_, v, -, rfl, -⟩ := runsUnder_bind.1 hsearch
    exact ⟨0, (findSome?_of_isUnfit hfit).symm, by simp⟩
  · obtain ⟨url, hparse, hprobe⟩ := probeBus_of_not_isUnfit (K := K) hfit
    rw [hprobe] at hsearch
    obtain ⟨rates, v, hrates, hsearch⟩ := runsUnder_bind.1 hsearch
    have hregistry := (registry_of_uses (s.all_rates url) hrates.runs).1
    have hserial : url.isSerial = s.isSerial := by
      unfold isSerial
      rw [hparse]
    rw [hserial] at hsearch
    unfold pairs
    rw [← hrunning, ← rates_runs ha hparse hrates.runs]
    cases hcached : a.registry.cached? s.connect with
    | none =>
      have habsent : a.registry.find? s.connect = none := Option.map_eq_none_iff.1 hcached
      rw [openRate?, hcached]
      exact tryRates_closed (hregistry ▸ habsent) hsearch
    | some c =>
      obtain ⟨rate, hleads⟩ := ha s.connect c hcached
      rw [openRate?, hcached, Option.bind_some, hleads]
      exact ⟨c, tryRates_open (hregistry ▸ hcached)
        (keepsOpen_of_uses (s.all_rates url) hrates.runs _ _ _ hleads) hsearch⟩

end

end Slot

variable {K : Type} [Quantity K]

/-- A search of a bus that answers alike whenever it is asked alike at one rate finds a meter if and
only if a pair of a rate and a brand works, and then that of the first pair that does. A slot that
no bus fits opens nothing and finds nothing. -/
theorem Life.probe_finds_first {buses : List (String × Segment)}
    {streams : List (String × List (Nat × List Telegram.Delivery))} {absence : Absence} {s : Site}
    {rs : List (Returned K)} (life : Life (Site.new buses streams absence) s rs) {slot : Slot}
    (hbus : slot.transport = .modbus) (timeout : Nat) {running : Option Nat}
    (hrunning : s.openRate? slot.connect = running) :
    (∀ (b : Conduct) (found : Option (Meter K)) (t : Site),
      (slot.probe timeout).RunsUnder (b.Agrees slot.connect) s found t →
        (found.isSome ↔ ∃ p ∈ slot.pairs running, slot.Works K b running p) ∧
        ∀ m, found = some m → ∃ client earlier rate brand later,
          slot.pairs running = earlier ++ (rate, brand) :: later ∧
          (∀ p ∈ earlier, ¬ slot.Works K b running p) ∧ slot.Works K b running (rate, brand) ∧
          slot.identify b running client (rate, brand) = .ok m ∧ m.brand = brand ∧
          m.link? = some ⟨client, slot.connect, slot.unit, if slot.isSerial then rate else 0,
            Slot.encodingOf brand, false⟩ ∧
          t.registry.cached? slot.connect = some client) ∧
    (slot.IsUnfit → ∀ (found : Option (Meter K)) (t : Site),
      (slot.probe timeout).Runs s found t →
        found = none ∧ t.journal = s.journal ∧ t.clients = s.clients ∧
          t.registry = s.registry) := by
  refine ⟨fun b found t hrun => ?_, fun hfit found t hrun => slot.probe_of_isUnfit hbus hfit hrun⟩
  obtain ⟨client, hfound, hcached⟩ := Slot.probe_first life.wired hbus hrunning hrun
  constructor
  · rw [hfound, List.findSome?_isSome_iff]
    simp only [slot.works_iff client]
  · rintro m rfl
    obtain ⟨earlier, ⟨rate, brand⟩, later, hpairs, hm, hearlier⟩ :=
      List.findSome?_eq_some_iff.1 hfound.symm
    obtain ⟨hopens, hidentify⟩ := Slot.attempt_eq_some.1 hm
    refine ⟨client, earlier, rate, brand, later, hpairs, fun p hp => ?_,
      ⟨hopens, client, m, hidentify⟩, hidentify, Slot.brand_of_identify hidentify,
      Slot.link_of_identify hidentify, hcached m rfl⟩
    rw [slot.works_iff client, hearlier p hp]
    exact Bool.false_ne_true

/-- A serial line that does not open at 57600 baud, with a meter that answers at 38400 only. -/
def cellar : Site :=
  .new [("rtu:///dev/ttyUSB0", { Segment.new with
      devices := [(1, { Device.new with
        holding := Registers.empty.put 0x8960 [0x4232, 0x3320, 0, 0, 0, 0]
        onlyBaud := some 38400 })]
      openFailures := [57600] })] []
    ⟨fun _ => .timeout, .notFound⟩

def cellarSlot : Slot :=
  ⟨"rtu:///dev/ttyUSB0", .modbus, none, 1, 0, ⟨.grid, [0, 1, 2], [.state], 1000⟩⟩

theorem cellar_found_at_38400 :
    ∃ (t : Site) (m : Meter Rat) (earlier later : List (Nat × Brand)),
      (cellarSlot.probe 0).RunsUnder ((cellar.conduct cellarSlot.connect).Agrees cellarSlot.connect)
        cellar (some m) t ∧
      cellarSlot.pairs none = earlier ++ (38400, .abb) :: later ∧
      (∀ p ∈ earlier, ¬ cellarSlot.Works Rat (cellar.conduct cellarSlot.connect) none p) ∧
      m.link? = some ⟨1, "rtu:///dev/ttyUSB0", 1, 38400, .bigEndian, false⟩ := by
  have hbus : cellarSlot.transport = .modbus := rfl
  have hrunning : cellar.openRate? cellarSlot.connect = none := rfl
  have life : Life cellar cellar ([] : List (Returned Rat)) := .begin
  obtain ⟨hfirst, -⟩ := life.probe_finds_first hbus 0 hrunning
  have hrun := Slot.runsUnder_probe (K := Rat) hbus 0 cellar
  have hfinds : ((cellarSlot.probe 0 : Job (Option (Meter Rat))).run cellar).1.map
      (fun m => (m.brand, m.link?)) =
        some (.abb, some ⟨1, "rtu:///dev/ttyUSB0", 1, 38400, .bigEndian, false⟩) := by
    decide +kernel
  generalize (cellarSlot.probe 0 : Job (Option (Meter Rat))).run cellar = ended at hrun hfinds
  obtain ⟨m, hm, heq⟩ := Option.map_eq_some_iff.1 hfinds
  rw [hm] at hrun
  obtain ⟨hbrand, hlink⟩ := Prod.mk.inj heq
  obtain ⟨-, hpair⟩ := hfirst _ _ _ hrun
  obtain ⟨client, earlier, rate, brand, later, hpairs, hearlier, -, -, hmeter, hmlink, -⟩ :=
    hpair m rfl
  obtain rfl : brand = .abb := hmeter.symm.trans hbrand
  have hserial : cellarSlot.isSerial = true := by decide
  rw [hserial, if_pos rfl, hlink] at hmlink
  obtain rfl : 38400 = rate := congrArg Link.baud (Option.some.inj hmlink)
  exact ⟨ended.2, m, earlier, later, hrun, hpairs, hearlier, hlink⟩

end HomeMetering
