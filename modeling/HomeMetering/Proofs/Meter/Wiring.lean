import HomeMetering.Proofs.Meter.Life
import HomeMetering.Proofs.Site.Conducts

/-!
# Shared clients lead to their address

Searches and shutdowns, one after another, close a client only when they take it out of the
registry. So a client that is shared under an address is open, and leads there.
-/

namespace HomeMetering

open Modbus Site Site.Job

namespace Modbus

variable {P : Site → Request → Prop} {s t : Site} {url : String} {baud : Nat}

/-- What becomes of an address that is opened while nobody interferes. -/
inductive Opening (P : Site → Request → Prop) (url : String) (baud : Nat) (s : Site) :
    Except BusError (ClientId × Bool) → Site → Prop where
  | shared {t : Site} {c : ClientId} (cached : s.registry.cached? url = some c)
      (registry : t.registry = s.registry) : Opening P url baud s (.ok (c, true)) t
  | failed {t u : Site} {e : BusError} (absent : s.registry.find? url = none)
      (suits : P u (.connect url baud)) (answer : (u.connect url baud).1 = .error e)
      (registry : t.registry = s.registry) : Opening P url baud s (.error e) t
  | opened {t u : Site} {c : ClientId} (absent : s.registry.find? url = none)
      (suits : P u (.connect url baud)) (answer : (u.connect url baud).1 = .ok c)
      (registry : t.registry = s.registry.put url ⟨c, 0⟩)
      (leads : t.open? c = some (url, baud)) : Opening P url baud s (.ok (c, false)) t

theorem getOrOpen_runsUnder {r : Except BusError (ClientId × Bool)}
    (h : (getOrOpen url baud).RunsUnder P s r t) :
    Opening P url baud s r t ∧ s.KeepsOpen t := by
  obtain ⟨cached, s₁, hfirst, h⟩ := runsUnder_bind.1 h
  obtain ⟨other, -, hcached, rfl⟩ := runsUnder_request.1 hfirst
  change cached = s.registry.cached? url at hcached
  cases cached with
  | some client =>
    obtain ⟨rfl, rfl⟩ := h
    exact ⟨.shared hcached.symm rfl, fun _ _ _ hi => hi⟩
  | none =>
    have habsent : s.registry.find? url = none := Option.map_eq_none_iff.1 hcached.symm
    obtain ⟨opened, s₂, hconnect, h⟩ := runsUnder_bind.1 h
    obtain ⟨other', hsuits, hopened, rfl⟩ := runsUnder_request.1 hconnect
    let u := (s.withHardware other).withHardware other'
    have hkept : s.KeepsOpen (u.answer (.connect url baud)).2 :=
      fun i v rate hi => open?_answer (s := u) (q := .connect url baud) hi nofun
    have hsame : (u.answer (.connect url baud)).2.registry = s.registry :=
      registry_answer u (.connect url baud) trivial
    change opened = (u.connect url baud).1 at hopened
    cases opened with
    | error e =>
      obtain ⟨rfl, rfl⟩ := h
      exact ⟨.failed habsent hsuits hopened.symm hsame, hkept⟩
    | ok client =>
      obtain ⟨winner, s₃, hadopt, h⟩ := runsUnder_bind.1 h
      obtain ⟨other'', -, hwinner, rfl⟩ := runsUnder_request.1 hadopt
      -- Nobody else was faster, since the address had no entry before.
      have hentered := Registry.adopt_of_none (hsame ▸ habsent) client
      obtain rfl : winner = none := hwinner.trans (congrArg Prod.fst hentered)
      obtain ⟨rfl, rfl⟩ := h
      refine ⟨.opened habsent hsuits hopened.symm ?_ ?_, hkept⟩
      · rw [← hsame]
        exact congrArg Prod.snd hentered
      · exact open?_connect hopened.symm

theorem open?_closeTaken {taken : Option ClientId} {r : Unit}
    (h : (closeTaken taken).Runs s r t) {i : ClientId} {rate : Nat} (hi : taken ≠ some i)
    (hs : s.open? i = some (url, rate)) : t.open? i = some (url, rate) := by
  have hall : (closeTaken taken).All (fun q => q ≠ .close i) fun _ => True := by
    cases taken with
    | none => exact .done trivial
    | some client =>
      have hne : Request.close client ≠ .close i := by
        rintro ⟨⟩
        exact hi rfl
      refine .bind (Q := fun _ => True) ?_ fun _ _ => .done trivial
      exact ⟨nofun, fun _ => ⟨hne, fun _ => ⟨nofun, fun _ => trivial⟩⟩⟩
  refine h.keeps hall (I := fun u => u.open? i = some (url, rate)) (fun u other q hq hu => ?_) hs
  exact open?_answer (s := u.withHardware other) hu hq

namespace Registry

variable {r : Registry} {u : String} {c : ClientId}

theorem cached?_of_evict (h : (r.evict url).2.cached? u = some c) :
    r.cached? u = some c ∧
      ∀ taken, (r.evict url).1 = some taken → u ≠ url ∧ r.cached? url = some taken := by
  rcases r.evict_cases url with ⟨client, hfind, hevict⟩ | ⟨-, hevict⟩
  · rw [hevict, cached?, find?_erase] at h
    split at h
    · cases h
    · rename_i hne
      refine ⟨h, fun taken htaken => ⟨hne, ?_⟩⟩
      rw [hevict] at htaken
      rw [cached?, hfind]
      exact htaken
  · rw [hevict] at h ⊢
    exact ⟨h, by simp⟩

theorem cached?_of_giveBack (h : (r.giveBack url).2.cached? u = some c) :
    r.cached? u = some c ∧
      ∀ taken, (r.giveBack url).1 = some taken → u ≠ url ∧ r.cached? url = some taken := by
  rcases r.giveBack_cases url with ⟨client, users, hfind, -, hgive⟩ |
    ⟨client, users, hfind, -, hgive⟩ | ⟨-, hgive⟩
  · rw [hgive, cached?, find?_erase] at h
    split at h
    · cases h
    · rename_i hne
      refine ⟨h, fun taken htaken => ⟨hne, ?_⟩⟩
      rw [hgive] at htaken
      rw [cached?, hfind]
      exact htaken
  · rw [hgive] at h ⊢
    refine ⟨?_, by simp⟩
    rw [cached?, find?_put] at h
    split at h
    · subst u
      rw [cached?, hfind]
      exact h
    · exact h
  · rw [hgive] at h ⊢
    exact ⟨h, by simp⟩

end Registry

end Modbus

/-! ## What every call keeps -/

/-- A shared client is open and leads to the address that it is shared under. -/
def Site.Wired (s : Site) : Prop :=
  ∀ url c, s.registry.cached? url = some c → ∃ rate, s.open? c = some (url, rate)

namespace Site.Wired

variable {s t : Site} {url : String}

theorem of_cached (h : s.Wired)
    (hreg : ∀ u c, t.registry.cached? u = some c → s.registry.cached? u = some c)
    (hopen : s.KeepsOpen t) : t.Wired := by
  intro u c hc
  obtain ⟨rate, hrate⟩ := h u c (hreg u c hc)
  exact ⟨rate, hopen c u rate hrate⟩

theorem of_uses {α : Type} {x : Job α} {Q : α → Prop} {a : α} (h : s.Wired)
    (hx : x.All Request.IsUse Q) (hrun : x.Runs s a t) : t.Wired := by
  refine h.of_cached (fun u c hc => ?_) (keepsOpen_of_uses hx hrun)
  rwa [(registry_of_uses hx hrun).1] at hc

theorem opening {baud : Nat} {r : Except BusError (ClientId × Bool)} (h : s.Wired)
    (hrun : (getOrOpen url baud).Runs s r t) : t.Wired := by
  obtain ⟨hopening, hkept⟩ := getOrOpen_runsUnder (runs_iff.1 hrun)
  cases hopening with
  | shared _ hreg | failed _ _ _ hreg =>
    exact h.of_cached (fun u c hc => by rwa [hreg] at hc) hkept
  | opened _ _ _ hreg hleads =>
    intro u c hc
    rw [hreg, Registry.cached?, Registry.find?_put] at hc
    split at hc
    · subst u
      obtain rfl := Option.some.inj hc
      exact ⟨baud, hleads⟩
    · obtain ⟨rate, hrate⟩ := h u c hc
      exact ⟨rate, hkept c u rate hrate⟩

theorem drop {taken : Option ClientId} {r : Unit} {before : Site} (h : s.Wired)
    (hrun : (closeTaken taken).Runs before r t) (hopen : ∀ i, before.open? i = s.open? i)
    (hafter : ∀ u c, before.registry.cached? u = some c → s.registry.cached? u = some c ∧
      ∀ d, taken = some d → u ≠ url ∧ s.registry.cached? url = some d) : t.Wired := by
  intro u c hc
  rw [(registry_of_runs (all_closeTaken taken) hrun).1] at hc
  obtain ⟨hcached, htaken⟩ := hafter u c hc
  obtain ⟨rate, hrate⟩ := h u c hcached
  refine ⟨rate, open?_closeTaken hrun ?_ ((hopen c).trans hrate)⟩
  rintro rfl
  obtain ⟨hne, hurl⟩ := htaken c rfl
  obtain ⟨rate', hrate'⟩ := h url c hurl
  rw [hrate] at hrate'
  cases hrate'
  exact hne rfl

theorem removeUnused {r : Unit} (h : s.Wired) (hrun : (Modbus.removeUnused url).Runs s r t) :
    t.Wired := by
  obtain ⟨taken, u, ⟨other, rfl, rfl⟩, hclose⟩ := runs_bind.1 hrun
  exact h.drop hclose (fun _ => rfl) fun u c => Registry.cached?_of_evict

theorem release {r : Unit} (h : s.Wired) (hrun : (Modbus.release url).Runs s r t) : t.Wired := by
  obtain ⟨taken, u, ⟨other, rfl, rfl⟩, hclose⟩ := runs_bind.1 hrun
  exact h.drop hclose (fun _ => rfl) fun u c => Registry.cached?_of_giveBack

end Site.Wired

namespace Slot

variable {K : Type} [Quantity K] {a b : Site}

theorem tryBrands_keeps {s : Slot} {client : ClientId} {baud : Nat} {brands : List Brand}
    {found : Option (Meter K)} (h : (s.tryBrands client baud brands).Runs a found b) :
    (∀ u, b.registry.cached? u = a.registry.cached? u) ∧ a.KeepsOpen b := by
  induction brands generalizing a with
  | nil =>
    obtain ⟨-, rfl⟩ := h
    exact ⟨fun _ => rfl, fun _ _ _ hi => hi⟩
  | cons brand rest ih =>
    obtain ⟨answer, u, hprobe, h⟩ := runs_bind.1 h
    have hregistry := (registry_of_uses (all_probeBrand ..) hprobe).1
    have hopen := keepsOpen_of_uses (all_probeBrand ..) hprobe
    cases answer with
    | error e =>
      obtain ⟨hcached, hkept⟩ := ih h
      refine ⟨fun v => ?_, hopen.trans hkept⟩
      rw [hcached v, hregistry]
    | ok m =>
      obtain ⟨_, v, hlease, h⟩ := runs_bind.1 h
      obtain ⟨-, rfl⟩ := h
      refine ⟨fun v => ?_, hopen.trans fun i v rate hi => ?_⟩
      · rw [lease_runs hlease, Registry.cached?_lease, hregistry]
      · obtain ⟨other, -, rfl⟩ := hlease
        exact open?_answer (s := u.withHardware other) (q := .lease s.connect) hi nofun

theorem tryRates_wired {s : Slot} {isSerial : Bool} {brands : List Brand} {rates : List Nat}
    {found : Option (Meter K)} (ha : a.Wired)
    (h : (s.tryRates isSerial brands rates).Runs a found b) : b.Wired := by
  induction rates generalizing a with
  | nil =>
    obtain ⟨-, rfl⟩ := h
    exact ha
  | cons baud rest ih =>
    obtain ⟨opened, u, hopen, h⟩ := runs_bind.1 h
    have hu := ha.opening hopen
    rcases opened with e | ⟨client, wasOpen⟩
    · exact ih hu h
    · obtain ⟨tried, v, htry, h⟩ := runs_bind.1 h
      obtain ⟨hcached, hkept⟩ := tryBrands_keeps htry
      have hv : v.Wired := hu.of_cached (fun w c hc => hcached w ▸ hc) hkept
      cases tried with
      | some m =>
        obtain ⟨-, rfl⟩ := h
        exact hv
      | none =>
        cases wasOpen with
        | true => exact ih hv h
        | false =>
          obtain ⟨_, w, hremove, h⟩ := runs_bind.1 h
          exact ih (hv.removeUnused hremove) h

/-- A slot that no bus fits: its address cannot be read, or it names a telegram meter. -/
def IsUnfit (s : Slot) : Prop :=
  (∀ url, ConnectUrl.parse s.connect ≠ .ok url) ∨ s.brand = some .dsmr

theorem probeBus_of_isUnfit {s : Slot} (h : s.IsUnfit) :
    ∃ text, (s.probeBus : Job (Option (Meter K))) = warn text >>= fun _ => pure none := by
  unfold probeBus
  cases hparse : ConnectUrl.parse s.connect with
  | error e => exact ⟨_, rfl⟩
  | ok url =>
    rcases h with hnone | hbrand
    · exact absurd hparse (hnone url)
    · dsimp only
      rw [if_pos hbrand]
      exact ⟨_, rfl⟩

theorem probeBus_of_not_isUnfit {s : Slot} (h : ¬ s.IsUnfit) :
    ∃ url, ConnectUrl.parse s.connect = .ok url ∧ (s.probeBus : Job (Option (Meter K))) =
      s.rates url >>= s.tryRates url.isSerial ((s.brand.map fun b => [b]).getD busBrands) := by
  unfold IsUnfit at h
  push Not at h
  obtain ⟨⟨url, hparse⟩, hbrand⟩ := h
  refine ⟨url, hparse, ?_⟩
  unfold probeBus
  rw [hparse]
  exact if_neg hbrand

theorem search_of_modbus {s : Slot} (h : s.transport = .modbus) (timeout : Nat) :
    (s.search timeout : Job (Option (Meter K))) = s.probeBus := by
  unfold search
  rw [h]

theorem probe_wired {s : Slot} {timeout : Nat} {found : Option (Meter K)} (ha : a.Wired)
    (h : (s.probe timeout).Runs a found b) : b.Wired := by
  rw [probe_eq] at h
  obtain ⟨searched, u, hsearch, hreport⟩ := runs_bind.1 h
  refine Wired.of_uses ?_ (s.all_report searched) hreport
  cases htransport : s.transport with
  | serial =>
    unfold search at hsearch
    rw [htransport] at hsearch
    exact ha.of_uses (s.all_probePort timeout) hsearch
  | modbus =>
    rw [search_of_modbus htransport] at hsearch
    by_cases hfit : s.IsUnfit
    · obtain ⟨text, hwarn⟩ := probeBus_of_isUnfit (K := K) hfit
      rw [hwarn] at hsearch
      obtain ⟨_, v, hwarned, hsearch⟩ := runs_bind.1 hsearch
      obtain ⟨-, rfl⟩ := hsearch
      exact ha.of_uses (all_warn _) hwarned
    · obtain ⟨url, -, hprobe⟩ := probeBus_of_not_isUnfit (K := K) hfit
      rw [hprobe] at hsearch
      obtain ⟨rates, v, hrates, hsearch⟩ := runs_bind.1 hsearch
      exact tryRates_wired (ha.of_uses (s.all_rates _) hrates) hsearch

end Slot

theorem Meter.shutdown_wired {K : Type} {m m' : Meter K} {a b : Site} (ha : a.Wired)
    (h : m.shutdown.Runs a m' b) : b.Wired := by
  cases m with
  | abb m | carloGavazzi m | victron m =>
    obtain ⟨l, u, hrelease, h⟩ := runs_bind.1 h
    obtain ⟨-, rfl⟩ := h
    unfold Link.release at hrelease
    split at hrelease
    · obtain ⟨-, rfl⟩ := hrelease
      exact ha
    · obtain ⟨_, v, hrelease, hdone⟩ := runs_bind.1 hrelease
      obtain ⟨-, rfl⟩ := hdone
      exact ha.release hrelease
  | dsmr m =>
    obtain ⟨_, u, hunfollow, h⟩ := runs_bind.1 h
    obtain ⟨-, rfl⟩ := h
    have hall : (request (.unfollow m.port)).All Request.IsUse fun _ => True := .request trivial
    exact ha.of_uses hall hunfollow
  | playback m =>
    obtain ⟨-, rfl⟩ := h
    exact ha

/-- After any searches and shutdowns, every shared client is open on the bus of its address. -/
theorem Life.wired {K : Type} [Quantity K] {buses : List (String × Segment)}
    {streams : List (String × List (Nat × List Telegram.Delivery))} {absence : Absence} {s : Site}
    {rs : List (Returned K)} (h : Life (Site.new buses streams absence) s rs) : s.Wired := by
  induction h with
  | begin => exact nofun
  | probe slot timeout _ hrun ih => exact Slot.probe_wired ih hrun
  | shutdown i _ hr hrun ih => exact Meter.shutdown_wired ih hrun

end HomeMetering
