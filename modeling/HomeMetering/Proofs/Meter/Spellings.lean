import HomeMetering.Proofs.Meter.Errands
import HomeMetering.Proofs.Meter.Life
import HomeMetering.Proofs.Modbus.Addresses
import HomeMetering.Proofs.Modbus.Entries

/-!
# Spellings of one bus

Connections are shared by the text of their address. Two texts may name one bus, as one that gives
the port and one that leaves it out do: slots that spell their bus alike share its client, and slots
that do not open one each.
-/

namespace HomeMetering

open Modbus Site Site.Job

/-! ## On the way -/

namespace Site

/-- A request that changes at most the entry of one address in the registry. -/
def Request.Confines (url : String) : Request → Prop
  | .adopt u _ | .evict u | .lease u | .giveBack u => u = url
  | _ => True

theorem Request.IsUse.confines {q : Request} (h : q.IsUse) (url : String) : q.Confines url := by
  cases q <;> first | exact h.elim | trivial

theorem Request.Confines.entry?_ne {q : Request} {url u : String} (h : q.Confines url)
    (hu : u ≠ url) : q.entry? ≠ some u := by
  cases q with
  | adopt url' client | evict url' | lease url' | giveBack url' =>
    rintro ⟨⟩
    exact hu h
  | _ => rintro ⟨⟩

namespace Job

variable {α : Type} {x : Job α} {s t : Site} {Q : α → Prop}

/-- The sites that a job comes through when it runs alone. -/
def Passes : Job α → Site → Site → Prop
  | done _, s, t => t = s
  | ask q next, s, t => t = s ∨ ∃ other,
    (next ((s.withHardware other).answer q).1).Passes ((s.withHardware other).answer q).2 t

theorem Passes.keeps {P : Request → Prop} {I : Site → Prop} (hx : x.All P Q)
    (hI : ∀ s other q, P q → I s → I ((s.withHardware other).answer q).2) (h : x.Passes s t)
    (hs : I s) : I t := by
  induction x generalizing s with
  | done a => exact h ▸ hs
  | ask q next ih =>
    rcases h with rfl | ⟨other, h⟩
    · exact hs
    · exact ih _ (hx.2 _) h (hI s other q hx.1 hs)

theorem Passes.registry_eq (hx : x.All Request.LeavesRegistry Q) (h : x.Passes s t) :
    t.registry = s.registry := by
  refine h.keeps hx (I := fun u => u.registry = s.registry) (fun u other q hq hu => ?_) rfl
  exact (registry_answer _ q hq).trans hu

theorem Passes.find?_eq {url u : String} (hx : x.All (Request.Confines url) Q) (h : x.Passes s t)
    (hu : u ≠ url) : t.registry.find? u = s.registry.find? u := by
  refine h.keeps hx (I := fun v => v.registry.find? u = s.registry.find? u)
    (fun v other q hq hv => ?_) rfl
  exact (find?_answer_of_ne _ (hq.entry?_ne hu)).trans hv

theorem Passes.balanced {k : Custody} {rest : ClientId → Nat} (hx : x.Careful k)
    (h : x.Passes s t) (hs : s.Balanced fun c => rest c + k.count c) :
    ∃ held, t.Balanced held := by
  induction x generalizing k s with
  | done a => exact ⟨_, h ▸ hs⟩
  | ask q next ih =>
    rcases h with rfl | ⟨other, h⟩
    · exact ⟨_, hs⟩
    · have hdrift := hs.of_sameBooks (sameBooks_withHardware s other)
      exact ih _ (hx.2 _) h (hdrift.answer hx.1)

end Job

end Site

/-! ## Searches and shutdowns -/

theorem Modbus.confines_closeTaken (url : String) (taken : Option ClientId) :
    (closeTaken taken).All (Request.Confines url) fun _ => True := by
  cases taken with
  | none => exact .done trivial
  | some client =>
    refine .bind (Q := fun _ => True) ?_ fun _ _ => .done trivial
    exact ⟨trivial, fun _ => ⟨trivial, fun _ => ⟨trivial, fun _ => trivial⟩⟩⟩

theorem Modbus.confines_getOrOpen (url : String) (baud : Nat) :
    (getOrOpen url baud).All (Request.Confines url) fun _ => True := by
  refine ⟨trivial, fun cached => ?_⟩
  cases cached with
  | some client => exact trivial
  | none =>
    refine ⟨trivial, fun opened => ?_⟩
    cases opened with
    | error e => exact trivial
    | ok client =>
      refine ⟨rfl, fun winner => ?_⟩
      cases winner with
      | none => exact trivial
      | some winner =>
        exact ⟨trivial, fun _ => ⟨trivial, fun _ => ⟨trivial, fun _ => trivial⟩⟩⟩

theorem Modbus.confines_release (l : Link) :
    l.release.All (Request.Confines l.url) fun _ => True := by
  unfold Link.release
  split
  · exact .done trivial
  · exact .bind (⟨rfl, fun taken => confines_closeTaken l.url taken⟩ :
      (Modbus.release l.url).All (Request.Confines l.url) fun _ => True) fun _ _ => .done trivial

namespace Slot

variable {K : Type} [Quantity K]

theorem confines_of_uses {α : Type} {x : Job α} {Q : α → Prop} (url : String)
    (hx : x.All Request.IsUse Q) : x.All (Request.Confines url) fun _ => True :=
  hx.imp (fun _ hq => hq.confines url) fun _ _ => trivial

theorem confines_tryBrands (s : Slot) (client : ClientId) (baud : Nat) (brands : List Brand) :
    (s.tryBrands client baud brands : Job (Option (Meter K))).All (Request.Confines s.connect)
      fun _ => True := by
  induction brands with
  | nil => exact .done trivial
  | cons brand rest ih =>
    refine (confines_of_uses _ (all_probeBrand brand _ _)).bind fun found _ => ?_
    cases found with
    | error e => exact ih
    | ok meter => exact ⟨rfl, fun _ => trivial⟩

theorem confines_tryRates (s : Slot) (isSerial : Bool) (brands : List Brand) (rates : List Nat) :
    (s.tryRates isSerial brands rates : Job (Option (Meter K))).All (Request.Confines s.connect)
      fun _ => True := by
  induction rates with
  | nil => exact .done trivial
  | cons baud rest ih =>
    refine (confines_getOrOpen s.connect baud).bind fun opened _ => ?_
    rcases opened with e | ⟨client, wasOpen⟩
    · exact ih
    · refine (s.confines_tryBrands ..).bind fun found _ => ?_
      cases found with
      | some meter => exact .done trivial
      | none =>
        cases wasOpen with
        | true => exact ih
        | false =>
          exact .bind (⟨rfl, fun taken => confines_closeTaken s.connect taken⟩ :
            (removeUnused s.connect).All (Request.Confines s.connect) fun _ => True) fun _ _ => ih

/-- A search changes the entry of the address of its slot at most. -/
theorem confines_probe (s : Slot) (timeout : Nat) :
    (s.probe timeout : Job (Option (Meter K))).All (Request.Confines s.connect)
      fun _ => True := by
  have hbus : (s.probeBus : Job (Option (Meter K))).All (Request.Confines s.connect)
      fun _ => True := by
    unfold probeBus
    split
    · exact (confines_of_uses _ (all_warn _)).bind fun _ _ => .done trivial
    · split
      · exact (confines_of_uses _ (all_warn _)).bind fun _ _ => .done trivial
      · exact (confines_of_uses _ (s.all_rates _)).bind fun rates _ => s.confines_tryRates _ _ rates
  rw [probe_eq]
  refine All.bind (Q := fun _ => True) ?_ fun found _ => confines_of_uses _ (s.all_report found)
  unfold search
  cases s.transport with
  | modbus => exact hbus
  | serial => exact confines_of_uses _ (s.all_probePort timeout)

/-! ### The client of a meter -/

/-- A search keeps the clients that are shared, and a meter that it finds drives the one of its
address. -/
structure Attaches (a b : Registry) (found : Option (Meter K)) : Prop where
  kept : ∀ {u c}, a.cached? u = some c → b.cached? u = some c
  attached : ∀ m ∈ found, ∀ l, m.link? = some l → b.cached? l.url = some l.client

omit [Quantity K] in
theorem attaches_of_eq {a b : Registry} {found : Option (Meter K)} (h : b = a)
    (hlink : ∀ m ∈ found, m.link? = none) : Attaches a b found := by
  refine ⟨fun hu => h ▸ hu, fun m hm l hl => ?_⟩
  rw [hlink m hm] at hl
  cases hl

variable {a b : Site} {found : Option (Meter K)}

theorem tryBrands_attaches {s : Slot} {c : ClientId} {baud : Nat} {brands : List Brand}
    (hc : a.registry.cached? s.connect = some c)
    (h : (s.tryBrands c baud brands).Runs a found b) : Attaches a.registry b.registry found := by
  have hclient := (s.all_tryBrands_link c baud brands).runs h
  rcases tryBrands_runs h with ⟨rfl, hb⟩ | ⟨m, rfl, hm, hb⟩
  · exact attaches_of_eq hb (by simp)
  · obtain ⟨l, hl, hurl, -⟩ := Meter.leased?_eq_some.1 hm
    rw [hb]
    constructor
    · intro u c' hu
      rw [Registry.cached?_lease, hu]
    · rintro _ ⟨⟩ l' hl'
      rw [hl] at hl'
      cases hl'
      rw [Registry.cached?_lease, hurl, hc, hclient m rfl l.client ⟨l, hl, rfl⟩]

theorem tryRates_attaches {s : Slot} {isSerial : Bool} {brands : List Brand} {rates : List Nat}
    (h : (s.tryRates isSerial brands rates).Runs a found b) :
    Attaches a.registry b.registry found := by
  induction rates generalizing a with
  | nil =>
    obtain ⟨rfl, rfl⟩ := h
    exact attaches_of_eq rfl (by simp)
  | cons baud rest ih =>
    obtain ⟨opened, u, hopen, h⟩ := runs_bind.1 h
    rcases getOrOpen_runs hopen with ⟨⟨e, rfl⟩, hu⟩ | ⟨c, rfl, hcached, hu⟩ | ⟨c, rfl, hnone, hu⟩
    · exact hu ▸ ih h
    · obtain ⟨tried, v, htry, h⟩ := runs_bind.1 h
      have hattaches := tryBrands_attaches (hu ▸ hcached) htry
      rw [hu] at hattaches
      cases tried with
      | some m =>
        obtain ⟨rfl, rfl⟩ := h
        exact hattaches
      | none =>
        have hrest := ih h
        exact ⟨fun hc => hrest.kept (hattaches.kept hc), hrest.attached⟩
    · obtain ⟨tried, v, htry, h⟩ := runs_bind.1 h
      have hnew : u.registry.cached? s.connect = some c := by
        rw [hu, Registry.cached?, Registry.find?_put, if_pos rfl]
        rfl
      rcases tryBrands_runs htry with ⟨rfl, hv⟩ | ⟨m, rfl, -, -⟩
      · -- The client was opened for nothing and is dropped again.
        obtain ⟨_, w, hremove, h⟩ := runs_bind.1 h
        have hw : w.registry = a.registry := by
          rw [removeUnused_runs hremove, hv, hu, Registry.evict_put hnone]
        exact hw ▸ ih h
      · obtain ⟨rfl, rfl⟩ := h
        have hattaches := tryBrands_attaches hnew htry
        refine ⟨fun {u' c'} hc => hattaches.kept ?_, hattaches.attached⟩
        have hadopted := Registry.cached?_adopt hc s.connect c
        rwa [Registry.adopt_of_none hnone, ← hu] at hadopted

theorem probe_attaches {s : Slot} {timeout : Nat} (h : (s.probe timeout).Runs a found b) :
    Attaches a.registry b.registry found := by
  rw [probe_eq] at h
  obtain ⟨searched, u, hsearch, hreport⟩ := runs_bind.1 h
  obtain ⟨hsame, rfl⟩ := registry_of_uses (s.all_report searched) hreport
  rw [hsame]
  unfold search at hsearch
  cases htransport : s.transport with
  | serial =>
    rw [htransport] at hsearch
    obtain ⟨hu, hlink⟩ := registry_of_uses (s.all_probePort timeout) hsearch
    exact attaches_of_eq hu hlink
  | modbus =>
    rw [htransport] at hsearch
    have hwarn : ∀ {text}, (warn text >>= fun _ => pure none).Runs a found u →
        Attaches a.registry u.registry found := by
      intro text hrun
      obtain ⟨_, v, hwarned, hrun⟩ := runs_bind.1 hrun
      obtain ⟨rfl, rfl⟩ := hrun
      exact attaches_of_eq (registry_of_uses (all_warn _) hwarned).1 (by simp)
    change s.probeBus.Runs a found u at hsearch
    unfold probeBus at hsearch
    split at hsearch
    · exact hwarn hsearch
    · split at hsearch
      · exact hwarn hsearch
      · obtain ⟨rates, v, hrates, hsearch⟩ := runs_bind.1 hsearch
        rw [← (registry_of_uses (s.all_rates _) hrates).1]
        exact tryRates_attaches hsearch

end Slot

/-! ## The life of a process -/

variable {K : Type} {s t : Site} {rs : List (Returned K)} {r : Returned K}
  {searched : Option String}

theorem Returned.leases_link {l : Link} (hl : r.meter.link? = some l)
    (hshut : r.isShutDown = false) : r.leases l.url :=
  (Returned.leases_iff hl hshut l.url).2 rfl

/-- Every meter that was not shut down drives the shared client of its address. -/
def Attached (s : Site) (rs : List (Returned K)) : Prop :=
  ∀ r ∈ rs, r.isShutDown = false → ∀ l, r.meter.link? = some l →
    s.registry.cached? l.url = some l.client

theorem Attached.probe [Quantity K] {slot : Slot} {timeout : Nat} {found : Option (Meter K)}
    (h : Attached s rs) (hrun : (slot.probe timeout).Runs s found t) :
    Attached t (rs ++ found.toList.map fun m => ⟨m, false⟩) := by
  have hattaches := Slot.probe_attaches hrun
  intro r hr hshut l hl
  rcases List.mem_append.1 hr with hold | hnew
  · exact hattaches.kept (h r hold hshut l hl)
  · obtain ⟨m, hm, rfl⟩ := List.mem_map.1 hnew
    exact hattaches.attached m (Option.mem_toList.1 hm) l hl

theorem Attached.shutdown {i : Nat} {m : Meter K} (h : Attached s rs)
    (hsettled : Settled t (rs.set i ⟨m, true⟩)) (hrun : r.meter.shutdown.Runs s m t) :
    Attached t (rs.set i ⟨m, true⟩) := by
  intro r' hr' hshut l' hl'
  rcases List.mem_or_eq_of_mem_set hr' with hold | rfl
  · have hcached := h r' hold hshut l' hl'
    rcases Meter.shutdown_runs hrun with ⟨-, -, hreg⟩ | ⟨l, -, -, hreg⟩
    · exact hreg ▸ hcached
    · -- The lease of this meter keeps the client, whoever gives back another one.
      have hleased : 0 < t.registry.leases l'.url := by
        rw [hsettled.tallied.leases_eq, Settled.leases_pos_iff]
        exact ⟨r', hr', Returned.leases_link hl' hshut⟩
      split at hreg
      · exact hreg ▸ hcached
      · rw [hreg] at hleased ⊢
        exact Registry.cached?_giveBack_of_leased hcached hleased
  · cases hshut

section

variable {buses : List (String × Segment)}
  {streams : List (String × List (Nat × List Telegram.Delivery))} {absence : Absence}

theorem Life.attached [Quantity K] (h : Life (Site.new buses streams absence) s rs) :
    Attached s rs := by
  induction h with
  | begin =>
    intro r hr
    cases hr
  | probe slot timeout _ hrun ih => exact ih.probe hrun
  | shutdown i life hr hrun ih => exact ih.shutdown (life.settled.shutdown hr hrun) hrun

/-! ### At any time -/

/-- What a process that looks for meters and lets go of them can find of a site at any time: between
two calls, on the way of a search, with the address that it goes to, or while it lets go of a
meter. -/
inductive Moment [Quantity K] (start : Site) : Site → List (Returned K) → Option String → Prop where
  | between {s : Site} {rs : List (Returned K)} (life : Life start s rs) : Moment start s rs none
  | searching {s t : Site} {rs : List (Returned K)} (slot : Slot) (timeout : Nat)
      (life : Life start s rs)
      (way : (slot.probe timeout : Job (Option (Meter K))).Passes s t) :
      Moment start t rs (some slot.connect)
  | closing {s t : Site} {rs : List (Returned K)} {r : Returned K} (i : Nat)
      (life : Life start s rs) (here : rs[i]? = some r) (way : r.meter.shutdown.Passes s t) :
      Moment start t rs none

/-- An address that a meter leases or that is being searched. -/
def InUse (rs : List (Returned K)) (searched : Option String) (url : String) : Prop :=
  (∃ r ∈ rs, r.leases url) ∨ searched = some url

theorem Settled.inUse (h : Settled s rs) {url : String} {c : ClientId}
    (hc : s.registry.cached? url = some c) : ∃ r ∈ rs, r.leases url := by
  obtain ⟨shared, hfind, -⟩ := Option.map_eq_some_iff.1 hc
  exact h.find?_isSome_iff.1 (Option.isSome_iff_exists.2 ⟨shared, hfind⟩)

theorem Settled.cached?_of_inUse (h : Settled s rs) {url : String} (huse : InUse rs none url) :
    ∃ c, s.registry.cached? url = some c := by
  obtain ⟨shared, hfind⟩ := Option.isSome_iff_exists.1
    (h.find?_isSome_iff.2 (huse.resolve_right (Option.some_ne_none url).symm))
  exact ⟨shared.client, congrArg (Option.map Shared.client) hfind⟩

theorem Settled.inUse_of_passes {α : Type} {x : Job α} {Q : α → Prop} {url : String}
    (h : Settled s rs) (hx : x.All (Request.Confines url) Q) (hway : x.Passes s t) {u : String}
    {c : ClientId} (hu : u ≠ url) (hc : t.registry.cached? u = some c) :
    ∃ r ∈ rs, r.leases u := by
  rw [Registry.cached?, hway.find?_eq hx hu] at hc
  exact h.inUse hc

theorem Meter.confines_shutdown {m : Meter K} {l : Link} (hl : m.link? = some l) :
    m.shutdown.All (Request.Confines l.url) fun _ => True := by
  cases m with
  | abb m | carloGavazzi m | victron m =>
    cases hl
    exact .bind (confines_release m.link) fun _ _ => .done trivial
  | dsmr m | playback m => cases hl

theorem Meter.leavesRegistry_shutdown {m : Meter K} (h : ∀ l, m.link? = some l → l.released) :
    m.shutdown.All Request.LeavesRegistry fun _ => True := by
  have hrelease : ∀ l : Link, l.released → l.release.All Request.LeavesRegistry fun _ => True := by
    intro l hl
    unfold Link.release
    rw [if_pos hl]
    exact .done trivial
  cases m with
  | abb m | carloGavazzi m | victron m =>
    exact .bind (hrelease m.link (h _ rfl)) fun _ _ => .done trivial
  | dsmr m => exact .bind (.request trivial) fun _ _ => .done trivial
  | playback m => exact .done trivial

variable [Quantity K]

theorem Moment.inUse (h : Moment (Site.new buses streams absence) t rs searched) {url : String}
    {c : ClientId} (hc : t.registry.cached? url = some c) : InUse rs searched url := by
  cases h with
  | between life => exact Or.inl (life.settled.inUse hc)
  | searching slot timeout life way =>
    -- Only the entry of the address that is searched can have changed.
    by_cases hurl : url = slot.connect
    · exact Or.inr (congrArg some hurl.symm)
    · exact Or.inl (life.settled.inUse_of_passes (slot.confines_probe timeout) way hurl hc)
  | @closing s _ _ r i life here way =>
    refine Or.inl ?_
    have hsettled := life.settled
    by_cases hopen : r.isShutDown = false ∧ ∃ l, r.meter.link? = some l
    · obtain ⟨hshut, l, hl⟩ := hopen
      by_cases hurl : url = l.url
      · exact ⟨r, List.mem_of_getElem? here, hurl ▸ Returned.leases_link hl hshut⟩
      · exact hsettled.inUse_of_passes (Meter.confines_shutdown hl) way hurl hc
    · -- A meter without a lease has none to give back.
      have hreleased : ∀ l, r.meter.link? = some l → l.released := by
        intro l hl
        rw [hsettled.released r (List.mem_of_getElem? here) l hl]
        by_contra hshut
        exact hopen ⟨Bool.not_eq_true _ ▸ hshut, l, hl⟩
      rw [way.registry_eq (Meter.leavesRegistry_shutdown hreleased)] at hc
      exact hsettled.inUse hc

theorem Moment.balanced (h : Moment (Site.new buses streams absence) t rs searched) :
    ∃ held, t.Balanced held := by
  cases h with
  | between life => exact ⟨_, life.settled.balanced⟩
  | searching slot timeout life way =>
    exact way.balanced (slot.orderly_probe timeout).careful life.settled.balanced
  | closing i life here way =>
    exact way.balanced (Meter.orderly_shutdown _).careful life.settled.balanced

theorem Moment.attached (h : Moment (Site.new buses streams absence) t rs searched) :
    ∃ s, Attached s rs := by
  cases h with
  | between life => exact ⟨_, life.attached⟩
  | searching slot timeout life way => exact ⟨_, life.attached⟩
  | closing i life here way => exact ⟨_, life.attached⟩

/-- Between two calls the addresses that are in use have a client each. -/
theorem Life.two_clients_iff (h : Life (Site.new buses streams absence) s rs) {url url' : String} :
    (∃ c c', c ≠ c' ∧ s.registry.cached? url = some c ∧ s.registry.cached? url' = some c') ↔
      url ≠ url' ∧ InUse rs none url ∧ InUse rs none url' := by
  constructor
  · rintro ⟨c, c', hne, hc, hc'⟩
    refine ⟨?_, Or.inl (h.settled.inUse hc), Or.inl (h.settled.inUse hc')⟩
    rintro rfl
    exact hne (Option.some.inj (hc.symm.trans hc'))
  · rintro ⟨hne, huse, huse'⟩
    obtain ⟨c, hc⟩ := h.settled.cached?_of_inUse huse
    obtain ⟨c', hc'⟩ := h.settled.cached?_of_inUse huse'
    refine ⟨c, c', ?_, hc, hc'⟩
    rintro rfl
    -- One client is shared under one address only.
    have hbalanced := h.settled.balanced
    have hsum := h.settled.shared_add_closed (by rw [(hbalanced.closings_of_shared hc).1]; omega)
    exact hne (Registry.url_unique hbalanced.wellKeyed (by omega) hc' hc)

/-- At any time, every shared client is open and its address is in use. Two of them are on one bus
only if their addresses differ in port 502, which one gives and the other leaves out; between two
calls there are two under two addresses of a bus whenever both are in use. Meters that spell their
bus alike drive one client. -/
theorem Moment.clients_of_one_bus
    (h : Moment (Site.new buses streams absence) t rs searched) :
    (∀ url c, t.registry.cached? url = some c →
      InUse rs searched url ∧ t.openings c = 1 ∧ t.closings c = 0) ∧
    (∀ url url' c c', ConnectUrl.SameBus url url' → t.registry.cached? url = some c →
      t.registry.cached? url' = some c' → c ≠ c' →
        (url' = url ++ ":502" ∨ url = url' ++ ":502") ∧ InUse rs searched url ∧
          InUse rs searched url') ∧
    (∀ r ∈ rs, ∀ r' ∈ rs, r.isShutDown = false → r'.isShutDown = false → ∀ l l',
      r.meter.link? = some l → r'.meter.link? = some l' → l.url = l'.url →
        l.client = l'.client) ∧
    (Life (Site.new buses streams absence) t rs →
      (∀ url url', ConnectUrl.SameBus url url' →
        ((∃ c c', c ≠ c' ∧ t.registry.cached? url = some c ∧ t.registry.cached? url' = some c') ↔
          url ≠ url' ∧ InUse rs none url ∧ InUse rs none url')) ∧
      ∀ r ∈ rs, r.isShutDown = false → ∀ l, r.meter.link? = some l →
        t.registry.cached? l.url = some l.client) := by
  refine ⟨fun url c hc => ?_, fun url url' c c' hbus hc hc' hne => ?_, ?_,
    fun life => ⟨fun url url' _ => life.two_clients_iff, life.attached⟩⟩
  · obtain ⟨held, hbalanced⟩ := h.balanced
    exact ⟨h.inUse hc, hbalanced.closings_of_shared hc⟩
  · refine ⟨?_, h.inUse hc, h.inUse hc'⟩
    rcases hbus.eq_or_port with rfl | hport | hport
    · rw [hc] at hc'
      exact absurd (Option.some.inj hc') hne
    · exact Or.inl hport
    · exact Or.inr hport
  · intro r hr r' hr' hshut hshut' l l' hl hl' hurl
    obtain ⟨s, hattached⟩ := h.attached
    have hc := hattached r hr hshut l hl
    rw [hurl, hattached r' hr' hshut' l' hl'] at hc
    exact (Option.some.inj hc).symm

end

/-- Two slots that spell their gateway alike find two meters, which drive its one client. -/
theorem house_one_client :
    ∃ (s : Site) (rs : List (Returned Rat)), Moment house s rs none ∧ rs.length = 2 ∧
      s.registry.size = 1 ∧ s.openings 0 = 1 ∧ s.closings 0 = 0 ∧
      ∀ r ∈ rs, r.isShutDown = false → ∀ l, r.meter.link? = some l →
        s.registry.cached? l.url = some l.client := by
  have hbegin : Life house house ([] : List (Returned Rat)) := .begin
  have hlife := (hbegin.probe (houseSlot 1) 0 (runs_run _ _)).probe (houseSlot 1) 0 (runs_run _ _)
  obtain ⟨hopen, -, -, hbetween⟩ := (Moment.between hlife).clients_of_one_bus
  obtain ⟨-, honce, hnever⟩ := hopen "tcp://gw" 0 rfl
  exact ⟨_, _, .between hlife, rfl, rfl, honce, hnever, (hbetween hlife).2⟩

/-- A gateway that is at hand under two addresses. -/
def gateway : Site :=
  .new [("tcp://gw", { Segment.new with devices := [(1, analyzer)] }),
    ("tcp://gw:502", { Segment.new with devices := [(1, analyzer)] })] []
    ⟨fun _ => .timeout, .notFound⟩

/-- One slot leaves out the port that another one gives: the bus has two clients, both open. -/
theorem gateway_two_clients :
    ∃ (s : Site) (rs : List (Returned Rat)), Life gateway s rs ∧
      ConnectUrl.SameBus "tcp://gw" "tcp://gw:502" ∧
      s.registry.cached? "tcp://gw" = some 0 ∧ s.registry.cached? "tcp://gw:502" = some 1 ∧
      s.openings 0 = 1 ∧ s.closings 0 = 0 ∧ s.openings 1 = 1 ∧ s.closings 1 = 0 := by
  have hbegin : Life gateway gateway ([] : List (Returned Rat)) := .begin
  have hlife := (hbegin.probe (houseSlot 1) 0 (runs_run _ _)).probe
    { houseSlot 1 with connect := "tcp://gw:502" } 0 (runs_run _ _)
  exact ⟨_, _, hlife, ⟨.tcp "gw:502", by decide, by decide⟩, rfl, rfl, rfl, rfl, rfl, rfl⟩

end HomeMetering
