import HomeMetering.Proofs.Meter.Probing

/-!
# Leases over the life of a process

A process looks for one meter at a time and lets go of the ones it found, in any order and as often
as it likes. After every call the registry holds just the connections that meters still lease.
-/

namespace HomeMetering

open Modbus Site Site.Job

variable {K : Type}

/-- A meter that a search returned, and whether it was shut down since. -/
structure Returned (K : Type) where
  meter : Meter K
  isShutDown : Bool

/-- Whether a meter still leases the connection of an address. -/
def Returned.leases (r : Returned K) (url : String) : Bool :=
  !r.isShutDown && r.meter.link?.any fun l => l.url == url

/-- What a process can make of a site by searches and shutdowns, one after another, and the meters
that were returned to it. The hardware may change at any time. -/
inductive Life [Quantity K] (start : Site) : Site → List (Returned K) → Prop where
  | begin : Life start start []
  | probe {s t : Site} {rs : List (Returned K)} {found : Option (Meter K)} (slot : Slot)
      (timeout : Nat) (life : Life start s rs) (run : (slot.probe timeout).Runs s found t) :
      Life start t (rs ++ found.toList.map fun m => ⟨m, false⟩)
  | shutdown {s t : Site} {rs : List (Returned K)} {r : Returned K} {m : Meter K} (i : Nat)
      (life : Life start s rs) (here : rs[i]? = some r) (run : r.meter.shutdown.Runs s m t) :
      Life start t (rs.set i ⟨m, true⟩)

/-! ## Counting leases -/

def leasesOf (rs : List (Returned K)) (url : String) : Nat := rs.countP fun r => r.leases url

theorem leasesOf_append (rs : List (Returned K)) (r : Returned K) (url : String) :
    leasesOf (rs ++ [r]) url = leasesOf rs url + if r.leases url then 1 else 0 := by
  unfold leasesOf
  rw [List.countP_append, List.countP_singleton]

theorem Returned.leases_of_none {r : Returned K} (h : r.meter.link? = none) (url : String) :
    r.leases url = false := by
  unfold Returned.leases
  rw [h]
  exact Bool.and_false _

theorem Returned.leases_iff {r : Returned K} {l : Link} (h : r.meter.link? = some l)
    (hshut : r.isShutDown = false) (url : String) : r.leases url ↔ url = l.url := by
  unfold Returned.leases
  rw [h, hshut]
  simp only [Bool.not_false, Bool.true_and, Option.any_some, beq_iff_eq]
  exact eq_comm

/-! ## What every call keeps -/

/-- Every client is shared or closed, every lease is counted, and a meter knows whether it was shut
down. -/
structure Settled (s : Site) (rs : List (Returned K)) : Prop where
  balanced : s.Balanced fun _ => 0
  tallied : s.registry.Tallied (leasesOf rs)
  released : ∀ r ∈ rs, ∀ l, r.meter.link? = some l → l.released = r.isShutDown

variable {s t : Site} {rs : List (Returned K)}

theorem settled_new (buses : List (String × Segment))
    (streams : List (String × List (Nat × List Telegram.Delivery))) (absence : Absence) :
    Settled (Site.new buses streams absence) ([] : List (Returned K)) :=
  ⟨balanced_new buses streams absence, fun _ => rfl, by simp⟩

theorem Settled.probe [Quantity K] {slot : Slot} {timeout : Nat} {found : Option (Meter K)}
    (h : Settled s rs) (hrun : (slot.probe timeout).Runs s found t) :
    Settled t (rs ++ found.toList.map fun m => ⟨m, false⟩) := by
  have hbalanced : t.Balanced fun _ => 0 :=
    Balanced.runs (slot.orderly_probe timeout).careful h.balanced hrun
  cases found with
  | none =>
    rw [Option.toList_none, List.map_nil, List.append_nil]
    rcases Slot.probe_runs hrun with ⟨-, hreg⟩ | ⟨m, hm, -⟩
    · exact ⟨hbalanced, hreg ▸ h.tallied, h.released⟩
    · cases hm
  | some m =>
    show Settled t (rs ++ [⟨m, false⟩])
    refine ⟨hbalanced, ?_, fun r hr l hl => ?_⟩
    · -- A smart meter holds no lease; any other meter holds the one that was just taken.
      rcases Slot.probe_runs hrun with ⟨hlink, hreg⟩ | ⟨_, heq, hleased, hjoin⟩
      · rw [hreg]
        convert h.tallied using 1
        funext url
        rw [leasesOf_append, Returned.leases_of_none (r := ⟨m, false⟩) (hlink m rfl)]
        rfl
      · cases heq
        obtain ⟨l, hl, hurl, -⟩ := Meter.leased?_eq_some.1 hleased
        refine h.tallied.join hjoin fun url => ?_
        have hiff := Returned.leases_iff (r := ⟨m, false⟩) hl rfl url
        rw [leasesOf_append, ← hurl, if_congr hiff rfl rfl]
    · rcases List.mem_append.1 hr with hold | hnew
      · exact h.released r hold l hl
      · obtain rfl := List.mem_singleton.1 hnew
        rcases Slot.probe_runs hrun with ⟨hlink, -⟩ | ⟨_, heq, hleased, -⟩
        · rw [hlink m rfl] at hl
          cases hl
        · cases heq
          obtain ⟨l', hl', -, hfresh⟩ := Meter.leased?_eq_some.1 hleased
          rw [hl'] at hl
          cases hl
          exact hfresh

theorem Settled.shutdown {i : Nat} {r : Returned K} {m : Meter K} (h : Settled s rs)
    (hr : rs[i]? = some r) (hrun : r.meter.shutdown.Runs s m t) :
    Settled t (rs.set i ⟨m, true⟩) := by
  have hbalanced : t.Balanced fun _ => 0 :=
    Balanced.runs r.meter.orderly_shutdown.careful h.balanced hrun
  have hset : ∀ url, leasesOf rs url =
      leasesOf (rs.set i ⟨m, true⟩) url + if r.leases url then 1 else 0 := fun url =>
    (countP_set_add hr ⟨m, true⟩ fun r => r.leases url).symm
  refine ⟨hbalanced, ?_, fun r' hr' l' hl' => ?_⟩
  · rcases Meter.shutdown_runs hrun with ⟨hnone, -, hreg⟩ | ⟨l, hl, -, hreg⟩
    · rw [hreg]
      convert h.tallied using 1
      funext url
      rw [hset url, Returned.leases_of_none hnone]
      rfl
    · have hshut := h.released r (List.mem_of_getElem? hr) l hl
      rw [hreg]
      cases hl' : r.isShutDown with
      | true =>
        -- It was shut down before and gives nothing back.
        rw [hshut, hl', if_pos rfl]
        convert h.tallied using 1
        funext url
        rw [hset url, Returned.leases, hl']
        rfl
      | false =>
        rw [hshut, hl', if_neg (by simp)]
        refine h.tallied.giveBack fun url => ?_
        rw [hset url, if_congr (Returned.leases_iff hl hl' url) rfl rfl]
  · rcases List.mem_or_eq_of_mem_set hr' with hold | rfl
    · exact h.released r' hold l' hl'
    · rcases Meter.shutdown_runs hrun with ⟨-, hnone, -⟩ | ⟨l, -, hl, -⟩
      · rw [hnone] at hl'
        cases hl'
      · rw [hl] at hl'
        cases hl'
        rfl

theorem Life.settled [Quantity K] {buses : List (String × Segment)}
    {streams : List (String × List (Nat × List Telegram.Delivery))} {absence : Absence}
    (h : Life (Site.new buses streams absence) s rs) : Settled s rs := by
  induction h with
  | begin => exact settled_new buses streams absence
  | probe slot timeout _ hrun ih => exact ih.probe hrun
  | shutdown i _ hr hrun ih => exact ih.shutdown hr hrun

/-! ## The registry after every call -/

namespace Settled

variable {url : String} {c : ClientId} {shared : Shared}

theorem leases_pos_iff (rs : List (Returned K)) (url : String) :
    0 < leasesOf rs url ↔ ∃ r ∈ rs, r.leases url := List.countP_pos_iff

theorem find?_isSome_iff (h : Settled s rs) :
    (s.registry.find? url).isSome ↔ ∃ r ∈ rs, r.leases url := by
  rw [← leases_pos_iff, ← Option.isSome_map, h.tallied url]
  by_cases hzero : leasesOf rs url = 0
  · rw [if_pos hzero, hzero]
    exact iff_of_false Bool.false_ne_true (Nat.lt_irrefl 0)
  · rw [if_neg hzero]
    exact iff_of_true rfl (Nat.pos_of_ne_zero hzero)

theorem users_eq (h : Settled s rs) (hfind : s.registry.find? url = some shared) :
    shared.users = leasesOf rs url := by
  have hurl := h.tallied url
  rw [hfind] at hurl
  split at hurl
  · cases hurl
  · exact Option.some.inj hurl

theorem shared_add_closed (h : Settled s rs) (hc : 0 < s.openings c) :
    s.registry.shares c + s.closings c = 1 := by
  have hbalance := h.balanced.balance c
  have hnumber := h.balanced.numbered c
  split at hnumber <;> omega

theorem shares_eq_zero (h : Settled s rs) (hc : ∀ url, s.registry.cached? url ≠ some c) :
    s.registry.shares c = 0 := by
  by_contra hpos
  obtain ⟨url, hurl⟩ := (Registry.shares_pos_iff h.balanced.wellKeyed).1 (Nat.pos_of_ne_zero hpos)
  exact hc url hurl

theorem eq_empty (h : Settled s rs) (hdown : ∀ r ∈ rs, r.isShutDown) : s.registry = .empty := by
  refine Registry.eq_empty_of_find? fun url => ?_
  rw [← Option.not_isSome_iff_eq_none, h.find?_isSome_iff]
  rintro ⟨r, hr, hleases⟩
  unfold Returned.leases at hleases
  rw [hdown r hr] at hleases
  cases hleases

end Settled

/-- After every call, the registry has an entry for the addresses that a meter still leases, and for
no others. It counts the meters, and its client was never closed; every other client that was opened
was closed once. So nothing stays open when all meters are shut down. -/
theorem Life.leases_match [Quantity K] {buses : List (String × Segment)}
    {streams : List (String × List (Nat × List Telegram.Delivery))} {absence : Absence}
    (h : Life (Site.new buses streams absence) s rs) :
    (∀ url, (s.registry.find? url).isSome ↔ ∃ r ∈ rs, r.leases url) ∧
      (∀ url shared, s.registry.find? url = some shared →
        shared.users = leasesOf rs url ∧ 0 < s.openings shared.client ∧
          s.closings shared.client = 0) ∧
      (∀ c, 0 < s.openings c → (∀ url, s.registry.cached? url ≠ some c) → s.closings c = 1) ∧
      ((∀ r ∈ rs, r.isShutDown) →
        s.registry = .empty ∧ ∀ c, 0 < s.openings c → s.closings c = 1) := by
  have hsettled := h.settled
  have hclosed : ∀ c, 0 < s.openings c → (∀ url, s.registry.cached? url ≠ some c) →
      s.closings c = 1 := by
    intro c hc hout
    have hsum := hsettled.shared_add_closed hc
    rw [hsettled.shares_eq_zero hout] at hsum
    omega
  refine ⟨fun url => hsettled.find?_isSome_iff, fun url shared hfind => ?_, hclosed, ?_⟩
  · have hcached : s.registry.cached? url = some shared.client := by
      rw [Registry.cached?, hfind]
      rfl
    obtain ⟨hopened, hopen⟩ := hsettled.balanced.closings_of_shared hcached
    exact ⟨hsettled.users_eq hfind, by omega, hopen⟩
  · intro hdown
    have hempty := hsettled.eq_empty hdown
    refine ⟨hempty, fun c hc => hclosed c hc fun url => ?_⟩
    rw [hempty]
    exact Option.some_ne_none c ∘ Eq.symm

def analyzer : Device :=
  { Device.new with holding := (Registers.empty.put 0x000B [341]).put 0x5000 (.replicate 7 0) }

/-- A gateway with an analyzer behind it. -/
def house : Site :=
  .new [("tcp://gw", { Segment.new with devices := [(1, analyzer)] })] []
    ⟨fun _ => .timeout, .notFound⟩

def houseSlot (unit : UInt8) : Slot :=
  ⟨"tcp://gw", .modbus, none, unit, 0, ⟨.grid, [0, 1, 2], [.state], 1000⟩⟩

/-- The analyzer is found, another unit is not, and the analyzer is shut down twice. -/
theorem house_leases_match :
    ∃ (s : Site) (rs : List (Returned Rat)), Life house s rs ∧ rs.length = 1 ∧
      s.registry = .empty ∧ s.openings 0 = 1 ∧ s.closings 0 = 1 := by
  have hbegin : Life house house ([] : List (Returned Rat)) := .begin
  have hfound := (hbegin.probe (houseSlot 1) 0 (runs_run _ _)).probe (houseSlot 9) 0 (runs_run _ _)
  have hlife := (hfound.shutdown 0 rfl (runs_run _ _)).shutdown 0 rfl (runs_run _ _)
  obtain ⟨-, -, -, hdown⟩ := hlife.leases_match
  obtain ⟨hempty, hclosed⟩ := hdown (by decide)
  exact ⟨_, _, hlife, rfl, hempty, rfl, hclosed 0 (by decide)⟩

end HomeMetering
