import HomeMetering.Overview
import HomeMetering.Proofs.Lookup
import Mathlib.Data.List.Induction
import Mathlib.Data.String.Basic

/-!
# The latest events, whatever the order

An overview holds the event with the greatest time of each source and family, in whatever order the
events arrive, and also if some of them arrive several times.
-/

namespace HomeMetering

/-! ## Events of one family -/

namespace Latest

variable {α : Type} {l m : Latest α} {name : String} {old e : Event α}

/-- The names stand in ascending order. -/
def Ordered (l : Latest α) : Prop := (l.map Prod.fst).Pairwise (· < ·)

/-- The later one of an event and what is at hand. -/
def newer (e : Event α) : Option (Event α) → Event α
  | none => e
  | some old => if e.time.before old.time then old else e

theorem keep_cons_of_lt (h : e.source < name) :
    keep e ((name, old) :: l) = (e.source, e) :: (name, old) :: l := by
  simp [keep, h]

theorem keep_cons_self : keep e ((e.source, old) :: l) = (e.source, newer e (some old)) :: l := by
  by_cases h : e.time.before old.time = true <;> simp [keep, newer, h]

theorem keep_cons_of_gt (h : name < e.source) :
    keep e ((name, old) :: l) = (name, old) :: keep e l := by
  simp [keep, h.not_gt, h.ne']

theorem Ordered.lookup_eq_none (h : Ordered ((name, old) :: l)) {source : String}
    (hlt : source < name) : List.lookup source ((name, old) :: l) = none := by
  rw [List.lookup_eq_none_iff]
  intro p hp
  have hle : name ≤ p.1 := by
    rcases List.mem_cons.1 hp with rfl | hp
    · exact le_refl _
    · exact le_of_lt (List.rel_of_pairwise_cons h (List.mem_map_of_mem hp))
  simpa using (hlt.trans_le hle).ne

theorem lookup_keep (h : l.Ordered) (e : Event α) (source : String) :
    (l.keep e).lookup source =
      if source = e.source then some (newer e (l.lookup e.source)) else l.lookup source := by
  induction l with
  | nil => simp [keep, lookup_cons, newer]
  | cons p l ih =>
    obtain ⟨name, old⟩ := p
    rcases lt_trichotomy e.source name with hlt | rfl | hgt
    · rw [keep_cons_of_lt hlt, lookup_cons, h.lookup_eq_none hlt]
      rfl
    · rw [keep_cons_self, lookup_cons, lookup_cons, lookup_cons, if_pos rfl]
      split_ifs <;> rfl
    · rw [keep_cons_of_gt hgt, lookup_cons, lookup_cons, lookup_cons, ih (List.Pairwise.of_cons h),
        if_neg hgt.ne']
      by_cases hs : source = e.source
      · rw [if_neg (hs ▸ hgt.ne'), if_pos hs, if_pos hs]
      · rw [if_neg hs, if_neg hs]

theorem mem_names_keep {n : String} (h : n ∈ (l.keep e).map Prod.fst) :
    n = e.source ∨ n ∈ l.map Prod.fst := by
  induction l with
  | nil => simpa [keep] using h
  | cons p l ih =>
    obtain ⟨name, old⟩ := p
    rcases lt_trichotomy e.source name with hlt | rfl | hgt
    · rw [keep_cons_of_lt hlt] at h
      simpa using h
    · rw [keep_cons_self] at h
      exact Or.inr h
    · rw [keep_cons_of_gt hgt, List.map_cons] at h
      rcases List.mem_cons.1 h with rfl | h
      · exact Or.inr List.mem_cons_self
      · exact (ih h).imp_right (List.mem_cons_of_mem _)

theorem Ordered.keep (h : l.Ordered) (e : Event α) : Ordered (l.keep e) := by
  induction l with
  | nil => exact List.pairwise_singleton _ _
  | cons p l ih =>
    obtain ⟨name, old⟩ := p
    obtain ⟨hfirst, hrest⟩ := List.pairwise_cons.1 h
    rcases lt_trichotomy e.source name with hlt | rfl | hgt
    · rw [keep_cons_of_lt hlt]
      refine List.pairwise_cons.2 ⟨fun n hn => ?_, h⟩
      rcases List.mem_cons.1 hn with rfl | hn
      · exact hlt
      · exact hlt.trans (hfirst n hn)
    · rw [keep_cons_self]
      exact h
    · rw [keep_cons_of_gt hgt]
      refine List.pairwise_cons.2 ⟨fun n hn => ?_, ih hrest⟩
      rcases mem_names_keep hn with rfl | hn
      · exact hgt
      · exact hfirst n hn

theorem Ordered.nodup (h : l.Ordered) : (l.map Prod.fst).Nodup := h.imp fun hlt => hlt.ne

theorem Ordered.ext (hl : l.Ordered) (hm : m.Ordered)
    (h : ∀ source, l.lookup source = m.lookup source) : l = m := by
  have hmem : ∀ p, p ∈ l ↔ p ∈ m := by
    rintro ⟨name, e⟩
    rw [mem_iff_lookup hl.nodup, mem_iff_lookup hm.nodup, h]
  have hperm : l.Perm m :=
    (List.perm_ext_iff_of_nodup (hl.nodup.of_map _) (hm.nodup.of_map _)).2 hmem
  have hsorted : ∀ {n : Latest α}, n.Ordered → n.Pairwise fun p q => p.1 < q.1 :=
    List.pairwise_map.1
  refine hperm.eq_of_pairwise ?_ (hsorted hl) (hsorted hm)
  exact fun _ _ _ _ hpq hqp => absurd hpq hqp.not_gt

end Latest

/-! ## Events of all families -/

namespace Overview

variable {f : Family}

/-- The events of one family. -/
def latest (o : Overview) : (f : Family) → Latest f.Values
  | .electricity => o.electricity
  | .costs => o.costs
  | .gas => o.gas
  | .water => o.water
  | .battery => o.battery

/-- The overview after some events, in the order in which they arrive. -/
def after (events : List Occurrence) : Overview := events.foldl keep empty

theorem after_snoc (events : List Occurrence) (e : Occurrence) :
    after (events ++ [e]) = (after events).keep e := by
  simp [after]

theorem latest_keep (o : Overview) (e : Event f.Values) :
    (o.keep ⟨f, e⟩).latest f = (o.latest f).keep e := by
  cases f <;> rfl

theorem latest_keep_of_ne {g : Family} (h : f ≠ g) (o : Overview) (e : Event g.Values) :
    (o.keep ⟨g, e⟩).latest f = o.latest f := by
  cases f <;> cases g <;> first | rfl | exact absurd rfl h

theorem ext_latest {o p : Overview} (h : ∀ f, o.latest f = p.latest f) : o = p := by
  obtain ⟨_, _, _, _, _⟩ := o
  obtain ⟨_, _, _, _, _⟩ := p
  cases h .electricity
  cases h .costs
  cases h .gas
  cases h .water
  cases h .battery
  rfl

theorem ordered_latest (events : List Occurrence) (f : Family) :
    ((after events).latest f).Ordered := by
  induction events using List.reverseRecOn with
  | nil => cases f <;> exact List.Pairwise.nil
  | append_singleton events e ih =>
    obtain ⟨g, e⟩ := e
    rw [after_snoc]
    by_cases hf : f = g
    · subst hf
      rw [latest_keep]
      exact ih.keep e
    · rw [latest_keep_of_ne hf]
      exact ih

/-! ## What a run leaves -/

/-- An event with the greatest time among some events of its source. -/
structure IsLatest (events : List Occurrence) (source : String) (e : Event f.Values) : Prop where
  arrived : ⟨f, e⟩ ∈ events
  source_eq : e.source = source
  greatest : ∀ d : Event f.Values, ⟨f, d⟩ ∈ events → d.source = source →
    d.time.micros ≤ e.time.micros

/-- What is found of a source after some events: the latest one, if there is any. -/
def Answers (events : List Occurrence) (source : String) : Option (Event f.Values) → Prop
  | none => ∀ d : Event f.Values, ⟨f, d⟩ ∈ events → d.source ≠ source
  | some e => IsLatest events source e

theorem mem_snoc_iff {events : List Occurrence} {d e : Event f.Values} :
    ⟨f, d⟩ ∈ events ++ [⟨f, e⟩] ↔ ⟨f, d⟩ ∈ events ∨ d = e := by
  simp

theorem Answers.snoc {events : List Occurrence} {found : Option (Event f.Values)}
    (e : Event f.Values) (h : Answers events e.source found) :
    Answers (events ++ [⟨f, e⟩]) e.source (some (Latest.newer e found)) := by
  cases found with
  | none =>
    refine ⟨mem_snoc_iff.2 (Or.inr rfl), rfl, fun d hd hsource => ?_⟩
    rcases mem_snoc_iff.1 hd with hd | rfl
    · exact absurd hsource (h d hd)
    · exact le_refl _
  | some old =>
    obtain ⟨harrived, hold, hgreatest⟩ := h
    by_cases hbefore : e.time.before old.time = true
    · have hlt : e.time.micros < old.time.micros := by simpa [Instant.before] using hbefore
      rw [Latest.newer, if_pos hbefore]
      refine ⟨mem_snoc_iff.2 (Or.inl harrived), hold, fun d hd hsource => ?_⟩
      rcases mem_snoc_iff.1 hd with hd | rfl
      · exact hgreatest d hd hsource
      · exact hlt.le
    · have hle : old.time.micros ≤ e.time.micros := by simpa [Instant.before] using hbefore
      rw [Latest.newer, if_neg hbefore]
      refine ⟨mem_snoc_iff.2 (Or.inr rfl), rfl, fun d hd hsource => ?_⟩
      rcases mem_snoc_iff.1 hd with hd | rfl
      · exact (hgreatest d hd hsource).trans hle
      · exact le_refl _

theorem Answers.snoc_other {events : List Occurrence} {source : String}
    {found : Option (Event f.Values)} (h : Answers events source found) {o : Occurrence}
    (ho : ∀ d : Event f.Values, o = ⟨f, d⟩ → d.source ≠ source) :
    Answers (events ++ [o]) source found := by
  have hmem : ∀ d : Event f.Values, ⟨f, d⟩ ∈ events ++ [o] → d.source = source →
      ⟨f, d⟩ ∈ events := by
    intro d hd hsource
    rcases List.mem_append.1 hd with hd | hd
    · exact hd
    · exact absurd hsource (ho d (List.mem_singleton.1 hd).symm)
  cases found with
  | none => exact fun d hd hsource => h d (hmem d hd hsource) hsource
  | some e =>
    exact ⟨List.mem_append_left _ h.arrived, h.source_eq, fun d hd hsource =>
      h.greatest d (hmem d hd hsource) hsource⟩

theorem answers_lookup (events : List Occurrence) (f : Family) (source : String) :
    Answers events source (((after events).latest f).lookup source) := by
  induction events using List.reverseRecOn with
  | nil => cases f <;> exact fun d hd => absurd hd List.not_mem_nil
  | append_singleton events o ih =>
    obtain ⟨g, e⟩ := o
    rw [after_snoc]
    by_cases hf : f = g
    · subst hf
      rw [latest_keep, Latest.lookup_keep (ordered_latest events f)]
      by_cases hs : source = e.source
      · subst hs
        rw [if_pos rfl]
        exact ih.snoc e
      · rw [if_neg hs]
        refine ih.snoc_other ?_
        rintro d ⟨⟩
        exact Ne.symm hs
    · rw [latest_keep_of_ne hf]
      refine ih.snoc_other ?_
      rintro d ⟨⟩
      exact absurd rfl hf

theorem time_le_later {earlier : List Occurrence} {source : String} {d : Event f.Values}
    (h : ((after earlier).latest f).lookup source = some d) (later : List Occurrence) :
    ∃ e, ((after (earlier ++ later)).latest f).lookup source = some e ∧
      d.time.micros ≤ e.time.micros := by
  have hd : IsLatest earlier source d := by
    have hanswers := answers_lookup earlier f source
    rwa [h] at hanswers
  have harrived : ⟨f, d⟩ ∈ earlier ++ later := List.mem_append_left _ hd.arrived
  have hanswers := answers_lookup (earlier ++ later) f source
  cases hfound : ((after (earlier ++ later)).latest f).lookup source with
  | none =>
    rw [hfound] at hanswers
    exact absurd hd.source_eq (hanswers d harrived)
  | some e =>
    rw [hfound] at hanswers
    exact ⟨e, rfl, hanswers.greatest d harrived hd.source_eq⟩

/-- No two events of one source have the same time. -/
def Distinct (events : List Occurrence) : Prop :=
  ∀ (f : Family) (d e : Event f.Values), ⟨f, d⟩ ∈ events → ⟨f, e⟩ ∈ events →
    d.source = e.source → d.time = e.time → d = e

theorem IsLatest.unique {events : List Occurrence} (hdistinct : Distinct events) {source : String}
    {d e : Event f.Values} (hd : IsLatest events source d) (he : IsLatest events source e) :
    d = e := by
  have hle := he.greatest d hd.arrived hd.source_eq
  have hge := hd.greatest e he.arrived he.source_eq
  have htime : d.time = e.time := congrArg Instant.mk (le_antisymm hle hge)
  exact hdistinct f d e hd.arrived he.arrived (hd.source_eq.trans he.source_eq.symm) htime

theorem lookup_eq_some_iff {events : List Occurrence} (hdistinct : Distinct events)
    {source : String} {e : Event f.Values} :
    ((after events).latest f).lookup source = some e ↔ IsLatest events source e := by
  have hanswers := answers_lookup events f source
  cases hfound : ((after events).latest f).lookup source with
  | none =>
    rw [hfound] at hanswers
    exact ⟨nofun, fun he => absurd he.source_eq (hanswers e he.arrived)⟩
  | some d =>
    rw [hfound] at hanswers
    rw [Option.some_inj]
    exact ⟨fun h => h ▸ hanswers, hanswers.unique hdistinct⟩

theorem lookup_eq_none_iff {events : List Occurrence} {source : String} :
    ((after events).latest f).lookup source = none ↔
      ∀ d : Event f.Values, ⟨f, d⟩ ∈ events → d.source ≠ source := by
  have hanswers := answers_lookup events f source
  cases hfound : ((after events).latest f).lookup source with
  | none =>
    rw [hfound] at hanswers
    exact iff_of_true rfl hanswers
  | some e =>
    rw [hfound] at hanswers
    exact iff_of_false nofun fun h => h e hanswers.arrived hanswers.source_eq

/-- Events that arrive in another order, some of them several times, leave the same overview: of
each source and family the event with the greatest time. -/
theorem after_eq_of_mem_iff {events others : List Occurrence} (hdistinct : Distinct events)
    (hsame : ∀ o, o ∈ others ↔ o ∈ events) :
    after others = after events ∧
      (after others).summary = (after events).summary ∧
      (after others).totalPower = (after events).totalPower ∧
      (∀ id, (after others).toJsonWith id = (after events).toJsonWith id) ∧
      (∀ (f : Family) (source : String) (e : Event f.Values),
        ((after events).latest f).lookup source = some e ↔ IsLatest events source e) ∧
      (∀ (f : Family) (source : String), ((after events).latest f).lookup source = none ↔
        ∀ d : Event f.Values, ⟨f, d⟩ ∈ events → d.source ≠ source) ∧
      ∀ (earlier later : List Occurrence) (f : Family) (source : String) (d : Event f.Values),
        ((after earlier).latest f).lookup source = some d →
          ∃ e, ((after (earlier ++ later)).latest f).lookup source = some e ∧
            d.time.micros ≤ e.time.micros := by
  have hothers : Distinct others := fun f d e hd he =>
    hdistinct f d e ((hsame _).1 hd) ((hsame _).1 he)
  have hlatest : ∀ (f : Family) (source : String) (e : Event f.Values),
      IsLatest others source e ↔ IsLatest events source e := by
    intro f source e
    constructor
    · rintro ⟨harrived, hsource, hgreatest⟩
      exact ⟨(hsame _).1 harrived, hsource, fun d hd => hgreatest d ((hsame _).2 hd)⟩
    · rintro ⟨harrived, hsource, hgreatest⟩
      exact ⟨(hsame _).2 harrived, hsource, fun d hd => hgreatest d ((hsame _).1 hd)⟩
  have heq : after others = after events := by
    refine ext_latest fun f => ?_
    refine (ordered_latest others f).ext (ordered_latest events f) fun source => ?_
    refine Option.ext fun e => ?_
    rw [lookup_eq_some_iff hothers, lookup_eq_some_iff hdistinct, hlatest]
  refine ⟨heq, ?_, ?_, ?_, fun f source e => lookup_eq_some_iff hdistinct,
    fun f source => lookup_eq_none_iff, fun earlier later f source d h => time_le_later h later⟩
  · rw [heq]
  · rw [heq]
  · rw [heq]
    exact fun id => rfl

def firstGas : Event (Family.Values .gas) := ⟨⟨1⟩, "grid", .grid, ⟨12.5⟩⟩

def secondGas : Event (Family.Values .gas) := ⟨⟨2⟩, "grid", .grid, ⟨13⟩⟩

def firstWater : Event (Family.Values .water) := ⟨⟨1⟩, "grid", .grid, ⟨7⟩⟩

def inTime : List Occurrence := [⟨.gas, firstGas⟩, ⟨.water, firstWater⟩, ⟨.gas, secondGas⟩]

/-- The second event overtakes the first one, which then arrives twice. -/
def overtaken : List Occurrence :=
  [⟨.gas, secondGas⟩, ⟨.gas, firstGas⟩, ⟨.water, firstWater⟩, ⟨.gas, firstGas⟩]

theorem distinct_inTime : Distinct inTime := by
  intro f d e hd he _ htime
  simp only [inTime, List.mem_cons, List.not_mem_nil, or_false] at hd he
  rcases hd with hd | hd | hd <;> cases hd <;> rcases he with he | he | he <;> cases he <;>
    first | rfl | exact absurd htime (by decide)

theorem overtaken_leaves_second :
    Distinct inTime ∧ (∀ o, o ∈ overtaken ↔ o ∈ inTime) ∧ after overtaken = after inTime ∧
      ((after overtaken).latest .gas).lookup "grid" = some secondGas := by
  have hsame : ∀ o, o ∈ overtaken ↔ o ∈ inTime := by
    intro o
    simp only [overtaken, inTime, List.mem_cons, List.not_mem_nil, or_false]
    tauto
  obtain ⟨heq, -⟩ := after_eq_of_mem_iff distinct_inTime hsame
  exact ⟨distinct_inTime, hsame, heq, rfl⟩

end Overview

end HomeMetering
