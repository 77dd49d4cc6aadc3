import HomeMetering.Costs
import HomeMetering.Proofs.Lookup
import HomeMetering.Proofs.Quantity
import Mathlib.Data.List.Induction
import Mathlib.Tactic.Linarith

/-!
# What is billed

Of the readings of a source, those count that are not zero and not older than one that counted
before. The cost events of the source are the distances between two such readings in a row, so they
add up to the distance between the last one and the first one.
-/

namespace HomeMetering

variable {K : Type} [Quantity K]

/-- A reading, and the moment at which the biller takes it in. -/
structure Delivered (K : Type) where
  event : Event (Energy K)
  taken : Instant

namespace Delivered

def source (d : Delivered K) : String := d.event.source

def consumed (d : Delivered K) : K := d.event.values.usage.totalConsumed

def provided (d : Delivered K) : K := d.event.values.usage.totalProvided

def isZero (d : Delivered K) : Bool := d.event.values.usage.isZero

def isOlder (d e : Delivered K) : Bool := d.event.time.before e.event.time

/-- A reading counts when it is not zero and not older than any that counted before. -/
def Counts (earlier : List (Delivered K)) (d : Delivered K) : Prop :=
  d.isZero = false ∧ ∀ e ∈ earlier, d.isOlder e = false

instance (earlier : List (Delivered K)) (d : Delivered K) : Decidable (d.Counts earlier) :=
  inferInstanceAs (Decidable (_ ∧ _))

/-- The readings of a source that count, given those that counted before. -/
def countedAfter (source : String) (earlier : List (Delivered K)) :
    List (Delivered K) → List (Delivered K)
  | [] => earlier
  | d :: ds =>
    if d.source = source ∧ d.Counts earlier then countedAfter source (earlier ++ [d]) ds
    else countedAfter source earlier ds

/-- The readings of a source that count, in the order in which they are delivered. -/
def counted (source : String) (ds : List (Delivered K)) : List (Delivered K) :=
  countedAfter source [] ds

/-- Nothing is billed between two readings when a counter dropped or both stood still. -/
def Gap (a b : Delivered K) : Prop :=
  Quantity.less b.consumed a.consumed ∨ Quantity.less b.provided a.provided ∨
    Quantity.isZero (b.consumed - a.consumed) ∧ Quantity.isZero (b.provided - a.provided)

instance (a b : Delivered K) : Decidable (a.Gap b) := inferInstanceAs (Decidable (_ ∨ _ ∨ _ ∧ _))

/-- The cost event for what was counted from one reading to the next. -/
def costOf (tariff : Tariff K) (a b : Delivered K) : Event (Costs K) where
  time := b.taken
  source := b.source
  role := b.event.role
  values :=
    { consumed := b.consumed - a.consumed
      provided := b.provided - a.provided
      importCost := (b.consumed - a.consumed) * tariff.importPrice
      exportRevenue := (b.provided - a.provided) * tariff.exportPrice }

def neighbours {α : Type} (l : List α) : List (α × α) := l.zip l.tail

/-- The cost events of readings that follow each other. -/
def costsOf (tariff : Tariff K) (ds : List (Delivered K)) : List (Event (Costs K)) :=
  ((neighbours ds).filter fun p => ¬ p.1.Gap p.2).map fun p => costOf tariff p.1 p.2

end Delivered

/-- Takes readings in one after the other: the cost events they cause, and the biller after them. -/
def Biller.takeAll (b : Biller K) : List (Delivered K) → List (Event (Costs K)) × Biller K
  | [] => ([], b)
  | d :: ds =>
    let (cost, b) := b.take d.taken d.event
    let (costs, b) := b.takeAll ds
    (cost.toList ++ costs, b)

/-- The cost events of a source. -/
def Tariff.billed (tariff : Tariff K) (source : String) (ds : List (Delivered K)) :
    List (Event (Costs K)) :=
  ((Biller.new tariff).takeAll ds).1.filter fun c => c.source = source

open Delivered

/-! ## One reading after the others -/

namespace Delivered

theorem countedAfter_append (source : String) (earlier ds es : List (Delivered K)) :
    countedAfter source earlier (ds ++ es) =
      countedAfter source (countedAfter source earlier ds) es := by
  induction ds generalizing earlier with
  | nil => rfl
  | cons d ds ih =>
    simp only [List.cons_append, countedAfter]
    split <;> exact ih _

theorem counted_snoc (source : String) (ds : List (Delivered K)) (d : Delivered K) :
    counted source (ds ++ [d]) =
      if d.source = source ∧ d.Counts (counted source ds) then counted source ds ++ [d]
      else counted source ds := by
  unfold counted
  rw [countedAfter_append]
  rfl

theorem neighbours_snoc {α : Type} (l : List α) (a : α) :
    neighbours (l ++ [a]) = neighbours l ++ (l.getLast?.map fun b => (b, a)).toList := by
  unfold neighbours
  induction l with
  | nil => rfl
  | cons b l ih =>
    cases l with
    | nil => rfl
    | cons c l =>
      simp only [List.cons_append, List.tail_cons, List.zip_cons_cons] at ih ⊢
      rw [ih, List.getLast?_cons_cons]

theorem costsOf_snoc (tariff : Tariff K) (ds : List (Delivered K)) (d : Delivered K) :
    costsOf tariff (ds ++ [d]) = costsOf tariff ds ++
      ((ds.getLast?.filter fun e => ¬ e.Gap d).map fun e => costOf tariff e d).toList := by
  unfold costsOf
  rw [neighbours_snoc, List.filter_append, List.map_append]
  cases ds.getLast? with
  | none => rfl
  | some e => by_cases h : e.Gap d <;> simp [h, Option.filter]

end Delivered

namespace Biller

theorem takeAll_append (b : Biller K) (ds es : List (Delivered K)) :
    b.takeAll (ds ++ es) =
      ((b.takeAll ds).1 ++ ((b.takeAll ds).2.takeAll es).1, ((b.takeAll ds).2.takeAll es).2) := by
  induction ds generalizing b with
  | nil => rfl
  | cons d ds ih => simp only [List.cons_append, takeAll, ih, List.append_assoc]

theorem takeAll_snoc (b : Biller K) (ds : List (Delivered K)) (d : Delivered K) :
    b.takeAll (ds ++ [d]) =
      ((b.takeAll ds).1 ++ ((b.takeAll ds).2.take d.taken d.event).1.toList,
        ((b.takeAll ds).2.take d.taken d.event).2) := by
  rw [takeAll_append]
  simp only [takeAll, List.append_nil]

end Biller

/-! ## The biller keeps to the readings that count -/

namespace Delivered

variable {source : String} {ds : List (Delivered K)}

def baseline (d : Delivered K) : Baseline K := Baselines.reading d.event

omit [Quantity K] in
theorem isOlder_eq_false_iff {d e : Delivered K} :
    d.isOlder e = false ↔ e.event.time.micros ≤ d.event.time.micros := by
  unfold isOlder Instant.before
  rw [decide_eq_false_iff_not, not_lt]

theorem counted_pairwise (source : String) (ds : List (Delivered K)) :
    (counted source ds).Pairwise fun e d => e.event.time.micros ≤ d.event.time.micros := by
  induction ds using List.reverseRecOn with
  | nil => exact .nil
  | append_singleton ds d ih =>
    rw [counted_snoc]
    split
    · rename_i hd
      refine List.pairwise_append.2 ⟨ih, List.pairwise_singleton .., fun e he d' hd' => ?_⟩
      rw [List.mem_singleton.1 hd']
      exact isOlder_eq_false_iff.1 (hd.2.2 e he)
    · exact ih

theorem le_last {last : Delivered K} (h : (counted source ds).getLast? = some last) :
    ∀ e ∈ counted source ds, e.event.time.micros ≤ last.event.time.micros := by
  obtain ⟨init, hinit⟩ := List.getLast?_eq_some_iff.1 h
  have hpairs := counted_pairwise source ds
  rw [hinit] at hpairs ⊢
  intro e he
  rcases List.mem_append.1 he with hold | hnew
  · exact (List.pairwise_append.1 hpairs).2.2 e hold last (List.mem_singleton.2 rfl)
  · rw [List.mem_singleton.1 hnew]

/-- To see whether a reading counts, the last one that counted is enough. -/
theorem counts_iff (d : Delivered K) : d.Counts (counted source ds) ↔
    d.isZero = false ∧
      Baselines.isLate ((counted source ds).getLast?.map baseline) d.baseline = false := by
  refine and_congr_right fun _ => ?_
  cases hlast : (counted source ds).getLast? with
  | none =>
    rw [List.getLast?_eq_none_iff.1 hlast]
    simp [Baselines.isLate]
  | some last =>
    constructor
    · intro h
      exact h last (List.mem_of_getLast? hlast)
    · intro h e he
      exact isOlder_eq_false_iff.2 ((le_last hlast e he).trans (isOlder_eq_false_iff.1 h))

theorem difference_eq (e d : Delivered K) :
    Baselines.difference (some e.baseline) d.baseline =
      if e.Gap d then none else some (d.consumed - e.consumed, d.provided - e.provided) := by
  let drops := Quantity.less d.consumed e.consumed || Quantity.less d.provided e.provided
  let stands :=
    Quantity.isZero (d.consumed - e.consumed) && Quantity.isZero (d.provided - e.provided)
  have hgap : e.Gap d ↔ drops = true ∨ stands = true := by
    rw [Gap, Bool.or_eq_true, Bool.and_eq_true, or_assoc]
  show (if drops = true then none else if stands = true then none else some _) = _
  by_cases hdrops : drops = true
  · rw [if_pos hdrops, if_pos (hgap.2 (Or.inl hdrops))]
  by_cases hstands : stands = true
  · rw [if_neg hdrops, if_pos hstands, if_pos (hgap.2 (Or.inr hstands))]
  · rw [if_neg hdrops, if_neg hstands, if_neg fun h => (hgap.1 h).elim hdrops hstands]
    rfl

end Delivered

namespace Biller

/-- The state of a biller, and the cost events of every source so far, are those of the readings
that count. -/
structure Follows (tariff : Tariff K) (ds : List (Delivered K)) (costs : List (Event (Costs K)))
    (b : Biller K) : Prop where
  tariff_eq : b.tariff = tariff
  baseline : ∀ s, b.baselines.lookup s = (counted s ds).getLast?.map Delivered.baseline
  costs_eq : ∀ s, costs.filter (fun c => c.source = s) = Delivered.costsOf tariff (counted s ds)

variable {tariff : Tariff K} {ds : List (Delivered K)} {costs : List (Event (Costs K))}
  {b : Biller K}

theorem Follows.take_of_not_counts (h : Follows tariff ds costs b) {d : Delivered K}
    (hd : ¬ d.Counts (counted d.source ds)) : b.take d.taken d.event = (none, b) := by
  have hskip : b.baselines.take d.event = (none, b.baselines) := by
    unfold Baselines.take
    split
    · rfl
    · rename_i hzero
      rw [counts_iff, ← h.baseline] at hd
      have hlate : Baselines.isLate (b.baselines.lookup d.source) d.baseline = true := by
        by_contra hlate
        exact hd ⟨Bool.eq_false_of_not_eq_true hzero, Bool.eq_false_of_not_eq_true hlate⟩
      exact if_pos hlate
  unfold take
  rw [hskip]
  rfl

theorem Follows.take_of_counts (h : Follows tariff ds costs b) {d : Delivered K}
    (hd : d.Counts (counted d.source ds)) : b.take d.taken d.event =
      (((counted d.source ds).getLast?.filter fun e => ¬ e.Gap d).map fun e => costOf tariff e d,
        { b with baselines :=
          (d.source, d.baseline) :: b.baselines.filter fun entry => entry.1 != d.source }) := by
  obtain ⟨hzero, hlate⟩ := (counts_iff d).1 hd
  have htake : b.baselines.take d.event =
      (Baselines.difference ((counted d.source ds).getLast?.map Delivered.baseline) d.baseline,
        (d.source, d.baseline) :: b.baselines.filter fun entry => entry.1 != d.source) := by
    rw [← h.baseline] at hlate ⊢
    unfold Baselines.take
    rw [if_neg (Bool.not_eq_true _ ▸ hzero)]
    exact if_neg (Bool.not_eq_true _ ▸ hlate)
  unfold take
  rw [htake, ← h.tariff_eq]
  cases (counted d.source ds).getLast? with
  | none => rfl
  | some e =>
    rw [Option.map_some, difference_eq]
    by_cases hgap : e.Gap d
    · simp [hgap, Option.filter]
    · simp [hgap, Option.filter, costOf, Tariff.bill, Delivered.source]

theorem Follows.step (h : Follows tariff ds costs b) (d : Delivered K) :
    Follows tariff (ds ++ [d]) (costs ++ (b.take d.taken d.event).1.toList)
      (b.take d.taken d.event).2 := by
  by_cases hd : d.Counts (counted d.source ds)
  · rw [h.take_of_counts hd]
    refine ⟨h.tariff_eq, fun s => ?_, fun s => ?_⟩
    · rw [lookup_put, counted_snoc]
      by_cases hs : s = d.source
      · subst hs
        rw [if_pos rfl, if_pos ⟨rfl, hd⟩, List.getLast?_concat]
        rfl
      · rw [if_neg hs, if_neg fun hc => hs hc.1.symm, h.baseline]
    · rw [List.filter_append, h.costs_eq, counted_snoc]
      by_cases hs : s = d.source
      · subst hs
        rw [if_pos ⟨rfl, hd⟩, costsOf_snoc, List.filter_eq_self.2]
        intro c hc
        obtain ⟨e, -, rfl⟩ := Option.map_eq_some_iff.1 (Option.mem_toList.1 hc)
        exact decide_eq_true rfl
      · rw [if_neg fun hc => hs hc.1.symm, List.filter_eq_nil_iff.2, List.append_nil]
        intro c hc
        obtain ⟨e, -, rfl⟩ := Option.map_eq_some_iff.1 (Option.mem_toList.1 hc)
        rw [decide_eq_true_iff]
        exact fun h => hs h.symm
  · have hsame : ∀ s, counted s (ds ++ [d]) = counted s ds := by
      intro s
      rw [counted_snoc, if_neg]
      rintro ⟨rfl, hc⟩
      exact hd hc
    rw [h.take_of_not_counts hd]
    refine ⟨h.tariff_eq, fun s => ?_, fun s => ?_⟩
    · rw [hsame, h.baseline]
    · rw [hsame, ← h.costs_eq, Option.toList_none, List.append_nil]

theorem follows_takeAll (tariff : Tariff K) (ds : List (Delivered K)) :
    Follows tariff ds ((Biller.new tariff).takeAll ds).1 ((Biller.new tariff).takeAll ds).2 := by
  induction ds using List.reverseRecOn with
  | nil => exact ⟨rfl, fun _ => rfl, fun _ => rfl⟩
  | append_singleton ds d ih =>
    rw [takeAll_snoc]
    exact ih.step d

end Biller

/-- What is billed for a source are the distances between its readings that count. -/
theorem Tariff.billed_eq (tariff : Tariff K) (source : String) (ds : List (Delivered K)) :
    tariff.billed source ds = costsOf tariff (counted source ds) :=
  (Biller.follows_takeAll tariff ds).costs_eq source

theorem Delivered.counted_filter (source : String) (ds : List (Delivered K)) :
    counted source (ds.filter fun d => d.source = source) = counted source ds := by
  induction ds using List.reverseRecOn with
  | nil => rfl
  | append_singleton ds d ih =>
    rw [List.filter_append]
    by_cases hs : d.source = source
    · rw [List.filter_cons_of_pos (by simpa using hs), List.filter_nil, counted_snoc, counted_snoc,
        ih]
    · rw [List.filter_cons_of_neg (by simpa using hs), List.filter_nil, List.append_nil, ih,
        counted_snoc, if_neg fun hc => hs hc.1]

theorem Biller.source_of_mem_takeAll {b : Biller K} {ds : List (Delivered K)} {c : Event (Costs K)}
    (h : c ∈ (b.takeAll ds).1) : ∃ d ∈ ds, d.source = c.source := by
  induction ds generalizing b with
  | nil => cases h
  | cons d ds ih =>
    rcases List.mem_append.1 h with hhere | hlater
    · obtain ⟨_, -, rfl⟩ := Option.map_eq_some_iff.1 (Option.mem_toList.1 hhere)
      exact ⟨d, List.mem_cons_self, rfl⟩
    · obtain ⟨e, he, hsource⟩ := ih hlater
      exact ⟨e, List.mem_cons_of_mem _ he, hsource⟩

/-- A source is billed the same when it is the only one. -/
theorem Tariff.takeAll_filter (tariff : Tariff K) (source : String) (ds : List (Delivered K)) :
    ((Biller.new tariff).takeAll (ds.filter fun d => d.source = source)).1 =
      tariff.billed source ds := by
  rw [tariff.billed_eq, ← counted_filter, ← tariff.billed_eq]
  refine (List.filter_eq_self.2 fun c hc => ?_).symm
  obtain ⟨d, hd, hsource⟩ := Biller.source_of_mem_takeAll hc
  rw [← hsource]
  exact (List.mem_filter.1 hd).2

/-! ## From the first reading to the last one -/

namespace Delivered

variable {source : String} {ds : List (Delivered K)}

def first? (source : String) (ds : List (Delivered K)) : Option (Delivered K) :=
  ds.find? fun d => d.source = source ∧ d.isZero = false

theorem head?_counted (source : String) (ds : List (Delivered K)) :
    (counted source ds).head? = first? source ds := by
  induction ds using List.reverseRecOn with
  | nil => rfl
  | append_singleton ds d ih =>
    unfold first? at ih ⊢
    rw [counted_snoc, List.find?_append, ← ih]
    cases hcounted : counted source ds with
    | nil =>
      by_cases hd : d.source = source ∧ d.isZero = false <;> simp [Counts, hd]
    | cons e es => split <;> rfl

theorem of_mem_counted {d : Delivered K} (h : d ∈ counted source ds) :
    d ∈ ds ∧ d.source = source ∧ d.isZero = false := by
  induction ds using List.reverseRecOn with
  | nil => cases h
  | append_singleton ds e ih =>
    rw [counted_snoc] at h
    have hold : d ∈ counted source ds → d ∈ ds ++ [e] ∧ d.source = source ∧ d.isZero = false :=
      fun hd => ⟨List.mem_append_left _ (ih hd).1, (ih hd).2⟩
    split at h
    · rename_i he
      rcases List.mem_append.1 h with hd | hd
      · exact hold hd
      · obtain rfl := List.mem_singleton.1 hd
        exact ⟨List.mem_append_right _ hd, he.1, he.2.1⟩
    · exact hold h

theorem exists_counted_ge {d : Delivered K} (hd : d ∈ ds) (hsource : d.source = source)
    (hzero : d.isZero = false) :
    ∃ e ∈ counted source ds, d.event.time.micros ≤ e.event.time.micros := by
  induction ds using List.reverseRecOn with
  | nil => cases hd
  | append_singleton ds d' ih =>
    rw [counted_snoc]
    rcases List.mem_append.1 hd with hold | hnew
    · obtain ⟨e, he, hle⟩ := ih hold
      refine ⟨e, ?_, hle⟩
      split
      · exact List.mem_append_left _ he
      · exact he
    · obtain rfl := List.mem_singleton.1 hnew
      by_cases hcounts : d.Counts (counted source ds)
      · rw [if_pos ⟨hsource, hcounts⟩]
        exact ⟨d, List.mem_append_right _ hnew, le_refl _⟩
      · -- Whatever made it too old to count is later.
        rw [if_neg fun h => hcounts h.2]
        by_contra hnone
        refine hcounts ⟨hzero, fun e he => isOlder_eq_false_iff.2 ?_⟩
        by_contra hlater
        exact hnone ⟨e, he, (not_le.1 hlater).le⟩

end Delivered

/-- The energy that cost events bill, as far as it was consumed. -/
def consumedIn (costs : List (Event (Costs Rat))) : Rat :=
  (costs.map fun c => c.values.consumed).sum

/-- The energy that cost events bill, as far as it was provided. -/
def providedIn (costs : List (Event (Costs Rat))) : Rat :=
  (costs.map fun c => c.values.provided).sum

theorem consumedIn_append (as bs : List (Event (Costs Rat))) :
    consumedIn (as ++ bs) = consumedIn as + consumedIn bs := by
  unfold consumedIn
  rw [List.map_append, List.sum_append]

theorem providedIn_append (as bs : List (Event (Costs Rat))) :
    providedIn (as ++ bs) = providedIn as + providedIn bs := by
  unfold providedIn
  rw [List.map_append, List.sum_append]

namespace Delivered

/-- No counter of a reading is below that of another one. -/
def NotBelow (e d : Delivered Rat) : Prop := e.consumed ≤ d.consumed ∧ e.provided ≤ d.provided

theorem sum_filter_costOf (tariff : Tariff Rat) {e d : Delivered Rat} (h : e.NotBelow d) :
    let costs := (((some e).filter fun e => ¬ e.Gap d).map fun e => costOf tariff e d).toList
    consumedIn costs = d.consumed - e.consumed ∧ providedIn costs = d.provided - e.provided := by
  by_cases hgap : e.Gap d
  · have hstill : d.consumed - e.consumed = 0 ∧ d.provided - e.provided = 0 := by
      rcases hgap with hdrop | hdrop | ⟨hconsumed, hprovided⟩
      · exact absurd (Quantity.rat_less _ _ |>.1 hdrop) (not_lt.2 h.1)
      · exact absurd (Quantity.rat_less _ _ |>.1 hdrop) (not_lt.2 h.2)
      · exact ⟨(Quantity.rat_isZero _).1 hconsumed, (Quantity.rat_isZero _).1 hprovided⟩
    simp [hgap, Option.filter, consumedIn, providedIn, hstill]
  · simp [hgap, Option.filter, consumedIn, providedIn, costOf]

/-- The costs of readings whose counters never drop add up to the whole distance. -/
theorem sum_costsOf (tariff : Tariff Rat) {ds : List (Delivered Rat)} {first last : Delivered Rat}
    (h : ds.Pairwise NotBelow) (hfirst : ds.head? = some first) (hlast : ds.getLast? = some last) :
    consumedIn (costsOf tariff ds) = last.consumed - first.consumed ∧
      providedIn (costsOf tariff ds) = last.provided - first.provided := by
  induction ds using List.reverseRecOn generalizing last with
  | nil => cases hfirst
  | append_singleton ds d ih =>
    obtain ⟨hds, -, hd⟩ := List.pairwise_append.1 h
    obtain rfl : d = last := by simpa using hlast
    rw [costsOf_snoc]
    cases hprev : ds.getLast? with
    | none =>
      obtain rfl := List.getLast?_eq_none_iff.1 hprev
      obtain rfl : d = first := by simpa using hfirst
      simp [costsOf, neighbours, consumedIn, providedIn]
    | some e =>
      have hhead : ds.head? = some first := by
        cases ds with
        | nil => cases hprev
        | cons a ds => exact hfirst
      obtain ⟨hconsumed, hprovided⟩ := ih hds hhead hprev
      obtain ⟨hconsumed', hprovided'⟩ := sum_filter_costOf tariff
        (hd e (List.mem_of_getLast? hprev) d (List.mem_singleton.2 rfl))
      rw [consumedIn_append, providedIn_append, hconsumed, hprovided, hconsumed', hprovided']
      exact ⟨sub_add_sub_cancel' .., sub_add_sub_cancel' ..⟩

end Delivered

/-! ## Counters that rise with time -/

/-- A counter that never drops from one moment to a later one. -/
def Rising (counter : Instant → Rat) : Prop := ∀ t u, t.micros ≤ u.micros → counter t ≤ counter u

theorem Rising.eq_of_micros {counter : Instant → Rat} (h : Rising counter) {t u : Instant}
    (htu : t.micros = u.micros) : counter t = counter u :=
  le_antisymm (h t u htu.le) (h u t htu.ge)

/-- The readings of a source show two counters at the moments at which they were made. -/
def Shows (source : String) (ds : List (Delivered Rat)) (consumed provided : Instant → Rat) :
    Prop :=
  ∀ d ∈ ds, d.source = source →
    d.consumed = consumed d.event.time ∧ d.provided = provided d.event.time

namespace Delivered

variable {source : String} {ds : List (Delivered Rat)} {consumed provided : Instant → Rat}

theorem isZero_iff (d : Delivered Rat) : d.isZero = true ↔ d.consumed = 0 ∧ d.provided = 0 := by
  show (Quantity.isZero d.consumed && Quantity.isZero d.provided) = true ↔ _
  rw [Bool.and_eq_true, Quantity.rat_isZero, Quantity.rat_isZero]

theorem counted_notBelow (hshows : Shows source ds consumed provided) (hconsumed : Rising consumed)
    (hprovided : Rising provided) : (counted source ds).Pairwise NotBelow := by
  refine (counted_pairwise source ds).imp_of_mem fun {e d} he hd hle => ?_
  obtain ⟨heds, hesource, -⟩ := of_mem_counted he
  obtain ⟨hdds, hdsource, -⟩ := of_mem_counted hd
  rw [NotBelow, (hshows e heds hesource).1, (hshows e heds hesource).2,
    (hshows d hdds hdsource).1, (hshows d hdds hdsource).2]
  exact ⟨hconsumed _ _ hle, hprovided _ _ hle⟩

theorem isZero_of_le (hshows : Shows source ds consumed provided) (hconsumed : Rising consumed)
    (hprovided : Rising provided) (hpos : ∀ t, 0 ≤ consumed t ∧ 0 ≤ provided t)
    {e d : Delivered Rat} (he : e ∈ ds) (hd : d ∈ ds) (hesource : e.source = source)
    (hdsource : d.source = source) (hle : e.event.time.micros ≤ d.event.time.micros)
    (hzero : d.isZero = true) : e.isZero = true := by
  rw [isZero_iff, (hshows d hd hdsource).1, (hshows d hd hdsource).2] at hzero
  rw [isZero_iff, (hshows e he hesource).1, (hshows e he hesource).2]
  have hc := hconsumed _ _ hle
  have hp := hprovided _ _ hle
  rw [hzero.1] at hc
  rw [hzero.2] at hp
  exact ⟨le_antisymm hc (hpos _).1, le_antisymm hp (hpos _).2⟩

end Delivered

/-- The cost events of a source are, in order, the distances between its readings that count, and
readings of other sources have no say in them. So, where the counters of the source rise with time,
what is billed is the counter at the latest moment of a reading that is not zero minus the counter
of the first one. No later reading can be zero when counters are never negative. -/
theorem Tariff.billed_once :
    (∀ {K : Type} [Quantity K] (tariff : Tariff K) (source : String) (ds : List (Delivered K)),
      tariff.billed source ds = costsOf tariff (counted source ds) ∧
        ((Biller.new tariff).takeAll (ds.filter fun d => d.source = source)).1 =
          tariff.billed source ds) ∧
      ∀ (tariff : Tariff Rat) (source : String) (ds : List (Delivered Rat))
        (consumed provided : Instant → Rat), Rising consumed → Rising provided →
        Shows source ds consumed provided →
        ∀ first latest : Delivered Rat, first? source ds = some first →
          latest ∈ ds → latest.source = source →
          (∀ d ∈ ds, d.source = source → d.isZero = false →
            d.event.time.micros ≤ latest.event.time.micros) →
          (latest.isZero = false ∨ ∀ t, 0 ≤ consumed t ∧ 0 ≤ provided t) →
          consumedIn (tariff.billed source ds) = latest.consumed - first.consumed ∧
            providedIn (tariff.billed source ds) = latest.provided - first.provided := by
  constructor
  · intro K _ tariff source ds
    exact ⟨tariff.billed_eq source ds, tariff.takeAll_filter source ds⟩
  intro tariff source ds consumed provided hconsumed hprovided hshows first latest hfirst hlatest
    hsource hmax hzero
  have hnonzero : latest.isZero = false := by
    rcases hzero with hzero | hpos
    · exact hzero
    · have hfirstzero := List.find?_some hfirst
      rw [decide_eq_true_iff] at hfirstzero
      have hmem := List.mem_of_find?_eq_some hfirst
      refine Bool.eq_false_of_not_eq_true fun hz => ?_
      have hz' := isZero_of_le hshows hconsumed hprovided hpos hmem hlatest hfirstzero.1 hsource
        (hmax first hmem hfirstzero.1 hfirstzero.2) hz
      rw [hfirstzero.2] at hz'
      cases hz'
  -- The last reading that counts was made at the same moment as the latest one.
  obtain ⟨e, he, hle⟩ := exists_counted_ge hlatest hsource hnonzero
  obtain ⟨last, hlast⟩ :=
    Option.isSome_iff_exists.1 (List.getLast?_isSome.2 (List.ne_nil_of_mem he))
  obtain ⟨hmem, hlastsource, hlastzero⟩ := of_mem_counted (List.mem_of_getLast? hlast)
  have htime : last.event.time.micros = latest.event.time.micros :=
    le_antisymm (hmax last hmem hlastsource hlastzero) (hle.trans (le_last hlast e he))
  have hsame : last.consumed = latest.consumed ∧ last.provided = latest.provided := by
    rw [(hshows last hmem hlastsource).1, (hshows last hmem hlastsource).2,
      (hshows latest hlatest hsource).1, (hshows latest hlatest hsource).2]
    exact ⟨hconsumed.eq_of_micros htime, hprovided.eq_of_micros htime⟩
  rw [tariff.billed_eq, ← hsame.1, ← hsame.2]
  exact sum_costsOf tariff (counted_notBelow hshows hconsumed hprovided)
    ((head?_counted source ds).trans hfirst) hlast

/-- A reading of the grid at a second, with counters in kWh. -/
def reading (second : Int) (consumed provided : Rat) : Delivered Rat where
  event :=
    { time := ⟨second * 1000000⟩
      source := "grid"
      role := .grid
      values :=
        ⟨.zero,
          { Electricity.Usage.zero with setConsumed := consumed, setProvided := provided }⟩ }
  taken := ⟨second * 1000000⟩

/-- A counter that starts at 100 kWh and counts one more every second. -/
def onePerSecond (t : Instant) : Rat := 100 + t.micros / 1000000

theorem rising_onePerSecond : Rising onePerSecond := by
  intro t u h
  unfold onePerSecond
  have hcast : (t.micros : Rat) ≤ u.micros := Int.cast_le.2 h
  linarith

/-- The reading of second 1 comes after that of second 2, and nothing is billed twice for it. -/
theorem late_reading_billed_once :
    let ds := [reading 0 100 0, reading 2 102 0, reading 1 101 0, reading 3 103 0]
    Rising onePerSecond ∧ Shows "grid" ds onePerSecond (fun _ => 0) ∧
      (reading 3 103 0).isZero = false ∧
      consumedIn (Tariff.billed ⟨3 / 10, 2 / 25⟩ "grid" ds) = 3 := by
  intro ds
  have hshows : Shows "grid" ds onePerSecond fun _ => 0 := by
    unfold Shows
    decide +kernel
  have hzero : (reading 3 103 0).isZero = false := by decide +kernel
  have hmax : ∀ d ∈ ds, d.source = "grid" → d.isZero = false →
      d.event.time.micros ≤ (reading 3 103 0).event.time.micros := by
    decide +kernel
  have hbilled := (Tariff.billed_once.2 ⟨3 / 10, 2 / 25⟩ "grid" ds onePerSecond (fun _ => 0)
    rising_onePerSecond (fun _ _ _ => le_refl _) hshows (reading 0 100 0) (reading 3 103 0) rfl
    (by simp [ds]) rfl hmax (Or.inl hzero)).1
  refine ⟨rising_onePerSecond, hshows, hzero, hbilled.trans ?_⟩
  decide +kernel

/-- A counter that is five kWh below zero, and at zero from second 1 on. -/
def upToZero (t : Instant) : Rat := if t.micros < 1000000 then -5 else 0

theorem rising_upToZero : Rising upToZero := by
  intro t u h
  unfold upToZero
  split <;> split
  · exact le_refl _
  · decide
  · omega
  · exact le_refl _

/-- What a counter rises by up to zero is not billed, because a reading at zero does not count. -/
theorem rise_to_zero_not_billed :
    ¬ ∀ (tariff : Tariff Rat) (source : String) (ds : List (Delivered Rat))
      (consumed provided : Instant → Rat), Rising consumed → Rising provided →
      Shows source ds consumed provided →
      ∀ first latest : Delivered Rat, first? source ds = some first →
        latest ∈ ds → latest.source = source →
        (∀ d ∈ ds, d.source = source → d.event.time.micros ≤ latest.event.time.micros) →
        consumedIn (tariff.billed source ds) = latest.consumed - first.consumed ∧
          providedIn (tariff.billed source ds) = latest.provided - first.provided := by
  intro h
  let ds := [reading 0 (-5) 0, reading 1 0 0]
  have hshows : Shows "grid" ds upToZero fun _ => 0 := by
    unfold Shows
    decide +kernel
  have hmax : ∀ d ∈ ds, d.source = "grid" →
      d.event.time.micros ≤ (reading 1 0 0).event.time.micros := by
    decide +kernel
  have hbilled := (h ⟨1, 1⟩ "grid" ds upToZero (fun _ => 0) rising_upToZero (fun _ _ _ => le_refl _)
    hshows (reading 0 (-5) 0) (reading 1 0 0) rfl (by simp [ds]) rfl hmax).1
  have hnothing : consumedIn (Tariff.billed ⟨1, 1⟩ "grid" ds) = 0 := by decide +kernel
  have hfive : (reading 1 0 0).consumed - (reading 0 (-5) 0).consumed = 5 := by decide +kernel
  rw [hnothing, hfive] at hbilled
  exact absurd hbilled (by decide)

end HomeMetering
