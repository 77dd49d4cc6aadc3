import HomeMetering.Proofs.Source.Ticking
import Mathlib.Tactic.Linarith

/-!
# Accounts of meters

An account follows what a meter contributes to the readings of its source: from where its bill
starts to what it contributed last. It never gets above what the meter shows, so what the accounts
of all meters have risen by was counted.
-/

namespace HomeMetering

open Electricity Modbus Site Site.Job

/-- What stands behind one meter while its source is billed: where its bill starts, how far it has
got, and what the meter contributed to the last reading that counted. -/
structure Account where
  floor : Rat
  level : Rat
  counted : Rat

namespace Account

/-- What a meter contributed to the last reading bears its level, and whatever it contributes now is
the same still or was read since. -/
structure Fits (p : Panel) (a : Account) (m : Meter Rat) : Prop where
  level_le_counted : a.level ≤ a.counted
  level_le_import : a.level ≤ m.importOn p
  share : m.share = a.counted ∨ a.level ≤ m.share ∧ m.share ≤ m.importOn p

/-- The account of a meter at a first reading. -/
def opened (p : Panel) (m : Meter Rat) : Account :=
  ⟨min (m.importOn p) m.share, min (m.importOn p) m.share, m.share⟩

theorem fits_opened (p : Panel) (m : Meter Rat) : (opened p m).Fits p m :=
  ⟨min_le_right _ _, min_le_left _ _, Or.inl rfl⟩

theorem Fits.polled {p q : Panel} {a : Account} {m m' : Meter Rat} (h : a.Fits p m)
    (hm : m.CountsEnergy) (hpolled : m.Polled q m') (hrise : m.importOn p ≤ m.importOn q) :
    a.Fits q m' := by
  have himport := congrFun (hpolled.importOn_eq hm) q
  have hlevel : a.level ≤ m'.importOn q := by
    rw [himport]
    exact h.level_le_import.trans hrise
  refine ⟨h.level_le_counted, hlevel, ?_⟩
  -- A poll keeps the counters or reads them from the new panel.
  rcases hpolled.share_eq hm with hsame | hread
  · rw [hsame, himport]
    exact h.share.imp_right fun hbetween => ⟨hbetween.1, hbetween.2.trans hrise⟩
  · rw [hread, ← himport]
    exact Or.inr ⟨hlevel, le_refl _⟩

/-- The account after a reading that counts. -/
def settled (a : Account) (m : Meter Rat) : Account :=
  if m.share = a.counted then a else ⟨a.floor, m.share, m.share⟩

theorem Fits.settled {p : Panel} {a : Account} {m : Meter Rat} (h : a.Fits p m) :
    (a.settled m).Fits p m ∧ (a.settled m).floor = a.floor ∧ (a.settled m).counted = m.share ∧
      a.level ≤ (a.settled m).level ∧
      m.share - a.counted ≤ (a.settled m).level - a.level := by
  unfold Account.settled
  split
  · -- A contribution that stayed was billed before, even where it lies above the level.
    rename_i hsame
    refine ⟨h, rfl, hsame.symm, le_refl _, ?_⟩
    rw [hsame, sub_self, sub_self]
  · rename_i hchanged
    obtain ⟨hlow, hhigh⟩ := h.share.resolve_left hchanged
    refine ⟨⟨le_refl _, hhigh, Or.inl rfl⟩, rfl, rfl, hlow, ?_⟩
    exact sub_le_sub_left h.level_le_counted m.share

/-- Accounts of the meters of a source: they start at given floors, the last reading that counted
came to a total, and at most so much is billed as they have got above their floors. -/
structure Cover (p : Panel) (floors : List Rat) (total billed : Rat) (ms : List (Meter Rat))
    (accounts : List Account) : Prop where
  fits : List.Forall₂ (Fits p) accounts ms
  floors_eq : accounts.map floor = floors
  total_eq : (accounts.map counted).sum = total
  covered : billed ≤ (accounts.map level).sum - floors.sum

variable {p q : Panel} {floors : List Rat} {total billed : Rat} {ms ms' : List (Meter Rat)}
  {accounts : List Account}

theorem cover_opened (p : Panel) (ms : List (Meter Rat)) :
    Cover p (ms.map fun m => min (m.importOn p) m.share) (ms.map Meter.share).sum 0 ms
      (ms.map (opened p)) where
  fits := by
    induction ms with
    | nil => exact .nil
    | cons m ms ih => exact .cons (fits_opened p m) ih
  floors_eq := by
    rw [List.map_map]
    rfl
  total_eq := by
    rw [List.map_map]
    rfl
  covered := by
    rw [List.map_map]
    exact le_of_eq (sub_self (_ : Rat)).symm

theorem Cover.polled (h : Cover p floors total billed ms accounts)
    (hcounts : ∀ m ∈ ms, m.CountsEnergy) (hpolled : List.Forall₂ (Meter.Polled q) ms ms')
    (hrise : ∀ m ∈ ms, m.importOn p ≤ m.importOn q) :
    Cover q floors total billed ms' accounts := by
  refine ⟨?_, h.floors_eq, h.total_eq, h.covered⟩
  have hfits := h.fits
  clear h
  induction hfits generalizing ms' with
  | nil =>
    cases hpolled
    exact .nil
  | cons ha _ ih =>
    cases hpolled with
    | cons hm hms =>
      refine .cons (ha.polled (hcounts _ List.mem_cons_self) hm (hrise _ List.mem_cons_self)) ?_
      exact ih (fun m hm => hcounts m (List.mem_cons_of_mem _ hm)) hms
        fun m hm => hrise m (List.mem_cons_of_mem _ hm)

theorem Cover.settled (h : Cover p floors total billed ms accounts) {cost : Rat}
    (hcost : cost = 0 ∨ cost = (ms.map Meter.share).sum - total) :
    ∃ accounts', Cover p floors (ms.map Meter.share).sum (billed + cost) ms accounts' := by
  have hall : ∃ accounts', List.Forall₂ (Fits p) accounts' ms ∧
      accounts'.map floor = accounts.map floor ∧ accounts'.map counted = ms.map Meter.share ∧
      (accounts.map level).sum ≤ (accounts'.map level).sum ∧
      (ms.map Meter.share).sum - (accounts.map counted).sum ≤
        (accounts'.map level).sum - (accounts.map level).sum := by
    have hfits := h.fits
    clear h hcost
    induction hfits with
    | nil => exact ⟨[], .nil, rfl, rfl, le_refl _, le_refl _⟩
    | cons ha _ ih =>
      obtain ⟨accounts', hfits, hfloor, hcounted, hlevel, hrise⟩ := ih
      obtain ⟨ha1, ha2, ha3, ha4, ha5⟩ := ha.settled
      refine ⟨_, .cons ha1 hfits, ?_, ?_, ?_, ?_⟩
      · rw [List.map_cons, List.map_cons, ha2, hfloor]
      · rw [List.map_cons, List.map_cons, ha3, hcounted]
      · simp only [List.map_cons, List.sum_cons]
        linarith
      · simp only [List.map_cons, List.sum_cons]
        linarith
  obtain ⟨accounts', hfits, hfloor, hcounted, hlevel, hrise⟩ := hall
  have hbilled := h.covered
  have htotal := h.total_eq
  refine ⟨accounts', hfits, hfloor.trans h.floors_eq, congrArg List.sum hcounted, ?_⟩
  rcases hcost with rfl | rfl <;> linarith

/-- No more is billed than the meters have counted above their floors. -/
theorem Cover.billed_le (h : Cover p floors total billed ms accounts) :
    billed ≤ (ms.map (·.importOn p)).sum - floors.sum := by
  have hlevel : (accounts.map level).sum ≤ (ms.map (·.importOn p)).sum := by
    have hfits := h.fits
    clear h
    induction hfits with
    | nil => exact le_refl _
    | cons ha _ ih =>
      simp only [List.map_cons, List.sum_cons]
      exact add_le_add ha.level_le_import ih
  exact h.covered.trans (sub_le_sub_right hlevel _)

end Account

end HomeMetering
