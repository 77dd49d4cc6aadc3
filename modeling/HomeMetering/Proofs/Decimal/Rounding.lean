import HomeMetering.Proofs.Decimal.Numbers
import Mathlib.Algebra.Order.Field.Power
import Mathlib.Data.Rat.Cast.Order
import Mathlib.Tactic.FieldSimp
import Mathlib.Tactic.GCongr
import Mathlib.Tactic.Linarith
import Mathlib.Tactic.NormNum
import Mathlib.Tactic.Positivity
import Mathlib.Tactic.Ring

/-!
# Rounding

The value of a format nearest to a fraction grows with the fraction, and so do its bits. A quotient
of two integers that doubles can hold is the double nearest to their fraction.
-/

namespace HomeMetering.Decimal.Binary

/-! ## Nearest integers -/

theorem le_divEven (a b : Nat) : a / b ≤ divEven a b := by
  unfold divEven divNearest
  dsimp only
  split_ifs <;> omega

theorem divEven_le (a b : Nat) : divEven a b ≤ a / b + 1 := by
  unfold divEven divNearest
  dsimp only
  split_ifs <;> omega

theorem divEven_mul {d : Nat} (hd : 0 < d) (n : Nat) : divEven (n * d) d = n := by
  unfold divEven divNearest
  dsimp only
  rw [Nat.mul_mod_left, Nat.mul_div_cancel n hd, if_pos (by omega)]

theorem divEven_mono {a b c d : Nat} (hb : 0 < b) (hd : 0 < d) (h : a * d ≤ c * b) :
    divEven a b ≤ divEven c d := by
  have hfloor : a / b ≤ c / d := by
    rw [Nat.le_div_iff_mul_le hd]
    refine Nat.le_of_mul_le_mul_right ?_ hb
    calc a / b * d * b = a / b * b * d := Nat.mul_right_comm ..
      _ ≤ a * d := Nat.mul_le_mul_right d (Nat.div_mul_le_self a b)
      _ ≤ c * b := h
  rcases Nat.lt_or_eq_of_le hfloor with hlt | heq
  · exact (divEven_le a b).trans (hlt.trans_le (le_divEven c d))
  · -- Between the same integers the remainders decide.
    have hrest : a % b * d ≤ c % d * b := by
      have ha := Nat.div_add_mod a b
      have hc := Nat.div_add_mod c d
      rw [← ha, ← hc, heq] at h
      nlinarith
    unfold divEven divNearest
    dsimp only
    rw [heq]
    have hlow : 2 * (c % d) < d → 2 * (a % b) < b := by
      intro hc
      by_contra ha
      nlinarith
    have hhigh : b < 2 * (a % b) → d < 2 * (c % d) := by
      intro ha
      by_contra hc
      nlinarith
    split_ifs <;> omega

theorem divEven_le_of_div_le {a b c d : Nat} (hb : 0 < b) (hd : 0 < d)
    (h : (a / b : Rat) ≤ c / d) : divEven a b ≤ divEven c d := by
  refine divEven_mono hb hd ?_
  rw [div_le_div_iff₀ (by positivity) (by positivity)] at h
  exact_mod_cast h

/-! ## Scaled fractions -/

theorem scaleEven_eq (num den : Nat) (e : Int) :
    scaleEven num den e = divEven (num * 2 ^ (-e).toNat) (den * 2 ^ e.toNat) := by
  cases e with
  | ofNat k => simp [scaleEven, Nat.shiftLeft_eq]
  | negSucc k => simp [scaleEven, Nat.shiftLeft_eq, Int.neg_negSucc]

theorem zpow_eq_div (e : Int) : (2 : Rat) ^ e = 2 ^ e.toNat / 2 ^ (-e).toNat := by
  rw [← zpow_natCast, ← zpow_natCast, ← zpow_sub₀ (by norm_num), Int.toNat_sub_toNat_neg]

theorem two_pow_mul_zpow (k : Nat) (e : Int) : ((2 ^ k : Nat) : Rat) * 2 ^ e = 2 ^ (e + k) := by
  rw [zpow_add₀ (by norm_num), zpow_natCast, Nat.cast_pow, Nat.cast_ofNat, mul_comm]

theorem scaled_eq (num den : Nat) (e : Int) :
    ((num * 2 ^ (-e).toNat : Nat) / (den * 2 ^ e.toNat : Nat) : Rat) = num / den / 2 ^ e := by
  rw [zpow_eq_div]
  push_cast
  field_simp

theorem belowPower_iff (num : Nat) {den : Nat} (hden : 0 < den) (e : Int) :
    belowPower num den e = true ↔ (num / den : Rat) < 2 ^ e := by
  have hbelow : belowPower num den e = true ↔
      num * 2 ^ (-e).toNat < den * 2 ^ e.toNat := by
    cases e with
    | ofNat k => simp [belowPower, Nat.shiftLeft_eq]
    | negSucc k => simp [belowPower, Nat.shiftLeft_eq, Int.neg_negSucc]
  rw [hbelow, zpow_eq_div, div_lt_div_iff₀ (by positivity) (by positivity), mul_comm (2 ^ _) _]
  exact_mod_cast Iff.rfl

section

variable {num den num' den' : Nat} (hden : 0 < den) (hden' : 0 < den') {e e' : Int}

include hden

theorem le_scaleEven {n : Nat} (h : (n : Rat) ≤ num / den / 2 ^ e) :
    n ≤ scaleEven num den e := by
  rw [← scaled_eq] at h
  rw [scaleEven_eq, ← divEven_mul Nat.one_pos n]
  refine divEven_le_of_div_le Nat.one_pos (by positivity) ?_
  simpa using h

theorem scaleEven_le {n : Nat} (h : (num / den / 2 ^ e : Rat) ≤ n) :
    scaleEven num den e ≤ n := by
  rw [← scaled_eq] at h
  rw [scaleEven_eq, ← divEven_mul Nat.one_pos n]
  refine divEven_le_of_div_le (by positivity) Nat.one_pos ?_
  simpa using h

include hden'

theorem scaleEven_mono (h : (num / den / 2 ^ e : Rat) ≤ num' / den' / 2 ^ e') :
    scaleEven num den e ≤ scaleEven num' den' e' := by
  rw [← scaled_eq, ← scaled_eq] at h
  rw [scaleEven_eq, scaleEven_eq]
  exact divEven_le_of_div_le (by positivity) (by positivity) h

theorem scaleEven_eq_divEven (h : (num / den / 2 ^ e : Rat) = num' / den') :
    scaleEven num den e = divEven num' den' := by
  rw [← scaled_eq] at h
  rw [scaleEven_eq]
  exact le_antisymm (divEven_le_of_div_le (by positivity) hden' h.le)
    (divEven_le_of_div_le hden' (by positivity) h.ge)

end

/-! ## Nearest values -/

section

variable (f : Format) {num den num' den' : Nat} (hnum : 0 < num) (hden : 0 < den)
  (hden' : 0 < den')

include hnum hden

theorem log2_bounds :
    let guess : Int := (num.log2 : Int) - den.log2
    (2 : Rat) ^ (guess - 1) < num / den ∧ (num / den : Rat) < 2 ^ (guess + 1) := by
  intro guess
  have hnum_le : (2 : Rat) ^ (num.log2 : Int) ≤ num := by
    rw [zpow_natCast]
    exact_mod_cast Nat.log2_self_le hnum.ne'
  have hnum_lt : (num : Rat) < 2 ^ ((num.log2 : Int) + 1) := by
    rw [← Nat.cast_succ, zpow_natCast]
    exact_mod_cast Nat.lt_log2_self
  have hden_le : (2 : Rat) ^ (den.log2 : Int) ≤ den := by
    rw [zpow_natCast]
    exact_mod_cast Nat.log2_self_le hden.ne'
  have hden_lt : (den : Rat) < 2 ^ ((den.log2 : Int) + 1) := by
    rw [← Nat.cast_succ, zpow_natCast]
    exact_mod_cast Nat.lt_log2_self
  have hdenpos : (0 : Rat) < den := by exact_mod_cast hden
  constructor
  · rw [lt_div_iff₀ hdenpos]
    calc (2 : Rat) ^ (guess - 1) * den
        < 2 ^ (guess - 1) * 2 ^ ((den.log2 : Int) + 1) := by gcongr
      _ = 2 ^ (num.log2 : Int) := by
        rw [← zpow_add₀ (by norm_num)]
        congr 1
        omega
      _ ≤ num := hnum_le
  · rw [div_lt_iff₀ hdenpos]
    calc (num : Rat) < 2 ^ ((num.log2 : Int) + 1) := hnum_lt
      _ = 2 ^ (guess + 1) * 2 ^ (den.log2 : Int) := by
        rw [← zpow_add₀ (by norm_num)]
        congr 1
        omega
      _ ≤ 2 ^ (guess + 1) * den := by gcongr

/-- The last place of the value nearest to a fraction, and the bits that it has above it. -/
theorem exists_nearest :
    ∃ e : Int, f.leastExponent ≤ e ∧ (num / den : Rat) < 2 ^ (e + f.fractionBits + 1) ∧
      (f.leastExponent < e → (2 : Rat) ^ (e + f.fractionBits) ≤ num / den) ∧
      f.nearest num den =
        min ((e - f.leastExponent).toNat * 2 ^ f.fractionBits + scaleEven num den e)
          (f.topField * 2 ^ f.fractionBits) := by
  let guess : Int := (num.log2 : Int) - den.log2
  let top := if belowPower num den guess then guess - 1 else guess
  obtain ⟨hlow, hhigh⟩ := log2_bounds hnum hden
  have htop : (2 : Rat) ^ top ≤ num / den ∧ (num / den : Rat) < 2 ^ (top + 1) := by
    by_cases hbelow : belowPower num den guess = true
    · have htop : top = guess - 1 := if_pos hbelow
      rw [htop, Int.sub_add_cancel]
      exact ⟨hlow.le, (belowPower_iff num hden guess).1 hbelow⟩
    · have htop : top = guess := if_neg hbelow
      rw [htop]
      exact ⟨not_lt.1 (mt (belowPower_iff num hden guess).2 hbelow), hhigh⟩
  refine ⟨max (top - f.fractionBits) f.leastExponent, le_max_right _ _, ?_, fun hlt => ?_, ?_⟩
  · refine htop.2.trans_le (zpow_le_zpow_right₀ (by norm_num) ?_)
    omega
  · refine le_trans (zpow_le_zpow_right₀ (by norm_num) ?_) htop.1
    omega
  · unfold Format.nearest
    rw [if_neg hnum.ne', ← Nat.shiftLeft_eq, ← Nat.shiftLeft_eq]

theorem nearest_eq {e : Int} (hleast : f.leastExponent ≤ e)
    (hle : (2 : Rat) ^ (e + f.fractionBits) ≤ num / den)
    (hlt : (num / den : Rat) < 2 ^ (e + f.fractionBits + 1)) :
    f.nearest num den =
      min ((e - f.leastExponent).toNat * 2 ^ f.fractionBits + scaleEven num den e)
        (f.topField * 2 ^ f.fractionBits) := by
  obtain ⟨e', hleast', hlt', hle', heq⟩ := exists_nearest f hnum hden
  have hone : (1 : Rat) < 2 := by norm_num
  have hbelow := (zpow_lt_zpow_iff_right₀ hone).1 (hle.trans_lt hlt')
  rcases lt_or_eq_of_le (show e ≤ e' by omega) with hee | rfl
  · have habove := (zpow_lt_zpow_iff_right₀ hone).1 ((hle' (by omega)).trans_lt hlt)
    omega
  · exact heq

omit hnum in
theorem nearest_mono (hden' : 0 < den') (h : (num / den : Rat) ≤ num' / den') :
    f.nearest num den ≤ f.nearest num' den' := by
  have hdenpos : (0 : Rat) < den := by exact_mod_cast hden
  have hdenpos' : (0 : Rat) < den' := by exact_mod_cast hden'
  rcases Nat.eq_zero_or_pos num with rfl | hnum
  · exact (if_pos rfl : f.nearest 0 den = 0) ▸ Nat.zero_le _
  have hnum' : 0 < num' := by
    have hpos : (0 : Rat) < num' / den' := lt_of_lt_of_le (by positivity) h
    rw [div_pos_iff_of_pos_right hdenpos'] at hpos
    exact_mod_cast hpos
  obtain ⟨e, hleast, hlt, hle, heq⟩ := exists_nearest f hnum hden
  obtain ⟨e', hleast', hlt', hle', heq'⟩ := exists_nearest f hnum' hden'
  rw [heq, heq']
  refine min_le_min_right _ ?_
  rcases lt_trichotomy e e' with hee | rfl | hee
  · -- The value is below the binade of the other one.
    have hscaled : scaleEven num den e ≤ 2 ^ (f.fractionBits + 1) := by
      refine scaleEven_le hden ?_
      rw [div_le_iff₀ (by positivity), two_pow_mul_zpow, Nat.cast_succ, ← add_assoc]
      exact hlt.le
    have hscaled' : 2 ^ f.fractionBits ≤ scaleEven num' den' e' := by
      refine le_scaleEven hden' ?_
      rw [le_div_iff₀ (by positivity), two_pow_mul_zpow]
      exact hle' (by omega)
    have hsteps : (e - f.leastExponent).toNat + 1 ≤ (e' - f.leastExponent).toNat := by omega
    have hmul := Nat.mul_le_mul_right (2 ^ f.fractionBits) hsteps
    rw [Nat.pow_succ] at hscaled
    rw [Nat.add_mul, Nat.one_mul] at hmul
    omega
  · exact Nat.add_le_add_left (scaleEven_mono hden hden' (by gcongr)) _
  · have habove := (zpow_lt_zpow_iff_right₀ (show (1 : Rat) < 2 by norm_num)).1
      (((hle (by omega)).trans h).trans_lt hlt')
    omega

end

/-! ## From one format to another -/

namespace Format

variable (f : Format)

/-- How many binades bits are above the lowest one. -/
def binade (bits : Nat) : Nat := bits / 2 ^ f.fractionBits - 1

/-- The significant bits, the leading one included. -/
def significand (bits : Nat) : Nat := bits - f.binade bits * 2 ^ f.fractionBits

theorem significand_eq (bits : Nat) :
    f.significand bits =
      (if bits / 2 ^ f.fractionBits = 0 then 0 else 2 ^ f.fractionBits) +
        bits % 2 ^ f.fractionBits := by
  have hsplit := Nat.div_add_mod' bits (2 ^ f.fractionBits)
  unfold significand binade
  cases hfield : bits / 2 ^ f.fractionBits with
  | zero =>
    rw [hfield, Nat.zero_mul] at hsplit
    rw [if_pos rfl, Nat.zero_sub, Nat.zero_mul]
    omega
  | succ k =>
    rw [hfield, Nat.add_one_mul] at hsplit
    rw [if_neg k.succ_ne_zero, Nat.add_sub_cancel]
    omega

theorem decode_eq {bits : Nat} (h : bits < f.topField * 2 ^ f.fractionBits) :
    f.decode bits = .finite (f.significand bits) (f.leastExponent + f.binade bits) := by
  have hfield : bits / 2 ^ f.fractionBits < f.topField :=
    (Nat.div_lt_iff_lt_mul (Nat.two_pow_pos _)).2 h
  have hmod : bits / 2 ^ f.fractionBits % 2 ^ f.exponentBits = bits / 2 ^ f.fractionBits :=
    Nat.mod_eq_of_lt (hfield.trans_le (Nat.sub_le _ _))
  rw [significand_eq]
  unfold decode binade
  dsimp only
  rw [show Nat.pow 2 f.fractionBits = 2 ^ f.fractionBits from rfl,
    show Nat.pow 2 f.exponentBits = 2 ^ f.exponentBits from rfl, hmod, if_neg hfield.ne]
  split_ifs with hzero
  · rw [hzero, Nat.zero_add, Nat.zero_sub, Nat.cast_zero, Int.add_zero]
  · rfl

theorem significand_mul_le {bits bits' : Nat} (h : bits ≤ bits') :
    f.significand bits * 2 ^ f.binade bits ≤ f.significand bits' * 2 ^ f.binade bits' := by
  have hfloor : bits / 2 ^ f.fractionBits ≤ bits' / 2 ^ f.fractionBits := Nat.div_le_div_right h
  have hbinade : f.binade bits ≤ f.binade bits' := Nat.sub_le_sub_right hfloor 1
  rcases Nat.lt_or_eq_of_le hbinade with hlt | heq
  · have hlow : f.significand bits ≤ 2 * 2 ^ f.fractionBits := by
      have hrest := Nat.mod_lt bits (Nat.two_pow_pos f.fractionBits)
      rw [significand_eq]
      split_ifs <;> omega
    have hhigh : 2 ^ f.fractionBits ≤ f.significand bits' := by
      have hfield : bits' / 2 ^ f.fractionBits ≠ 0 := by
        unfold binade at hlt
        omega
      rw [significand_eq, if_neg hfield]
      exact Nat.le_add_right _ _
    calc f.significand bits * 2 ^ f.binade bits
        ≤ 2 * 2 ^ f.fractionBits * 2 ^ f.binade bits := Nat.mul_le_mul_right _ hlow
      _ = 2 ^ f.fractionBits * 2 ^ (f.binade bits + 1) := by ring
      _ ≤ f.significand bits' * 2 ^ f.binade bits' :=
        Nat.mul_le_mul hhigh (Nat.pow_le_pow_right Nat.two_pos hlt)
  · unfold significand
    rw [← heq]
    exact Nat.mul_le_mul_right _ (Nat.sub_le_sub_right h _)

theorem round_finite (m : Nat) (q : Int) :
    f.round (.finite m q) = f.nearest (m * 2 ^ q.toNat) (2 ^ (-q).toNat) := by
  cases q with
  | ofNat k => simp [Format.round, Nat.shiftLeft_eq]
  | negSucc k => simp [Format.round, Nat.shiftLeft_eq, Int.neg_negSucc]

/-- Larger bits of one format stand for values that are rounded to larger bits of another. -/
theorem round_decode_mono (g : Format) {bits bits' : Nat} (h : bits ≤ bits')
    (htop : bits' < f.topField * 2 ^ f.fractionBits) :
    g.round (f.decode bits) ≤ g.round (f.decode bits') := by
  have hvalue (b : Nat) : ((f.significand b * 2 ^ (f.leastExponent + f.binade b).toNat : Nat) /
      (2 ^ (-(f.leastExponent + f.binade b)).toNat : Nat) : Rat) =
        (f.significand b * 2 ^ f.binade b : Nat) * 2 ^ f.leastExponent := by
    rw [Nat.cast_mul, mul_div_assoc, Nat.cast_pow, Nat.cast_pow, Nat.cast_ofNat, ← zpow_eq_div,
      zpow_add₀ (by norm_num), zpow_natCast, Nat.cast_mul, Nat.cast_pow, Nat.cast_ofNat]
    ring
  rw [f.decode_eq (h.trans_lt htop), f.decode_eq htop, round_finite, round_finite]
  refine nearest_mono g (Nat.two_pow_pos _) (Nat.two_pow_pos _) ?_
  rw [hvalue, hvalue]
  have hle := f.significand_mul_le h
  gcongr

end Format

end HomeMetering.Decimal.Binary
