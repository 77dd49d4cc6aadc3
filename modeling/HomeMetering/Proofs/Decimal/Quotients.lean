import HomeMetering.Proofs.Decimal.Rounding

/-!
# Quotients of integers

A double holds every integer of at most 53 bits, and the quotient of two of them is the double
nearest to their fraction.
-/

namespace HomeMetering.Decimal.Binary

open Float.Model (UnpackedFloat totalExponent)
open Float.Model.UnpackedFloat (Accuracy ExtendedMantissa Sign packComponents unpackSign)

/-! ## Normal values -/

section

variable {spec : Float.Model.Format}

theorem finite_congr {s s' : Sign} {m m' : Nat} {e e' : Int} {hm : 0 < m} {hm' : 0 < m'}
    (hs : s = s') (h : m = m') (he : e = e') :
    UnpackedFloat.finite s m e hm = .finite s' m' e' hm' := by
  subst hs h he
  rfl

theorem ofBitVec_unpackSign (s : Sign) (exponent : BitVec spec.exponentBits)
    (mantissa : BitVec spec.mantissaBitsWithoutImplicit) :
    Sign.ofBitVec (unpackSign (packComponents spec s exponent mantissa)) = s := by
  have hsign : unpackSign (packComponents spec s exponent mantissa) = s.toBitVec := by
    show BitVec.cast _ (BitVec.extractLsb (spec.mantissaBitsWithoutImplicit + spec.exponentBits)
      (spec.mantissaBitsWithoutImplicit + spec.exponentBits) _) = _
    ext i hi
    obtain rfl : i = 0 := by omega
    simp [packComponents, BitVec.getLsbD_append, BitVec.getElem_append]
  rw [hsign]
  cases s <;> rfl

theorem toNat_packComponents (exponent : BitVec spec.exponentBits)
    (mantissa : BitVec spec.mantissaBitsWithoutImplicit) :
    (packComponents spec .positive exponent mantissa).toNat =
      exponent.toNat * 2 ^ spec.mantissaBitsWithoutImplicit + mantissa.toNat := by
  have hsign : Sign.positive.toBitVec.toNat = 0 := rfl
  unfold packComponents
  rw [BitVec.toNat_append, BitVec.toNat_append, hsign, Nat.zero_shiftLeft, Nat.zero_or,
    ← Nat.shiftLeft_add_eq_or_of_lt mantissa.isLt, Nat.shiftLeft_eq]

/-- A significand with its leading bit in place, and an exponent in range. -/
structure IsNormal (spec : Float.Model.Format) (m : Nat) (e : Int) : Prop where
  le : 2 ^ spec.mantissaBitsWithoutImplicit ≤ m
  lt : m < 2 * 2 ^ spec.mantissaBitsWithoutImplicit
  low : spec.minExponent ≤ e
  high : e + spec.exponentBias + spec.mantissaBitsWithoutImplicit + 1 < 2 ^ spec.exponentBits

variable {m : Nat} {e : Int} (h : IsNormal spec m e)

include h

theorem IsNormal.pos : 0 < m := (Nat.two_pow_pos _).trans_le h.le

theorem IsNormal.field :
    ∃ field : Nat, 0 < field ∧ field + 1 < 2 ^ spec.exponentBits ∧
      e + spec.exponentBias + spec.mantissaBitsWithoutImplicit = field ∧
      (field : Int) = e - spec.minExponent + 1 := by
  have hbits : spec.mantissaBits = 1 + spec.mantissaBitsWithoutImplicit := rfl
  have hbias : (spec.exponentBias : Int) = 2 ^ (spec.exponentBits - 1) - 1 := by
    unfold Float.Model.Format.exponentBias
    rw [Nat.cast_sub Nat.one_le_two_pow]
    simp
  have hlow := h.low
  have hhigh := h.high
  have hfield : e + spec.exponentBias + spec.mantissaBitsWithoutImplicit =
      e - spec.minExponent + 1 := by
    rw [hbias]
    unfold Float.Model.Format.minExponent
    rw [hbits]
    push_cast
    ring
  refine ⟨(e - spec.minExponent + 1).toNat, by omega, ?_, by omega, by omega⟩
  rw [hfield, ← Int.toNat_of_nonneg (show 0 ≤ e - spec.minExponent + 1 by omega)] at hhigh
  exact_mod_cast hhigh

theorem pack_of_isNormal (s : Sign) {field : Nat}
    (hfield : e + spec.exponentBias + spec.mantissaBitsWithoutImplicit = field)
    (hhigh : field + 1 < 2 ^ spec.exponentBits) :
    UnpackedFloat.pack spec (.finite s m e h.pos) =
      packComponents spec s (BitVec.ofNat _ field) (BitVec.ofNat _ m) := by
  have hbits : spec.mantissaBits = 1 + spec.mantissaBitsWithoutImplicit := rfl
  have hlog : m.log2 = spec.mantissaBitsWithoutImplicit :=
    (Nat.log2_eq_iff h.pos.ne').2 ⟨h.le, by rw [Nat.pow_succ, Nat.mul_comm]; exact h.lt⟩
  unfold UnpackedFloat.pack
  dsimp only
  rw [hfield, Int.toNat_natCast, if_neg (not_le.2 hhigh), if_pos]
  rw [hlog, hbits, Nat.add_comm]

theorem unpack_pack (s : Sign) :
    UnpackedFloat.unpack spec (UnpackedFloat.pack spec (.finite s m e h.pos)) =
      .finite s m e h.pos := by
  obtain ⟨field, hpos, hhigh, hfield, -⟩ := h.field
  have hvalue : (BitVec.ofNat spec.exponentBits field).toNat = field :=
    Nat.mod_eq_of_lt (by omega)
  have htop : BitVec.ofNat spec.exponentBits field ≠ -1#_ := by
    rw [ne_eq, BitVec.neg_one_eq_allOnes, ← BitVec.toNat_inj, hvalue, BitVec.toNat_allOnes]
    omega
  have hzero : BitVec.ofNat spec.exponentBits field ≠ 0#_ := by
    rw [ne_eq, ← BitVec.toNat_inj, hvalue]
    simpa using hpos.ne'
  have hmantissa : (1#1 ++ BitVec.ofNat spec.mantissaBitsWithoutImplicit m).toNat = m := by
    have hone : (1#1).toNat = 1 := rfl
    have hle := h.le
    have hlt := h.lt
    rw [BitVec.toNat_append, ← Nat.shiftLeft_add_eq_or_of_lt (BitVec.isLt _), hone,
      BitVec.toNat_ofNat, Nat.shiftLeft_eq, Nat.mod_eq_sub_mod hle, Nat.mod_eq_of_lt (by omega)]
    omega
  rw [pack_of_isNormal h s hfield hhigh]
  unfold UnpackedFloat.unpack
  dsimp only
  rw [UnpackedFloat.unpackExponent_packComponents, if_neg htop, if_neg hzero]
  refine finite_congr (ofBitVec_unpackSign s _ _) ?_ (by rw [hvalue]; omega)
  rw [UnpackedFloat.unpackMantissa_packComponents, hmantissa]

theorem toNat_pack :
    (UnpackedFloat.pack spec (.finite .positive m e h.pos)).toNat =
      (e - spec.minExponent).toNat * 2 ^ spec.mantissaBitsWithoutImplicit + m := by
  obtain ⟨field, hpos, hhigh, hfield, hsteps⟩ := h.field
  have hlt := h.lt
  have hle := h.le
  rw [pack_of_isNormal h _ hfield hhigh, toNat_packComponents, BitVec.toNat_ofNat,
    BitVec.toNat_ofNat, Nat.mod_eq_of_lt (by omega), Nat.mod_eq_sub_mod hle,
    Nat.mod_eq_of_lt (by omega)]
  obtain rfl : field = (e - spec.minExponent).toNat + 1 := by omega
  rw [Nat.add_one_mul]
  omega

end

/-! ## Rounding a quotient -/

namespace Dividing

variable {num den : Nat} {e : Int}

open Float.Model.UnpackedFloat (accuracyOfFraction roundWithAccuracy shiftToTargetExponent)

theorem roundedMantissa_ofQuotient (hden : 0 < den) :
    (ExtendedMantissa.ofMantissaAndAccuracy (num / den)
      (accuracyOfFraction (num % den) den)).roundedMantissa = divEven num den := by
  unfold accuracyOfFraction divEven divNearest
  dsimp only
  by_cases hexact : num % den = 0
  · rw [if_pos hexact, hexact, if_pos (by omega)]
    rfl
  · rw [if_neg hexact]
    rcases lt_trichotomy (2 * (num % den)) den with h | h | h
    · rw [Nat.compare_eq_lt.2 h, if_pos h]
      rfl
    · rw [Nat.compare_eq_eq.2 h, if_neg h.not_lt, if_neg h.not_gt]
      show num / den + num / den % 2 = _
      simp only [true_and]
      split_ifs <;> omega
    · rw [Nat.compare_eq_gt.2 h, if_neg h.not_gt, if_pos h]
      rfl

theorem roundedMantissa_of_even {q : Nat} (hq : q % 2 = 0) (a : Accuracy) :
    (ExtendedMantissa.ofMantissaAndAccuracy q a).shiftRightOne.roundedMantissa = q / 2 := by
  rcases a with _ | (_ | _ | _) <;>
    simp [ExtendedMantissa.ofMantissaAndAccuracy, ExtendedMantissa.shiftRightOne,
      ExtendedMantissa.roundedMantissa, ExtendedMantissa.accuracy, Accuracy.roundToNearestEven, hq]

theorem roundedMantissa_of_odd {q : Nat} (hq : q % 2 = 1) (a : Accuracy) :
    (ExtendedMantissa.ofMantissaAndAccuracy q a).shiftRightOne.roundedMantissa =
      match a with
      | .exact => q / 2 + q / 2 % 2
      | .inexact _ => q / 2 + 1 := by
  rcases a with _ | (_ | _ | _) <;>
    simp [ExtendedMantissa.ofMantissaAndAccuracy, ExtendedMantissa.shiftRightOne,
      ExtendedMantissa.roundedMantissa, ExtendedMantissa.accuracy, Accuracy.roundToNearestEven, hq]

theorem roundedMantissa_shiftRightOne (hden : 0 < den) :
    (ExtendedMantissa.ofMantissaAndAccuracy (num / den)
      (accuracyOfFraction (num % den) den)).shiftRightOne.roundedMantissa =
        divEven num (den * 2) := by
  have hrest := Nat.mod_lt num hden
  have hmod : num % (den * 2) = num % den + den * (num / den % 2) := Nat.mod_mul
  have hdiv : num / (den * 2) = num / den / 2 := (Nat.div_div_eq_div_mul ..).symm
  unfold divEven divNearest
  dsimp only
  rw [hmod, hdiv]
  generalize num / den = q, num % den = r at hrest
  rcases Nat.mod_two_eq_zero_or_one q with hq | hq
  · rw [roundedMantissa_of_even hq, hq, if_pos (by omega)]
  · rw [roundedMantissa_of_odd hq, hq, if_neg (by omega)]
    unfold accuracyOfFraction
    by_cases hexact : r = 0
    · rw [if_pos hexact, if_neg (by omega)]
      simp only [true_and]
      split_ifs <;> omega
    · rw [if_neg hexact, if_pos (by omega)]

theorem targetExponent_eq {m k : Nat} (hle : 2 ^ k ≤ m) (hlt : m < 2 ^ (k + 1)) (hk : 52 ≤ k)
    (he : -1074 ≤ e) :
    Float.Model.Format.binary64.targetExponent (totalExponent m e) = e + (k - 52 : Nat) := by
  have hlog : m.log2 = k :=
    (Nat.log2_eq_iff ((Nat.two_pow_pos k).trans_le hle).ne').2 ⟨hle, hlt⟩
  have hbits : (Float.Model.Format.binary64.mantissaBits : Int) = 53 := rfl
  have hmin : Float.Model.Format.binary64.minExponent = -1074 := rfl
  unfold Float.Model.Format.targetExponent totalExponent
  rw [hlog, hbits, hmin]
  omega

theorem shift_of_fits {m : Nat} (hle : 2 ^ 52 ≤ m) (hlt : m < 2 ^ 53) (he : -1074 ≤ e)
    (a : Accuracy) :
    shiftToTargetExponent .binary64 m e a = (.ofMantissaAndAccuracy m a, e) := by
  unfold shiftToTargetExponent
  dsimp only
  rw [targetExponent_eq hle hlt (by omega) he]
  unfold UnpackedFloat.shiftToExponent
  dsimp only
  rw [show (e + (52 - 52 : Nat) - e).toNat = 0 by omega]
  exact congrArg (Prod.mk _) (by omega)

theorem shift_of_longer {m : Nat} (hle : 2 ^ 53 ≤ m) (hlt : m < 2 ^ 54) (he : -1074 ≤ e)
    (a : Accuracy) :
    shiftToTargetExponent .binary64 m e a =
      ((ExtendedMantissa.ofMantissaAndAccuracy m a).shiftRightOne, e + 1) := by
  unfold shiftToTargetExponent
  dsimp only
  rw [targetExponent_eq hle hlt (by omega) he]
  unfold UnpackedFloat.shiftToExponent
  dsimp only
  rw [show (e + (53 - 52 : Nat) - e).toNat = 1 by omega]
  rfl

/-- Where a normal value stands among the bits of all values. -/
def place (m : Nat) (e : Int) : Nat :=
  (e - Float.Model.Format.binary64.minExponent).toNat * 2 ^ 52 + m

theorem isNormal_double {m : Nat} (hle : 2 ^ 52 ≤ m) (hlt : m < 2 ^ 53) (he : -1074 ≤ e)
    (hhigh : e ≤ 901) : IsNormal .binary64 m e := by
  have hbias : (Float.Model.Format.binary64.exponentBias : Int) = 1023 := rfl
  refine ⟨hle, hlt, he, ?_⟩
  rw [hbias]
  show e + 1023 + 52 + 1 < 2048
  omega

/-- Rounding may need one bit more, which the next exponent makes up for. -/
theorem exists_shift {m : Nat} (hle : 2 ^ 52 ≤ m) (hle' : m ≤ 2 ^ 53) (he : -1074 ≤ e)
    (hhigh : e ≤ 900) :
    ∃ em e', shiftToTargetExponent .binary64 m e .exact = (em, e') ∧
      IsNormal .binary64 em.mantissa e' ∧ place em.mantissa e' = place m e := by
  rcases Nat.lt_or_eq_of_le hle' with hlt | rfl
  · exact ⟨_, _, shift_of_fits hle hlt he .exact, isNormal_double hle hlt he (by omega), rfl⟩
  · refine ⟨_, _, shift_of_longer le_rfl (by decide) he .exact,
      isNormal_double (by decide) (by decide) (by omega) (by omega), ?_⟩
    have hmin : Float.Model.Format.binary64.minExponent = -1074 := rfl
    unfold place
    rw [hmin, show (e + 1 - -1074).toNat = (e - -1074).toNat + 1 by omega, Nat.add_one_mul]
    show _ + 2 ^ 52 + 2 ^ 53 / 2 = _
    omega

theorem exists_round (s : Sign) {m : Nat} {a : Accuracy} {em : ExtendedMantissa} {e' : Int}
    (hfirst : shiftToTargetExponent .binary64 m e a = (em, e')) (hle : 2 ^ 52 ≤ em.roundedMantissa)
    (hle' : em.roundedMantissa ≤ 2 ^ 53) (he : -1074 ≤ e') (hhigh : e' ≤ 900) :
    ∃ (m' : Nat) (e₂ : Int) (h : IsNormal .binary64 m' e₂),
      roundWithAccuracy .binary64 s m e a = .finite s m' e₂ h.pos ∧
        place m' e₂ = place em.roundedMantissa e' := by
  obtain ⟨em', e₂, hsecond, hnormal, hplace⟩ := exists_shift hle hle' he hhigh
  refine ⟨em'.mantissa, e₂, hnormal, ?_, hplace⟩
  unfold roundWithAccuracy
  rw [hfirst]
  dsimp only
  rw [hsecond]
  dsimp only
  rw [dif_neg hnormal.pos.ne']

/-- A fraction that has 53 or 54 bits before the point is rounded to 53 bits. -/
theorem exists_roundFraction (s : Sign) (hden : 0 < den) (hlow : den * 2 ^ 52 ≤ num)
    (hhigh : num < den * 2 ^ 54) (he : -1074 ≤ e) (he' : e ≤ 800) :
    ∃ (m : Nat) (e₂ : Int) (h : IsNormal .binary64 m e₂),
      roundWithAccuracy .binary64 s (num / den) e (accuracyOfFraction (num % den) den) =
          .finite s m e₂ h.pos ∧
        place m e₂ =
          if num < den * 2 ^ 53 then place (divEven num den) e
          else place (divEven num (den * 2)) (e + 1) := by
  have hle : 2 ^ 52 ≤ num / den := (Nat.le_div_iff_mul_le hden).2 (by rwa [Nat.mul_comm])
  have hlt : num / den < 2 ^ 54 := (Nat.div_lt_iff_lt_mul hden).2 (by rwa [Nat.mul_comm])
  by_cases hfits : num < den * 2 ^ 53
  · have hlt : num / den < 2 ^ 53 := (Nat.div_lt_iff_lt_mul hden).2 (by rwa [Nat.mul_comm])
    have hround := exists_round s (shift_of_fits hle hlt he (accuracyOfFraction (num % den) den))
    rw [roundedMantissa_ofQuotient hden] at hround
    rw [if_pos hfits]
    exact hround (hle.trans (le_divEven num den)) ((divEven_le num den).trans hlt) he (by omega)
  · have hle : 2 ^ 53 ≤ num / den :=
      (Nat.le_div_iff_mul_le hden).2 (by rw [Nat.mul_comm]; exact not_lt.1 hfits)
    have hround := exists_round s (shift_of_longer hle hlt he (accuracyOfFraction (num % den) den))
    rw [roundedMantissa_shiftRightOne hden] at hround
    rw [if_neg hfits]
    have hhalf : num / (den * 2) = num / den / 2 := (Nat.div_div_eq_div_mul ..).symm
    have hlower := le_divEven num (den * 2)
    have hupper := divEven_le num (den * 2)
    exact hround (by omega) (by omega) (by omega) (by omega)

/-! ## Dividing -/

variable {m₁ m₂ : Nat} {e₁ e₂ : Int}

theorem divCore_eq (h₁ : IsNormal .binary64 m₁ e₁) (h₂ : IsNormal .binary64 m₂ e₂)
    (hexp : -1000 ≤ e₁ - e₂) :
    UnpackedFloat.divCore .binary64 m₁ e₁ m₂ e₂ =
      (m₁ * 2 ^ 53 / m₂, e₁ - e₂ - 53, accuracyOfFraction (m₁ * 2 ^ 53 % m₂) m₂) := by
  have hlog {m : Nat} {e : Int} (h : IsNormal .binary64 m e) : m.log2 = 52 :=
    (Nat.log2_eq_iff h.pos.ne').2 ⟨h.le, h.lt⟩
  have hbits : (Float.Model.Format.binary64.mantissaBits : Int) = 53 := rfl
  have hmin : Float.Model.Format.binary64.minExponent = -1074 := rfl
  have htarget : min (e₁ - e₂) (Float.Model.Format.binary64.targetExponent
      (totalExponent m₁ e₁ - totalExponent m₂ e₂)) = e₁ - e₂ - 53 := by
    unfold Float.Model.Format.targetExponent totalExponent
    rw [hlog h₁, hlog h₂, hbits, hmin]
    omega
  unfold UnpackedFloat.divCore
  dsimp only
  rw [htarget, show (e₁ - e₂ - (e₁ - e₂ - 53)).toNat = 53 by omega, Nat.shiftLeft_eq]

theorem nearest_eq_place {num den num' den' : Nat} (hnum : 0 < num) (hden : 0 < den)
    (hden' : 0 < den') (he : -1074 ≤ e) (hhigh : e ≤ 900)
    (hscaled : (num / den / 2 ^ e : Rat) = num' / den') (hle : den' * 2 ^ 52 ≤ num')
    (hlt : num' < den' * 2 ^ 53) :
    Format.double.nearest num den = place (divEven num' den') e := by
  have hpos : (0 : Rat) < den' := by exact_mod_cast hden'
  have hvalue : (num / den : Rat) = num' / den' * 2 ^ e := by
    rw [← hscaled]
    field_simp
  have hbinade : (2 : Rat) ^ (e + Format.double.fractionBits) ≤ num / den ∧
      (num / den : Rat) < 2 ^ (e + Format.double.fractionBits + 1) := by
    have hsucc : e + Format.double.fractionBits + 1 =
        e + (Format.double.fractionBits + 1 : Nat) := by
      rw [Nat.cast_succ, add_assoc]
    rw [hsucc, ← two_pow_mul_zpow, ← two_pow_mul_zpow, hvalue]
    constructor
    · refine mul_le_mul_of_nonneg_right ?_ (by positivity)
      rw [le_div_iff₀ hpos, mul_comm]
      exact_mod_cast hle
    · refine mul_lt_mul_of_pos_right ?_ (by positivity)
      rw [div_lt_iff₀ hpos, mul_comm]
      exact_mod_cast hlt
  have hround : divEven num' den' ≤ 2 * 2 ^ 52 :=
    (divEven_le num' den').trans ((Nat.div_lt_iff_lt_mul hden').2 (by rwa [Nat.mul_comm]))
  have hleast : Format.double.leastExponent = -1074 := by decide
  have hbits : Format.double.fractionBits = 52 := rfl
  have htop : Format.double.topField = 2047 := by decide
  have hmin : Float.Model.Format.binary64.minExponent = -1074 := rfl
  rw [nearest_eq _ hnum hden (hleast ▸ he) hbinade.1 hbinade.2,
    scaleEven_eq_divEven hden hden' hscaled, hleast, hbits, htop]
  unfold place
  rw [hmin]
  generalize 2 ^ 52 = unit at hround ⊢
  have hsteps : (e - -1074).toNat * unit ≤ 2045 * unit :=
    Nat.mul_le_mul_right unit (by omega)
  omega

/-- The quotient of two doubles is the one nearest to their fraction. -/
theorem exists_div (h₁ : IsNormal .binary64 m₁ e₁) (h₂ : IsNormal .binary64 m₂ e₂)
    (hexp : -1000 ≤ e₁ - e₂) (hexp' : e₁ - e₂ ≤ 800) {num den : Nat} (hnum : 0 < num)
    (hden : 0 < den) (hvalue : (num / den : Rat) = m₁ * 2 ^ e₁ / (m₂ * 2 ^ e₂)) :
    ∃ (m : Nat) (e : Int) (h : IsNormal .binary64 m e),
      UnpackedFloat.div .binary64 (.finite .positive m₁ e₁ h₁.pos)
          (.finite .positive m₂ e₂ h₂.pos) = .finite .positive m e h.pos ∧
        place m e = Format.double.nearest num den := by
  have hm₂ : (0 : Rat) < m₂ := by exact_mod_cast h₂.pos
  have hlow : m₂ * 2 ^ 52 ≤ m₁ * 2 ^ 53 := by
    have := h₁.le
    have := h₂.lt
    omega
  have hhigh : m₁ * 2 ^ 53 < m₂ * 2 ^ 54 := by
    have := h₁.lt
    have := h₂.le
    omega
  obtain ⟨m, e, h, hround, hplace⟩ := exists_roundFraction (e := e₁ - e₂ - 53)
    (Sign.positive / Sign.positive) h₂.pos hlow hhigh (by omega) (by omega)
  refine ⟨m, e, h, ?_, ?_⟩
  · unfold UnpackedFloat.div
    dsimp only
    rw [divCore_eq h₁ h₂ hexp]
    exact hround
  · have hscaled : (num / den : Rat) / 2 ^ (e₁ - e₂ - 53) = (m₁ * 2 ^ 53 : Nat) / m₂ := by
      rw [hvalue, zpow_sub₀ (by norm_num), zpow_sub₀ (by norm_num)]
      push_cast
      field_simp
    rw [hplace]
    split_ifs with hfits
    · exact (nearest_eq_place hnum hden h₂.pos (by omega) (by omega) hscaled hlow hfits).symm
    · have hhalf : (num / den : Rat) / 2 ^ (e₁ - e₂ - 53 + 1) =
          (m₁ * 2 ^ 53 : Nat) / (m₂ * 2 : Nat) := by
        rw [zpow_add_one₀ (by norm_num), ← div_div, hscaled, div_div, Nat.cast_mul m₂,
          Nat.cast_ofNat]
      have hpos := h₂.pos
      have hle : m₂ * 2 * 2 ^ 52 ≤ m₁ * 2 ^ 53 := by
        rw [Nat.mul_assoc]
        exact not_lt.1 hfits
      have hlt : m₁ * 2 ^ 53 < m₂ * 2 * 2 ^ 53 := by
        rw [Nat.mul_assoc]
        exact hhigh
      exact (nearest_eq_place hnum hden (by omega) (by omega) (by omega) hhalf hle hlt).symm

end Dividing

/-! ## Doubles -/

section

open Dividing

theorem unpack_eq_of_toNat {spec : Float.Model.Format} {m : Nat} {e : Int} (h : IsNormal spec m e)
    {b : BitVec spec.numBits}
    (hb : b.toNat = (e - spec.minExponent).toNat * 2 ^ spec.mantissaBitsWithoutImplicit + m) :
    UnpackedFloat.unpack spec b = .finite .positive m e h.pos := by
  obtain rfl : b = UnpackedFloat.pack spec (.finite .positive m e h.pos) :=
    BitVec.eq_of_toNat_eq (hb.trans (toNat_pack h).symm)
  exact unpack_pack h .positive

theorem nearest_lt (num den : Nat) : Format.double.nearest num den < 2 ^ 63 :=
  (nearest_le Format.double num den).trans_lt (by decide)

theorem toNat_nearest (num den : Nat) :
    (Format.double.nearest num den).toUInt64.toBitVec.toNat = Format.double.nearest num den :=
  UInt64.toNat_ofNat'.trans (Nat.mod_eq_of_lt ((nearest_lt num den).trans (by decide)))

theorem unpack_doubleOfInt {n : Nat} (hpos : 0 < n) (hlt : n < 2 ^ 53) :
    ∃ (m : Nat) (e : Int) (h : IsNormal .binary64 m e),
      (doubleOfInt n).toModel.unpack = .finite .positive m e h.pos ∧ (m * 2 ^ e : Rat) = n ∧
        -52 ≤ e ∧ e ≤ 0 := by
  have hlog : n.log2 < 53 := (Nat.log2_lt hpos.ne').2 hlt
  have hlow : 2 ^ 52 ≤ n * 2 ^ (52 - n.log2) := by
    calc 2 ^ 52 = 2 ^ n.log2 * 2 ^ (52 - n.log2) := by rw [← Nat.pow_add]; congr 1; omega
      _ ≤ n * 2 ^ (52 - n.log2) := Nat.mul_le_mul_right _ (Nat.log2_self_le hpos.ne')
  have hhigh : n * 2 ^ (52 - n.log2) < 2 ^ 53 := by
    calc n * 2 ^ (52 - n.log2) < 2 ^ (n.log2 + 1) * 2 ^ (52 - n.log2) :=
          Nat.mul_lt_mul_of_pos_right Nat.lt_log2_self (Nat.two_pow_pos _)
      _ = 2 ^ 53 := by rw [← Nat.pow_add]; congr 1; omega
  have hnormal : IsNormal .binary64 (n * 2 ^ (52 - n.log2)) (n.log2 - 52) :=
    isNormal_double hlow hhigh (by omega) (by omega)
  have hvalue : ((n * 2 ^ (52 - n.log2) : Nat) : Rat) * 2 ^ ((n.log2 : Int) - 52) = n := by
    have hexp : (n.log2 : Int) - 52 = -((52 - n.log2 : Nat) : Int) := by omega
    rw [hexp, zpow_neg, zpow_natCast]
    push_cast
    field_simp
  have hbits : Format.double.nearest n 1 = place (n * 2 ^ (52 - n.log2)) (n.log2 - 52) := by
    have hscaled : (n / (1 : Nat) / 2 ^ ((n.log2 : Int) - 52) : Rat) =
        (n * 2 ^ (52 - n.log2) : Nat) / (1 : Nat) := by
      rw [← hvalue]
      field_simp
    rw [nearest_eq_place hpos Nat.one_pos Nat.one_pos (by omega) (by omega) hscaled
      (by rwa [Nat.one_mul]) (by rwa [Nat.one_mul])]
    exact congrArg (place · _) ((congrArg (divEven · 1) (Nat.mul_one _).symm).trans
      (divEven_mul Nat.one_pos _))
  have hmodel : (doubleOfInt n).toModel.unpack =
      UnpackedFloat.unpack .binary64 (UnpackedFloat.pack .binary64
        (UnpackedFloat.unpack .binary64 (Format.double.nearest n 1).toUInt64.toBitVec)) := by
    unfold doubleOfInt
    dsimp only
    rw [if_neg (by omega), Int.natAbs_natCast]
    rfl
  refine ⟨_, _, hnormal, ?_, hvalue, by omega, by omega⟩
  have hinner := unpack_eq_of_toNat hnormal ((toNat_nearest n 1).trans hbits)
  rw [hmodel, hinner]
  exact unpack_pack hnormal .positive

/-- The quotient of two integers is the double nearest to their fraction, and zero adds nothing. -/
theorem toBits_div_doubleOfInt {n d : Nat} (hn : 0 < n) (hn' : n < 2 ^ 53) (hd : 0 < d)
    (hd' : d < 2 ^ 53) :
    (doubleOfInt n / doubleOfInt d + 0.0).toBits.toNat = Format.double.nearest n d := by
  obtain ⟨m₁, e₁, h₁, hunpack₁, hvalue₁, hlow₁, hhigh₁⟩ := unpack_doubleOfInt hn hn'
  obtain ⟨m₂, e₂, h₂, hunpack₂, hvalue₂, hlow₂, hhigh₂⟩ := unpack_doubleOfInt hd hd'
  obtain ⟨m, e, h, hdiv, hplace⟩ := exists_div h₁ h₂ (by omega) (by omega) hn hd
    (by rw [hvalue₁, hvalue₂])
  have hquotient : (doubleOfInt n / doubleOfInt d).toModel =
      .pack (.finite .positive m e h.pos) := by
    show Float.Model.pack (UnpackedFloat.div .binary64 _ _) = _
    rw [hunpack₁, hunpack₂, hdiv]
  have hsum : (doubleOfInt n / doubleOfInt d + 0.0).toModel =
      .pack (.finite .positive m e h.pos) := by
    show Float.Model.pack (UnpackedFloat.add .binary64 _ (0.0 : Float).toModel.unpack) = _
    rw [hquotient, unpack_zero]
    exact congrArg (fun f => Float.Model.pack (UnpackedFloat.add .binary64 f (.zero .positive)))
      (unpack_pack h .positive)
  calc (doubleOfInt n / doubleOfInt d + 0.0).toBits.toNat
      = (Float.Model.pack (.finite .positive m e h.pos)).toBits.toNat :=
        congrArg (fun x => x.toBits.toNat) hsum
    _ = place m e := toNat_pack h
    _ = Format.double.nearest n d := hplace

end

/-! ## Singles -/

theorem single_lt_iff {x y : Float32} :
    x < y ↔ x.toModel.unpack.compare y.toModel.unpack = some .lt :=
  decide_eq_true_iff.trans beq_iff_eq

section

variable {bits bits' : Nat} (hlow : 2 ^ 23 ≤ bits) (hhigh : bits < 255 * 2 ^ 23)

include hlow hhigh

theorem unpack_ofBits :
    ∃ (m : Nat) (e : Int) (h : IsNormal .binary32 m e),
      bits = (e - Float.Model.Format.binary32.minExponent).toNat * 2 ^ 23 + m ∧
        (Float32.ofBits bits.toUInt32).toModel.unpack = .finite .positive m e h.pos := by
  have hmin : Float.Model.Format.binary32.minExponent = -149 := rfl
  have hbias : (Float.Model.Format.binary32.exponentBias : Int) = 127 := rfl
  have hfield : 1 ≤ bits / 2 ^ 23 := (Nat.le_div_iff_mul_le (by decide)).2 (by omega)
  have hfield' : bits / 2 ^ 23 < 255 := (Nat.div_lt_iff_lt_mul (by decide)).2 hhigh
  have hrest := Nat.mod_lt bits (show 0 < 2 ^ 23 by decide)
  have hsplit := Nat.div_add_mod' bits (2 ^ 23)
  have hnormal : IsNormal .binary32 (2 ^ 23 + bits % 2 ^ 23) ((bits / 2 ^ 23 : Nat) - 150) := by
    refine ⟨Nat.le_add_right _ _, ?_, ?_, ?_⟩
    · show 2 ^ 23 + bits % 2 ^ 23 < 2 * 2 ^ 23
      omega
    · rw [hmin]
      omega
    · rw [hbias]
      show ((bits / 2 ^ 23 : Nat) : Int) - 150 + 127 + 23 + 1 < 256
      omega
  have hbits : bits = (((bits / 2 ^ 23 : Nat) : Int) - 150 -
      Float.Model.Format.binary32.minExponent).toNat * 2 ^ 23 + (2 ^ 23 + bits % 2 ^ 23) := by
    rw [hmin]
    omega
  have hword : bits.toUInt32.toBitVec.toNat = bits :=
    UInt32.toNat_ofNat'.trans (Nat.mod_eq_of_lt (by omega))
  have hinner := unpack_eq_of_toNat hnormal (hword.trans hbits)
  refine ⟨_, _, hnormal, hbits, ?_⟩
  show UnpackedFloat.unpack .binary32 (UnpackedFloat.pack .binary32
    (UnpackedFloat.unpack .binary32 bits.toUInt32.toBitVec)) = _
  rw [hinner]
  exact unpack_pack hnormal .positive

theorem pos_ofBits : 0 < Float32.ofBits bits.toUInt32 := by
  have hzero : (0 : Float32).toModel.unpack = .zero .positive := rfl
  obtain ⟨m, e, h, -, hunpack⟩ := unpack_ofBits hlow hhigh
  rw [single_lt_iff, hzero, hunpack]
  rfl

theorem neg_ofBits_inj (hlow' : 2 ^ 23 ≤ bits') (hhigh' : bits' < 255 * 2 ^ 23) :
    -Float32.ofBits bits.toUInt32 = -Float32.ofBits bits'.toUInt32 ↔ bits = bits' := by
  refine ⟨fun heq => ?_, fun heq => heq ▸ rfl⟩
  obtain ⟨m, e, h, hbits, hunpack⟩ := unpack_ofBits hlow hhigh
  obtain ⟨m', e', h', hbits', hunpack'⟩ := unpack_ofBits hlow' hhigh'
  have hneg : (-Float32.ofBits bits.toUInt32).toModel.unpack = .finite .negative m e h.pos := by
    show UnpackedFloat.unpack .binary32 (UnpackedFloat.pack .binary32 (UnpackedFloat.neg _)) = _
    rw [hunpack]
    exact unpack_pack h .negative
  have hneg' : (-Float32.ofBits bits'.toUInt32).toModel.unpack =
      .finite .negative m' e' h'.pos := by
    show UnpackedFloat.unpack .binary32 (UnpackedFloat.pack .binary32 (UnpackedFloat.neg _)) = _
    rw [hunpack']
    exact unpack_pack h' .negative
  rw [heq, hneg'] at hneg
  cases hneg
  rw [hbits, hbits']

end

theorem singleOfDouble_eq {x : Float} {bits : Nat} (h : x.toBits.toNat = bits)
    (hbits : bits < 2 ^ 63) :
    singleOfDouble x =
      Float32.ofBits (Format.single.round (Format.double.decode bits)).toUInt32 := by
  have hsign : Format.double.isNegative bits = false := Nat.testBit_lt_two_pow hbits
  unfold singleOfDouble
  dsimp only
  rw [h, hsign, if_neg Bool.false_ne_true]

end HomeMetering.Decimal.Binary
