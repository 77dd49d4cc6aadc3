import HomeMetering.Modbus.Register
import Mathlib.Algebra.Group.Nat.Defs
import Mathlib.Tactic.SplitIfs

/-!
# Decoded values are numbers

Registers hold integers, and an integer over a scale is a number. So is the single nearest to it,
and a number is equal to itself.
-/

namespace HomeMetering.Decimal.Binary

open Float.Model (UnpackedFloat)
open Float.Model.UnpackedFloat (notANumber unpackExponent unpackMantissa)

/-! ## Packing -/

section

variable {spec : Float.Model.Format}

theorem toNat_unpackMantissa (b : BitVec spec.numBits) :
    (unpackMantissa b).toNat = b.toNat % 2 ^ spec.mantissaBitsWithoutImplicit := by
  have hpos := spec.hm
  rw [unpackMantissa, BitVec.toNat_cast, BitVec.extractLsb_toNat, Nat.shiftRight_zero]
  congr 2
  omega

theorem toNat_unpackExponent (b : BitVec spec.numBits) :
    (unpackExponent b).toNat =
      b.toNat / 2 ^ spec.mantissaBitsWithoutImplicit % 2 ^ spec.exponentBits := by
  have hpos := spec.he
  rw [unpackExponent, BitVec.toNat_cast, BitVec.extractLsb_toNat, Nat.shiftRight_eq_div_pow]
  congr 2
  omega

theorem zero_or_finite_ne {p : Prop} [Decidable p] (s : UnpackedFloat.Sign) {m : Nat} (e : Int)
    (hm : ¬ p → 0 < m) :
    (if h : p then UnpackedFloat.zero s else UnpackedFloat.finite s m e (hm h)) ≠ notANumber := by
  by_cases h : p
  · rw [dif_pos h]
    rintro ⟨⟩
  · rw [dif_neg h]
    rintro ⟨⟩

theorem unpack_ne_of_exponent {b : BitVec spec.numBits} (h : unpackExponent b ≠ -1#_) :
    UnpackedFloat.unpack spec b ≠ notANumber := by
  unfold UnpackedFloat.unpack
  dsimp only
  rw [if_neg h]
  by_cases hzero : unpackExponent b = 0#_
  · rw [if_pos hzero]
    apply zero_or_finite_ne
  · rw [if_neg hzero]
    rintro ⟨⟩

theorem unpack_eq_notANumber_iff {b : BitVec spec.numBits} :
    UnpackedFloat.unpack spec b = notANumber ↔
      b.toNat / 2 ^ spec.mantissaBitsWithoutImplicit % 2 ^ spec.exponentBits =
          2 ^ spec.exponentBits - 1 ∧
        b.toNat % 2 ^ spec.mantissaBitsWithoutImplicit ≠ 0 := by
  have htop : unpackExponent b = -1#_ ↔
      b.toNat / 2 ^ spec.mantissaBitsWithoutImplicit % 2 ^ spec.exponentBits =
        2 ^ spec.exponentBits - 1 := by
    rw [← BitVec.toNat_inj, toNat_unpackExponent, BitVec.neg_one_eq_allOnes, BitVec.toNat_allOnes]
  have hzero : unpackMantissa b = 0#_ ↔ b.toNat % 2 ^ spec.mantissaBitsWithoutImplicit = 0 := by
    rw [← BitVec.toNat_inj, toNat_unpackMantissa, BitVec.toNat_zero]
  rw [← htop, ne_eq, ← hzero]
  by_cases hfield : unpackExponent b = -1#_
  · unfold UnpackedFloat.unpack
    dsimp only
    rw [if_pos hfield]
    by_cases hfraction : unpackMantissa b = 0#_
    · rw [if_pos hfraction]
      exact iff_of_false (by rintro ⟨⟩) fun h => h.2 hfraction
    · rw [if_neg hfraction]
      exact iff_of_true rfl ⟨hfield, hfraction⟩
  · exact iff_of_false (unpack_ne_of_exponent hfield) fun h => hfield h.1

theorem unpack_pack_ne {f : UnpackedFloat} (h : f ≠ notANumber) :
    UnpackedFloat.unpack spec (UnpackedFloat.pack spec f) ≠ notANumber := by
  have hinfinite : ∀ s, UnpackedFloat.unpack spec (UnpackedFloat.packedInfinity spec s) ≠
      notANumber := by
    intro s
    unfold UnpackedFloat.unpack
    simp [UnpackedFloat.packedInfinity]
  fun_cases UnpackedFloat.pack spec f with
  | case1 => exact absurd rfl h
  | case2 s => exact hinfinite s
  | case3 s =>
    refine unpack_ne_of_exponent ?_
    simp [UnpackedFloat.packedZero, Nat.pos_iff_ne_zero.1 spec.he]
  | case4 s m e hm biasedExponent hover => exact hinfinite s
  | case5 s m e hm actualMantissaBits biasedExponent hover hnormal =>
    refine unpack_ne_of_exponent ?_
    rw [UnpackedFloat.unpackExponent_packComponents, ne_eq, BitVec.neg_one_eq_allOnes,
      ← BitVec.toNat_inj, BitVec.toNat_ofNat, Nat.mod_eq_of_lt (by omega), BitVec.toNat_allOnes]
    omega
  | case6 s m e hm actualMantissaBits biasedExponent hover hnormal =>
    refine unpack_ne_of_exponent ?_
    rw [UnpackedFloat.unpackExponent_packComponents]
    simp [Nat.pos_iff_ne_zero.1 spec.he]

theorem unpack_ne_of_le {b : BitVec spec.numBits}
    (h : b.toNat ≤ (2 ^ spec.exponentBits - 1) * 2 ^ spec.mantissaBitsWithoutImplicit) :
    UnpackedFloat.unpack spec b ≠ notANumber := by
  rw [ne_eq, unpack_eq_notANumber_iff]
  rintro ⟨htop, hfraction⟩
  have hle : 2 ^ spec.exponentBits - 1 ≤ b.toNat / 2 ^ spec.mantissaBitsWithoutImplicit :=
    htop ▸ Nat.mod_le _ _
  have hmul := (Nat.le_div_iff_mul_le (Nat.two_pow_pos _)).1 hle
  exact hfraction (by rw [Nat.le_antisymm h hmul, Nat.mul_mod_left])

theorem neg_ne {f : UnpackedFloat} (h : f ≠ notANumber) : f.neg ≠ notANumber := by
  cases f with
  | notANumber => exact absurd rfl h
  | _ => rintro ⟨⟩

end

theorem unpacked_isNaN_iff {f : UnpackedFloat} : f.isNaN = false ↔ f ≠ notANumber := by
  cases f with
  | notANumber => exact iff_of_false Bool.noConfusion (not_not_intro rfl)
  | _ => exact iff_of_true rfl (by rintro ⟨⟩)

/-! ## Doubles -/

section

variable {x y : Float}

theorem isNaN_eq_false_iff : x.isNaN = false ↔ x.toModel.unpack ≠ notANumber :=
  unpacked_isNaN_iff

theorem isNaN_neg (h : x.isNaN = false) : (-x).isNaN = false := by
  rw [isNaN_eq_false_iff] at h ⊢
  exact unpack_pack_ne (neg_ne h)

theorem isNaN_div (h : x.isNaN = false) {s : UnpackedFloat.Sign} {m : Nat} {e : Int} {hm : 0 < m}
    (hy : y.toModel.unpack = .finite s m e hm) : (x / y).isNaN = false := by
  rw [isNaN_eq_false_iff] at h ⊢
  refine unpack_pack_ne ?_
  rw [hy]
  revert h
  cases x.toModel.unpack with
  | finite s m e hm =>
    intro _
    unfold UnpackedFloat.div UnpackedFloat.roundWithAccuracy
    apply zero_or_finite_ne
  | notANumber => exact fun h => absurd rfl h
  | _ => rintro - ⟨⟩

theorem unpack_zero : (0.0 : Float).toModel.unpack = .zero .positive := rfl

theorem isNaN_add_zero (h : x.isNaN = false) : (x + 0.0).isNaN = false := by
  rw [isNaN_eq_false_iff] at h ⊢
  refine unpack_pack_ne ?_
  rw [unpack_zero]
  revert h
  cases x.toModel.unpack with
  | zero s =>
    intro _
    cases s <;> rintro ⟨⟩
  | notANumber => exact fun h => absurd rfl h
  | _ => rintro - ⟨⟩

theorem beq_zero_iff : (x == 0.0) = true ↔ ∃ s, x.toModel.unpack = .zero s := by
  show (x.toModel.unpack.compare (0.0 : Float).toModel.unpack == some .eq) = true ↔ _
  rw [unpack_zero]
  cases x.toModel.unpack with
  | zero s => exact iff_of_true rfl ⟨s, rfl⟩
  | infinity s | finite s m e hm =>
    cases s <;> exact iff_of_false Bool.noConfusion (by rintro ⟨_, ⟨⟩⟩)
  | notANumber => exact iff_of_false Bool.noConfusion (by rintro ⟨_, ⟨⟩⟩)

theorem beq_add_zero (hx : (x == 0.0) = true) (hy : (y == 0.0) = true) :
    (x + y == 0.0) = true := by
  rw [beq_zero_iff] at hx hy ⊢
  obtain ⟨s, hx⟩ := hx
  obtain ⟨t, hy⟩ := hy
  have hsum : (x + y).toModel.unpack = UnpackedFloat.unpack .binary64
      (UnpackedFloat.pack .binary64
        (UnpackedFloat.add .binary64 x.toModel.unpack y.toModel.unpack)) := rfl
  rw [hsum, hx, hy]
  cases s <;> cases t <;> exact ⟨_, rfl⟩

theorem nearest_le (f : Format) (num den : Nat) :
    f.nearest num den ≤ f.topField <<< f.fractionBits := by
  unfold Format.nearest
  split_ifs
  · exact Nat.zero_le _
  · exact Nat.min_le_right _ _

theorem isNaN_doubleOfInt (n : Int) : (doubleOfInt n).isNaN = false := by
  have hbits : (Float.ofBits (Format.double.nearest n.natAbs 1).toUInt64).isNaN = false := by
    refine isNaN_eq_false_iff.2 (unpack_pack_ne (unpack_ne_of_le ?_))
    calc (Format.double.nearest n.natAbs 1).toUInt64.toNat
        ≤ Format.double.nearest n.natAbs 1 :=
          Nat.le_trans (Nat.le_of_eq UInt64.toNat_ofNat') (Nat.mod_le _ _)
      _ ≤ Format.double.topField <<< Format.double.fractionBits := nearest_le ..
      _ = (2 ^ 11 - 1) * 2 ^ 52 := by decide
  unfold doubleOfInt
  dsimp only
  split_ifs
  · exact isNaN_neg hbits
  · exact hbits

theorem decode_ne_nan (h : x.isNaN = false) : Format.double.decode x.toBits.toNat ≠ .nan := by
  have hbits : UnpackedFloat.unpack .binary64 x.toBits.toBitVec ≠ notANumber :=
    isNaN_eq_false_iff.1 h
  rw [ne_eq, unpack_eq_notANumber_iff] at hbits
  unfold Format.decode
  dsimp only
  split_ifs with htop hzero
  · simp
  · exact absurd ⟨htop, hzero⟩ hbits
  · simp
  · simp

end

/-! ## Singles -/

section

variable {x : Float32}

theorem single_isNaN_eq_false_iff : x.isNaN = false ↔ x.toModel.unpack ≠ notANumber :=
  unpacked_isNaN_iff

theorem single_isNaN_neg (h : x.isNaN = false) : (-x).isNaN = false := by
  rw [single_isNaN_eq_false_iff] at h ⊢
  exact unpack_pack_ne (neg_ne h)

theorem round_le (f : Format) {m : Magnitude} (h : m ≠ .nan) :
    f.round m ≤ f.topField <<< f.fractionBits := by
  unfold Format.round
  split
  · exact absurd rfl h
  · exact Nat.le_refl _
  · exact nearest_le ..
  · exact nearest_le ..

theorem isNaN_singleOfDouble {x : Float} (h : x.isNaN = false) :
    (singleOfDouble x).isNaN = false := by
  let bits := Format.single.round (Format.double.decode x.toBits.toNat)
  have hbits : UnpackedFloat.unpack .binary32 bits.toUInt32.toBitVec ≠ notANumber := by
    refine unpack_ne_of_le ?_
    calc bits.toUInt32.toNat
        ≤ bits := Nat.le_trans (Nat.le_of_eq UInt32.toNat_ofNat') (Nat.mod_le _ _)
      _ ≤ Format.single.topField <<< Format.single.fractionBits := round_le _ (decode_ne_nan h)
      _ = (2 ^ 8 - 1) * 2 ^ 23 := by decide
  rw [single_isNaN_eq_false_iff]
  unfold singleOfDouble
  dsimp only
  split_ifs
  · exact unpack_pack_ne (neg_ne (unpack_pack_ne hbits))
  · exact unpack_pack_ne hbits

theorem beq_self_of_isNaN (h : x.isNaN = false) : (x == x) = true := by
  rw [single_isNaN_eq_false_iff] at h
  show (x.toModel.unpack.compare x.toModel.unpack == some .eq) = true
  revert h
  cases x.toModel.unpack with
  | infinity s =>
    intro _
    cases s <;> rfl
  | finite s m e hm =>
    intro _
    have hequal : (compare e e).then (compare m m) = .eq := by simp
    cases s with
    | positive =>
      show (some ((compare e e).then (compare m m)) == some .eq) = true
      rw [hequal]
      rfl
    | negative =>
      show (some ((compare e e).then (compare m m)).swap == some .eq) = true
      rw [hequal]
      rfl
  | notANumber => exact fun h => absurd rfl h
  | zero s => exact fun _ => rfl

end

/-! ## Measurements -/

section

open Modbus

variable {d : Datum Float} {n : Int} (hscale : d.decoder.scale = doubleOfInt n)
  (hoffset : d.decoder.offset = 0.0) {s : UnpackedFloat.Sign} {m : Nat} {e : Int} {hm : 0 < m}
  (h : (doubleOfInt n).toModel.unpack = .finite s m e hm)

include hscale hoffset h

theorem isNaN_read (encoding : Encoding) (registers : List UInt16) :
    (d.read encoding registers).isNaN = false := by
  unfold Datum.read Datum.read?
  cases d.raw? encoding registers with
  | none => exact isNaN_eq_false_iff.2 (unpack_zero ▸ nofun)
  | some raw =>
    show (Quantity.ofInt _ / d.decoder.scale + d.decoder.offset : Float).isNaN = false
    rw [hscale, hoffset]
    exact isNaN_add_zero (isNaN_div (isNaN_doubleOfInt _) h)

end

end HomeMetering.Decimal.Binary

theorem HomeMetering.Quantity.isZero_total {xs : List Float}
    (h : ∀ x ∈ xs, Quantity.isZero x = true) : Quantity.isZero (Quantity.total xs) = true := by
  refine List.foldlRecOn xs _ (motive := fun s : Float => Quantity.isZero s = true) ?_ ?_
  · decide +kernel
  · exact fun s hs x hx => Decimal.Binary.beq_add_zero hs (h x hx)
