import HomeMetering.Modbus.Register
import Mathlib.Algebra.BigOperators.Fin
import Mathlib.Algebra.Order.Group.Nat
import Mathlib.Data.Fintype.BigOperators

/-!
# Registers as digits

The registers of a value are its digits to the base 65536. The byte order says which digit a
register is, the word order where it stands; every value of a width is written in one way only.
Signed values are read along two ways, by a conversion of the whole value and by shifting it to the
top and back, and both give its two's complement.
-/

namespace HomeMetering.Modbus

/-! ## Digits -/

/-- The digit that a register is: its bytes to the base 256. -/
def ByteOrder.digit : ByteOrder → UInt16 → Nat
  | bigEndian, register => register.toNat
  | littleEndian, register => register.toNat % 256 * 256 + register.toNat / 256

/-- Where the `i`th register of a value stands, counted from the least significant place. -/
def WordOrder.place {count : Nat} : WordOrder → Fin count → Nat
  | highFirst, i => count - 1 - i
  | lowFirst, i => i

/-- The places of registers in their order. -/
def WordOrder.places {count : Nat} : WordOrder → Equiv.Perm (Fin count)
  | highFirst => Fin.revPerm
  | lowFirst => Equiv.refl _

theorem WordOrder.places_apply {count : Nat} (o : WordOrder) (i : Fin count) :
    (o.places i : Nat) = o.place i := by
  cases o with
  | highFirst => simp [places, place]; omega
  | lowFirst => rfl

namespace Encoding

/-- What registers are worth together. -/
def worth (e : Encoding) {count : Nat} (words : Fin count → UInt16) : Nat :=
  ∑ i, e.bytes.digit (words i) * 65536 ^ e.words.place i

theorem toNat_word (e : Encoding) (register : UInt16) :
    (e.word register).toNat = e.bytes.digit register := by
  unfold word ByteOrder.digit
  have hlt := register.toNat_lt
  cases e.bytes with
  | bigEndian => rfl
  | littleEndian =>
    have hleft : (register <<< 8).toNat = (register.toNat % 256) <<< 8 := by
      simp only [UInt16.toNat_shiftLeft, UInt16.reduceToNat, Nat.reduceMod, Nat.shiftLeft_eq]
      omega
    have hright : (register >>> 8).toNat = register.toNat / 256 := by
      simp [Nat.shiftRight_eq_div_pow]
    have hsmall : register.toNat / 256 < 2 ^ 8 := by omega
    rw [UInt16.toNat_or, hleft, hright, ← Nat.shiftLeft_add_eq_or_of_lt hsmall, Nat.shiftLeft_eq]

theorem word_word (e : Encoding) (register : UInt16) : e.word (e.word register) = register := by
  apply UInt16.toNat_inj.1
  have hlt := register.toNat_lt
  rw [toNat_word]
  have hword := e.toNat_word register
  unfold ByteOrder.digit at *
  cases hbytes : e.bytes with
  | bigEndian => rw [hbytes] at hword; exact hword
  | littleEndian =>
    rw [hbytes] at hword
    dsimp only at *
    omega

/-- A register and its digit. -/
def digit (e : Encoding) : UInt16 ≃ Fin 65536 where
  toFun register := (e.word register).toFin
  invFun d := e.word (.ofFin d)
  left_inv := e.word_word
  right_inv d := by simp [word_word]

theorem val_digit (e : Encoding) (register : UInt16) :
    (e.digit register : Nat) = e.bytes.digit register :=
  e.toNat_word register

/-- Registers and their digits, each at its place. -/
def digits (e : Encoding) (count : Nat) : (Fin count → UInt16) ≃ (Fin count → Fin 65536) :=
  e.words.places.arrowCongr e.digit

theorem worth_eq (e : Encoding) {count : Nat} (words : Fin count → UInt16) :
    e.worth words = finFunctionFinEquiv (e.digits count words) := by
  rw [finFunctionFinEquiv_apply, ← Equiv.sum_comp e.words.places]
  refine Finset.sum_congr rfl fun i _ => ?_
  have hdigit : (e.digits count words (e.words.places i) : Nat) = e.bytes.digit (words i) := by
    simp [digits, val_digit]
  rw [hdigit, WordOrder.places_apply]

theorem worth_lt (e : Encoding) {count : Nat} (words : Fin count → UInt16) :
    e.worth words < 65536 ^ count := by
  rw [worth_eq]
  exact Fin.isLt _

/-- Every value of a width is what one tuple of registers is worth. -/
theorem bijOn_worth (e : Encoding) (count : Nat) :
    Set.BijOn (e.worth : (Fin count → UInt16) → Nat) Set.univ (Set.Iio (65536 ^ count)) := by
  refine ⟨fun words _ => e.worth_lt words, fun words _ words' _ h => ?_, fun n hn => ?_⟩
  · rw [worth_eq, worth_eq] at h
    exact (e.digits count).injective (finFunctionFinEquiv.injective (Fin.ext h))
  · refine ⟨(e.digits count).symm (finFunctionFinEquiv.symm ⟨n, hn⟩), trivial, ?_⟩
    rw [worth_eq, Equiv.apply_symm_apply, Equiv.apply_symm_apply]

/-! ## Joining registers -/

/-- Takes in one more register behind those of a value. -/
def append (e : Encoding) (v : UInt64) (register : UInt16) : UInt64 :=
  v <<< 16 ||| (e.word register).toUInt64

theorem toNat_append (e : Encoding) {v : UInt64} (h : v.toNat < 65536 ^ 3) (register : UInt16) :
    (e.append v register).toNat = v.toNat * 65536 + e.bytes.digit register := by
  have hword := (e.word register).toNat_lt
  have hshift : (v <<< 16).toNat = v.toNat <<< 16 := by
    simp only [UInt64.toNat_shiftLeft, UInt64.reduceToNat, Nat.reduceMod, Nat.shiftLeft_eq]
    omega
  rw [append, UInt64.toNat_or, hshift, UInt16.toNat_toUInt64,
    ← Nat.shiftLeft_add_eq_or_of_lt hword, Nat.shiftLeft_eq, toNat_word]

theorem toNat_foldl_append (e : Encoding) {count : Nat} (h : count ≤ 4)
    (words : Fin count → UInt16) :
    ((List.ofFn words).foldl e.append 0).toNat =
      worth ⟨e.bytes, .highFirst⟩ words := by
  induction count with
  | zero => rfl
  | succ count ih =>
    have hinit := ih (by omega) fun i => words i.castSucc
    -- Only three registers so far, so nothing is shifted out.
    have hlt : worth ⟨e.bytes, .highFirst⟩ (fun i => words i.castSucc) < 65536 ^ 3 :=
      (worth_lt _ _).trans_le (Nat.pow_le_pow_right (by omega) (by omega))
    rw [List.ofFn_succ', List.concat_eq_append, List.foldl_concat,
      e.toNat_append (hinit ▸ hlt), hinit, worth, worth, Fin.sum_univ_castSucc, Finset.sum_mul]
    congr 1
    · refine Finset.sum_congr rfl fun i _ => ?_
      have hplace : count + 1 - 1 - (i.castSucc : Nat) = count - 1 - i + 1 := by
        simp; omega
      rw [WordOrder.place, WordOrder.place, hplace, pow_succ, mul_assoc]
    · simp [WordOrder.place]

theorem reverse_ofFn {α : Type} {n : Nat} (f : Fin n → α) :
    (List.ofFn f).reverse = List.ofFn fun i => f i.rev := by
  refine List.ext_getElem (by simp) fun i h h' => ?_
  simp [Fin.rev, Nat.sub_sub, Nat.add_comm]

theorem toNat_foldl_significant (e : Encoding) {count : Nat} (h : count ≤ 4)
    (words : Fin count → UInt16) :
    ((e.significant (List.ofFn words)).foldl e.append 0).toNat = e.worth words := by
  obtain ⟨bytes, words'⟩ := e
  cases words' with
  | highFirst => exact toNat_foldl_append _ h words
  | lowFirst =>
    rw [significant, reverse_ofFn, toNat_foldl_append _ h, worth, worth,
      ← Equiv.sum_comp Fin.revPerm]
    refine Finset.sum_congr rfl fun i _ => ?_
    have hplace : count - 1 - (Fin.revPerm i : Nat) = i := by
      rw [Fin.revPerm_apply, Fin.val_rev]
      omega
    rw [WordOrder.place, WordOrder.place, hplace, Fin.revPerm_apply, Fin.rev_rev]

theorem join?_eq_none_iff (e : Encoding) {registers : List UInt16} {index count : Nat} :
    e.join? registers index count = none ↔ registers.length < index + count := by
  simp [join?]

theorem toNat_join? (e : Encoding) {registers : List UInt16} {index count : Nat}
    (hpos : 0 < count) (hle : count ≤ 4) {words : Fin count → UInt16}
    (h : ∀ i : Fin count, registers[index + i]? = some (words i)) :
    (e.join? registers index count).map UInt64.toNat = some (e.worth words) := by
  have hlength : index + count ≤ registers.length := by
    obtain ⟨hlast, -⟩ := List.getElem?_eq_some_iff.1 (h ⟨count - 1, by omega⟩)
    simp at hlast
    omega
  have hwords : (registers.drop index).take count = List.ofFn words := by
    refine List.ext_getElem (by simp; omega) fun i h₁ h₂ => ?_
    have hi : i < count := by simpa using h₂
    obtain ⟨_, hget⟩ := List.getElem?_eq_some_iff.1 (h ⟨i, hi⟩)
    simpa using hget
  rw [join?, if_pos hlength, hwords]
  exact congrArg some (e.toNat_foldl_significant hle words)

/-- A reader that takes so many registers as the digits of a number. -/
structure ReadsDigits (e : Encoding) (count : Nat) (read? : List UInt16 → Nat → Option Nat) :
    Prop where
  eq_none_iff (registers : List UInt16) (index : Nat) :
    read? registers index = none ↔ registers.length < index + count
  eq_worth (registers : List UInt16) (index : Nat) (words : Fin count → UInt16) :
    (∀ i : Fin count, registers[index + i]? = some (words i)) →
      read? registers index = some (e.worth words)
  bijOn : Set.BijOn (e.worth : (Fin count → UInt16) → Nat) Set.univ (Set.Iio (65536 ^ count))

theorem readsDigits_join? (e : Encoding) {count : Nat} (hpos : 0 < count) (hle : count ≤ 4)
    {cut : UInt64 → Nat} (hcut : ∀ v, v.toNat < 65536 ^ count → cut v = v.toNat) :
    e.ReadsDigits count fun registers index => (e.join? registers index count).map cut where
  eq_none_iff registers index := by rw [Option.map_eq_none_iff, join?_eq_none_iff]
  eq_worth registers index words h := by
    obtain ⟨v, hv, hworth⟩ := Option.map_eq_some_iff.1 (e.toNat_join? hpos hle h)
    rw [hv, Option.map_some, hcut v (hworth ▸ e.worth_lt words), hworth]
  bijOn := e.bijOn_worth count

end Encoding

/-! ## Signs -/

/-- The signed number that a number of so many bits is. -/
def twosComplement (bits n : Nat) : Int := if 2 * n < 2 ^ bits then n else n - (2 ^ bits : Nat)

theorem toInt_eq {w : Nat} (x : BitVec w) : x.toInt = twosComplement w x.toNat :=
  x.toInt_eq_toNat_cond

/-- The bits of a width. -/
def Width.bits (w : Width) : Nat := 16 * w.registers

theorem toInt_shiftRight (x : Int64) (w : Width) :
    (x >>> w.spareBits.toInt64).toInt = x.toInt / 2 ^ w.spareBits.toNat := by
  have hmod : w.spareBits.toInt64.toBitVec.smod 64 = w.spareBits.toBitVec := by
    cases w <;> decide
  rw [Int64.toInt, Int64.toBitVec_shiftRight, hmod, BitVec.sshiftRight', BitVec.toInt_sshiftRight,
    Int.shiftRight_eq_div_pow]
  norm_cast

theorem integer_of_isSigned {K : Type} {d : Decoder K} (h : d.isSigned = true) {raw : UInt64}
    {w : Width} (hlt : raw.toNat < 2 ^ w.bits) :
    d.integer raw w = twosComplement w.bits raw.toNat := by
  have htop : (raw <<< w.spareBits).toNat = raw.toNat * 2 ^ w.spareBits.toNat := by
    rw [UInt64.toNat_shiftLeft, Nat.shiftLeft_eq]
    cases w <;> simp [Width.bits, Width.registers, Width.spareBits] at * <;> omega
  have hsign : (raw <<< w.spareBits).toInt64.toInt =
      twosComplement 64 (raw.toNat * 2 ^ w.spareBits.toNat) := by
    rw [← htop]
    exact toInt_eq _
  rw [Decoder.integer, if_pos h, toInt_shiftRight, hsign]
  unfold twosComplement
  cases w <;> simp [Width.bits, Width.registers, Width.spareBits] at * <;> split_ifs <;> omega

/-- The signed number at a place. -/
def Encoding.signedAt? (e : Encoding) (registers : List UInt16) (index : Nat) :
    Width → Option Int
  | .w16 => (e.i16At? registers index).map Int16.toInt
  | .w32 => (e.i32At? registers index).map Int32.toInt
  | .w64 => (e.u64At? registers index).map fun n => twosComplement 64 n.toNat

namespace Datum

variable {K : Type}

/-- The integer of a datum, before it is scaled. -/
def integer? (d : Datum K) (e : Encoding) (registers : List UInt16) : Option Int :=
  (d.raw? e registers).map fun raw => d.decoder.integer raw d.width

theorem read?_eq [Quantity K] (d : Datum K) (e : Encoding) (registers : List UInt16) :
    d.read? e registers = (d.integer? e registers).map fun n =>
      Quantity.ofInt n / d.decoder.scale + d.decoder.offset := by
  rw [read?, integer?, Option.map_map]
  rfl

theorem integer?_of_isSigned {d : Datum K} (h : d.decoder.isSigned = true) (e : Encoding)
    (registers : List UInt16) : d.integer? e registers = e.signedAt? registers d.index d.width := by
  obtain ⟨index, width, decoder⟩ := d
  cases width with
  | w16 =>
    simp only [integer?, raw?, Encoding.signedAt?, Encoding.i16At?, Option.map_map]
    refine Option.map_congr fun n _ => ?_
    have hlt : n.toUInt64.toNat < 2 ^ Width.bits .w16 := n.toNat_lt
    exact (integer_of_isSigned h hlt).trans (toInt_eq n.toBitVec).symm
  | w32 =>
    simp only [integer?, raw?, Encoding.signedAt?, Encoding.i32At?, Option.map_map]
    refine Option.map_congr fun n _ => ?_
    have hlt : n.toUInt64.toNat < 2 ^ Width.bits .w32 := n.toNat_lt
    exact (integer_of_isSigned h hlt).trans (toInt_eq n.toBitVec).symm
  | w64 =>
    simp only [integer?, raw?, Encoding.signedAt?]
    exact Option.map_congr fun n _ => integer_of_isSigned h n.toNat_lt

end Datum

/-- Numbers of one, two and four registers are the sums of their digits, and a signed number is the
two's complement of its width, on whichever way it is read. -/
theorem Encoding.reads_digits (e : Encoding) :
    (e.ReadsDigits 1 fun registers index => (e.u16At? registers index).map UInt16.toNat) ∧
      (e.ReadsDigits 2 fun registers index => (e.u32At? registers index).map UInt32.toNat) ∧
      (e.ReadsDigits 4 fun registers index => (e.u64At? registers index).map UInt64.toNat) ∧
      ∀ {K : Type} [Quantity K] (registers : List UInt16) (index : Nat) (width : Width)
        (scale offset : K),
        let d : Datum K := ⟨index, width, ⟨scale, offset, true⟩⟩
        d.integer? e registers = e.signedAt? registers index width ∧
          d.read? e registers = (e.signedAt? registers index width).map fun n =>
            Quantity.ofInt n / scale + offset := by
  refine ⟨?_, ?_, ?_, ?_⟩
  · simp only [u16At?, Option.map_map]
    exact e.readsDigits_join? (by omega) (by omega) fun v hv => Nat.mod_eq_of_lt hv
  · simp only [u32At?, Option.map_map]
    exact e.readsDigits_join? (by omega) (by omega) fun v hv => Nat.mod_eq_of_lt hv
  · exact e.readsDigits_join? (by omega) (by omega) fun v _ => rfl
  · intro K _ registers index width scale offset d
    have hinteger : d.integer? e registers = e.signedAt? registers index width :=
      Datum.integer?_of_isSigned rfl e registers
    exact ⟨hinteger, by rw [Datum.read?_eq, hinteger]⟩

end HomeMetering.Modbus
