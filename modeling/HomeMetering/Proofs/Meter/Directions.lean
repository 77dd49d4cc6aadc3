import HomeMetering.Proofs.Decimal.Quotients
import HomeMetering.Proofs.Meter.Keeping

/-!
# The direction of a current

An analyzer's current takes the sign of the power. Its register is read without a sign: where a
device reports a magnitude this gives the current that flows back, but a device that reports the
sign itself has the two's complement of the magnitude there, which is read as a current of millions
of amperes.
-/

namespace HomeMetering.Meter

open Decimal.Binary Electricity Modbus Site

namespace InstantData

theorem at_stateOf_of_mem (f : InstantData) (e : Encoding) (current : Float32 → Float32 → Float32)
    {phases : List Nat} (registers : List UInt16) {phase : Nat} (h : phase ∈ phases)
    (hlt : phase < lineCount) :
    let value (data : PerLine (Datum Float)) : Float32 :=
      singleOfDouble (phaseValue data e registers phase)
    (f.stateOf e current phases registers).power.get? phase = some (value f.power) ∧
      (f.stateOf e current phases registers).current.get? phase =
        some (current (value f.power) (value f.current)) := by
  intro value
  let view (s : State) : Option Float32 × Option Float32 :=
    (s.power.get? phase, s.current.get? phase)
  have hview : view (f.stateOf e current phases registers) =
      (some (value f.power), some (current (value f.power) (value f.current))) := by
    refine foldl_view view (· = phase) .zero (fun s p _ hp => ?_) (fun s p _ hp => ?_)
      ⟨phase, h, rfl⟩
    · subst hp
      have hthree : p < 3 := hlt
      simp only [view, addPhase, PerLine.get?_set, true_and]
      rw [if_pos hthree, if_pos hthree]
    · simp [view, addPhase, PerLine.get?_set, hp]
  exact Prod.ext_iff.1 hview

end InstantData

namespace CarloGavazzi

/-! ## Milliamperes -/

/-- The bits of the single nearest to the double nearest to so many thousandths. -/
def thousandths (n : Nat) : Nat :=
  Format.single.round (Format.double.decode (Format.double.nearest n 1000))

/-- So many milliamperes in amperes. -/
def amperes (n : Nat) : Float32 := Float32.ofBits (thousandths n).toUInt32

theorem thousandths_mono {n n' : Nat} (h : n ≤ n') (hlt : n' < 2 ^ 32) :
    thousandths n ≤ thousandths n' := by
  have hmono (a b : Nat) (hab : a ≤ b) :
      Format.double.nearest a 1000 ≤ Format.double.nearest b 1000 :=
    nearest_mono _ (by decide) (by decide) (by gcongr)
  refine Format.double.round_decode_mono _ (hmono n n' h) ?_
  calc Format.double.nearest n' 1000 ≤ Format.double.nearest (2 ^ 32) 1000 := hmono _ _ hlt.le
    _ < Format.double.topField * 2 ^ Format.double.fractionBits := by decide +kernel

theorem thousandths_bounds {n : Nat} (hpos : 0 < n) (hlt : n < 2 ^ 32) :
    2 ^ 23 ≤ thousandths n ∧ thousandths n < 255 * 2 ^ 23 := by
  have hone : 2 ^ 23 ≤ thousandths 1 := by decide +kernel
  have htop : thousandths (2 ^ 32 - 1) < 255 * 2 ^ 23 := by decide +kernel
  exact ⟨hone.trans (thousandths_mono hpos hlt),
    (thousandths_mono (Nat.le_sub_one_of_lt hlt) (by decide)).trans_lt htop⟩

/-- A magnitude and its two's complement give the same single only just below the middle. -/
theorem thousandths_complement_iff {n : Nat} (hpos : 0 < n) (hlt : n < 2 ^ 31) :
    thousandths (2 ^ 32 - n) = thousandths n ↔ 2147483626 ≤ n := by
  constructor
  · intro heq
    by_contra hle
    have hstep : thousandths 2147483625 < thousandths 2147483671 := by decide +kernel
    have hlow := thousandths_mono (n := n) (show n ≤ 2147483625 by omega) (by decide)
    have hhigh := thousandths_mono (show 2147483671 ≤ 2 ^ 32 - n by omega) (by omega)
    omega
  · intro hle
    have hflat : thousandths 2147483626 = thousandths 2147483670 := by decide +kernel
    have hlow := thousandths_mono hle (by omega)
    have hup := thousandths_mono (show n ≤ 2 ^ 32 - n by omega) (by omega)
    have hhigh := thousandths_mono (show 2 ^ 32 - n ≤ 2147483670 by omega) (by decide)
    omega

theorem amperes_pos {n : Nat} (hpos : 0 < n) (hlt : n < 2 ^ 32) : 0 < amperes n := by
  obtain ⟨hlow, hhigh⟩ := thousandths_bounds hpos hlt
  exact pos_ofBits hlow hhigh

theorem neg_amperes_inj {n n' : Nat} (hpos : 0 < n) (hlt : n < 2 ^ 32) (hpos' : 0 < n')
    (hlt' : n' < 2 ^ 32) : -amperes n = -amperes n' ↔ thousandths n = thousandths n' := by
  obtain ⟨hlow, hhigh⟩ := thousandths_bounds hpos hlt
  obtain ⟨hlow', hhigh'⟩ := thousandths_bounds hpos' hlt'
  exact neg_ofBits_inj hlow hhigh hlow' hhigh'

theorem singleOfDouble_decode {n : Nat} (hpos : 0 < n) (hlt : n < 2 ^ 32) (raw : UInt64)
    (hraw : raw.toNat = n) :
    singleOfDouble ((Decoder.unsigned 1000).decode raw .w32) = amperes n := by
  have hdecode : (Decoder.unsigned 1000).decode raw .w32 =
      doubleOfInt (n : Int) / doubleOfInt (1000 : Nat) + 0.0 := by
    rw [← hraw]
    rfl
  rw [hdecode, singleOfDouble_eq
    (toBits_div_doubleOfInt hpos (by omega) (by decide) (by decide)) (nearest_lt _ _)]
  rfl

/-! ## Registers -/

/-- Where the current of a phase starts. -/
def currentIndex (singlePhase : Bool) (phase : Nat) : Nat :=
  if singlePhase then 0x02 else 0x0C + 2 * phase

def powerIndex (singlePhase : Bool) (phase : Nat) : Nat :=
  if singlePhase then 0x04 else 0x12 + 2 * phase

theorem phaseValue_current (singlePhase : Bool) {phase : Nat} (h : phase < lineCount)
    (e : Encoding) (registers : List UInt16) :
    phaseValue (instantData singlePhase).current e registers phase =
      (datum32 (.unsigned 1000) (currentIndex singlePhase phase) : Datum Float).read e
        registers := by
  match phase, h with
  | 0, _ | 1, _ | 2, _ => cases singlePhase <;> rfl

theorem phaseValue_power (singlePhase : Bool) {phase : Nat} (h : phase < lineCount)
    (e : Encoding) (registers : List UInt16) :
    phaseValue (instantData singlePhase).power e registers phase =
      (datum32 (.signed 10) (powerIndex singlePhase phase) : Datum Float).read e registers := by
  match phase, h with
  | 0, _ | 1, _ | 2, _ => cases singlePhase <;> rfl

theorem join?_congr (e : Encoding) {registers registers' : List UInt16} {index count : Nat}
    (hlength : registers.length = registers'.length)
    (h : ∀ i, index ≤ i → i < index + count → registers[i]? = registers'[i]?) :
    e.join? registers index count = e.join? registers' index count := by
  have hwords : (registers.drop index).take count = (registers'.drop index).take count := by
    refine List.ext_getElem? fun i => ?_
    rw [List.getElem?_take, List.getElem?_take, List.getElem?_drop, List.getElem?_drop]
    split_ifs with hi
    · exact h _ (by omega) (by omega)
    · rfl
  unfold Encoding.join?
  rw [hlength, hwords]

/-- Registers that are those of another device but for the current of a phase. -/
structure DiffersInCurrent (singlePhase : Bool) (phase : Nat)
    (registers registers' : List UInt16) : Prop where
  length : registers.length = registers'.length
  others : ∀ i, i < currentIndex singlePhase phase ∨ currentIndex singlePhase phase + 2 ≤ i →
    registers[i]? = registers'[i]?

theorem DiffersInCurrent.power_eq {singlePhase : Bool} {phase : Nat}
    {registers registers' : List UInt16}
    (h : DiffersInCurrent singlePhase phase registers registers') (hphase : phase < lineCount)
    (e : Encoding) :
    phaseValue (instantData singlePhase).power e registers phase =
      phaseValue (instantData singlePhase).power e registers' phase := by
  have hthree : phase < 3 := hphase
  rw [phaseValue_power _ hphase, phaseValue_power _ hphase]
  have hjoin : e.join? registers (powerIndex singlePhase phase) 2 =
      e.join? registers' (powerIndex singlePhase phase) 2 := by
    refine join?_congr e h.length fun i hi hi' => h.others i (.inr ?_)
    unfold powerIndex at hi
    unfold currentIndex
    split_ifs at hi ⊢ <;> omega
  unfold Datum.read Datum.read? Datum.raw? datum32 Encoding.u32At?
  dsimp only
  rw [hjoin]

/-! ## Devices -/

variable {K : Type}

/-- The current of a phase that a round gives. -/
def currentIn (m : CarloGavazzi K) (c : Round) (phase : Nat) : Option Float32 :=
  (m.readInstant.outcome c.answer).toOption.bind fun state => state.current.get? phase

def powerIn (m : CarloGavazzi K) (c : Round) (phase : Nat) : Option Float32 :=
  (m.readInstant.outcome c.answer).toOption.bind fun state => state.power.get? phase

section

variable {m : CarloGavazzi K} {phase : Nat} (hphase : phase ∈ m.phases) {c : Round}
  {registers : List UInt16}
  (hread : c.read? m.link (instantBlock m.family.isSinglePhase) = some registers)

include hphase

theorem lt_of_mem_phases : phase < lineCount := by
  unfold phases devicePhases at hphase
  split_ifs at hphase
  · rw [List.mem_singleton.1 hphase]
    decide
  · exact of_decide_eq_true (List.mem_filter.1 hphase).2

include hread

theorem instant_eq :
    let single := m.family.isSinglePhase
    let value (data : PerLine (Datum Float)) : Float32 :=
      singleOfDouble (phaseValue data m.link.encoding registers phase)
    m.powerIn c phase = some (value (instantData single).power) ∧
      m.currentIn c phase = some
        (withSignOf (value (instantData single).power) (value (instantData single).current)) := by
  intro single value
  unfold powerIn currentIn
  rw [outcome_readInstant, instantRead?, hread]
  exact (instantData single).at_stateOf_of_mem m.link.encoding withSignOf registers hphase
    (lt_of_mem_phases hphase)

theorem currentIn_eq {n : UInt32} (hpos : 0 < n.toNat)
    (hword : m.link.encoding.u32At? registers (currentIndex m.family.isSinglePhase phase) = some n)
    {power : Float32} (hpower : m.powerIn c phase = some power) :
    m.currentIn c phase = some (if power < 0 then -amperes n.toNat else amperes n.toNat) := by
  obtain ⟨hpowerIn, hcurrentIn⟩ := instant_eq hphase hread
  dsimp only at hpowerIn hcurrentIn
  have hcurrent : singleOfDouble (phaseValue (instantData m.family.isSinglePhase).current
      m.link.encoding registers phase) = amperes n.toNat := by
    have hraw : (datum32 (.unsigned 1000) (currentIndex m.family.isSinglePhase phase) :
        Datum Float).raw? m.link.encoding registers = some n.toUInt64 :=
      congrArg (Option.map UInt32.toUInt64) hword
    rw [phaseValue_current _ (lt_of_mem_phases hphase), Datum.read, Datum.read?, hraw]
    exact singleOfDouble_decode hpos n.toNat_lt _ n.toNat_toUInt64
  rw [hcurrentIn, hcurrent, ← Option.some.inj (hpowerIn.symm.trans hpower)]
  unfold withSignOf
  rw [decide_eq_true (show amperes n.toNat > 0 from amperes_pos hpos n.toNat_lt), Bool.and_true]
  simp only [decide_eq_true_eq]

end

/-- The current of a device that reports magnitudes and that of one that reports signs, at the same
magnitude: with power that flows back they are the negatives of what the magnitude and its two's
complement are without a sign, and the same only where these are too near to each other to be told
apart. -/
theorem currents_agree_iff {m : CarloGavazzi K} {phase : Nat} (hphase : phase ∈ m.phases)
    {c c' : Round} {registers registers' : List UInt16}
    (hread : c.read? m.link (instantBlock m.family.isSinglePhase) = some registers)
    (hread' : c'.read? m.link (instantBlock m.family.isSinglePhase) = some registers')
    (hdiffers : DiffersInCurrent m.family.isSinglePhase phase registers registers') {n : UInt32}
    (hpos : 0 < n.toNat) (hlt : n.toNat < 2 ^ 31)
    (hword : m.link.encoding.u32At? registers (currentIndex m.family.isSinglePhase phase) = some n)
    (hword' : m.link.encoding.u32At? registers' (currentIndex m.family.isSinglePhase phase) =
      some (-n)) {power : Float32} (hpower : m.powerIn c phase = some power) :
    m.powerIn c' phase = some power ∧
      (power < 0 →
        m.currentIn c phase = some (-amperes n.toNat) ∧
          m.currentIn c' phase = some (-amperes (2 ^ 32 - n.toNat)) ∧
          (m.currentIn c' phase = m.currentIn c phase ↔ 2147483626 ≤ n.toNat)) ∧
      (¬ power < 0 → m.currentIn c phase = some (amperes n.toNat)) := by
  have hneg : (-n).toNat = 2 ^ 32 - n.toNat := by
    rw [UInt32.toNat_neg, Nat.mod_eq_of_lt (Nat.sub_lt (by decide) hpos)]
    rfl
  have hpower' : m.powerIn c' phase = some power := by
    obtain ⟨hpowerIn, -⟩ := instant_eq hphase hread
    obtain ⟨hpowerIn', -⟩ := instant_eq hphase hread'
    dsimp only at hpowerIn hpowerIn'
    rw [← hpower, hpowerIn, hpowerIn', hdiffers.power_eq (lt_of_mem_phases hphase)]
  have hcurrent := currentIn_eq hphase hread hpos hword hpower
  have hcurrent' := currentIn_eq hphase hread' (by omega) hword' hpower'
  refine ⟨hpower', fun hback => ?_, fun hback => ?_⟩
  · rw [if_pos hback] at hcurrent hcurrent'
    rw [hneg] at hcurrent'
    refine ⟨hcurrent, hcurrent', ?_⟩
    rw [hcurrent, hcurrent', Option.some.injEq,
      neg_amperes_inj (by omega) (by omega) hpos (by omega)]
    exact thousandths_complement_iff hpos hlt
  · rw [if_neg hback] at hcurrent
    exact hcurrent

/-- A round with the analyzer, where a tenth of a watt flows back and the current of the first phase
has some word. -/
def flowingBack (current : UInt32) : Round :=
  let registers : Registers := fun address =>
    if address = 0x0C then some current.toUInt16
    else if address = 0x0D then some (current >>> 16).toUInt16
    else if 0x12 ≤ address ∧ address < 0x18 then some 0xFFFF
    else if address < 0x18 then some 0 else none
  roundOn { Segment.new with devices := [(1, { Device.new with holding := registers })] } 0

/-- The registers of such a round. -/
def flowingBackRegisters (current : UInt32) : List UInt16 :=
  List.replicate 12 (0 : UInt16) ++ current.toUInt16 :: (current >>> 16).toUInt16 ::
    (List.replicate 4 (0 : UInt16) ++ List.replicate 6 (0xFFFF : UInt16))

theorem read?_flowingBack (current : UInt32) :
    (flowingBack current).read? analyzer.link (instantBlock analyzer.family.isSinglePhase) =
      some (flowingBackRegisters current) := rfl

theorem differs_flowingBack (current current' : UInt32) :
    DiffersInCurrent analyzer.family.isSinglePhase 0 (flowingBackRegisters current)
      (flowingBackRegisters current') := by
  refine ⟨rfl, fun i hi => ?_⟩
  have hindex : currentIndex analyzer.family.isSinglePhase 0 = 12 := rfl
  have hzeros : (List.replicate 12 (0 : UInt16)).length = 12 := rfl
  rw [hindex] at hi
  unfold flowingBackRegisters
  rcases hi with hi | hi
  · rw [List.getElem?_append_left (hzeros ▸ hi), List.getElem?_append_left (hzeros ▸ hi)]
  · obtain ⟨j, rfl⟩ := Nat.exists_eq_add_of_le hi
    have hafter : 12 ≤ 12 + 2 + j := by omega
    rw [List.getElem?_append_right (hzeros ▸ hafter), List.getElem?_append_right (hzeros ▸ hafter),
      hzeros, show 12 + 2 + j - 12 = j + 2 by omega]
    rfl

/-- Two million amperes and their two's complement cannot be told apart. -/
theorem middle_currents_agree :
    let n : UInt32 := 2147483626
    (∃ power, analyzer.powerIn (flowingBack n) 0 = some power ∧ power < 0) ∧
      analyzer.currentIn (flowingBack n) 0 = some (-amperes 2147483626) ∧
      analyzer.currentIn (flowingBack (-n)) 0 = analyzer.currentIn (flowingBack n) 0 := by
  intro n
  have hphase : 0 ∈ analyzer.phases := by decide
  have hpos : 0 < n.toNat := by decide
  have hlt : n.toNat < 2 ^ 31 := by decide
  have hword : analyzer.link.encoding.u32At? (flowingBackRegisters n)
      (currentIndex analyzer.family.isSinglePhase 0) = some n := by decide +kernel
  have hword' : analyzer.link.encoding.u32At? (flowingBackRegisters (-n))
      (currentIndex analyzer.family.isSinglePhase 0) = some (-n) := by decide +kernel
  have hpower : ∃ power, analyzer.powerIn (flowingBack n) 0 = some power ∧ power < 0 :=
    ⟨_, rfl, by decide +kernel⟩
  obtain ⟨power, hpowerIn, hback⟩ := hpower
  obtain ⟨hmagnitude, -, hsame⟩ := (currents_agree_iff hphase (read?_flowingBack n)
    (read?_flowingBack (-n)) (differs_flowingBack n (-n)) hpos hlt hword hword' hpowerIn).2.1 hback
  exact ⟨⟨power, hpowerIn, hback⟩, hmagnitude, hsame.2 (by decide)⟩

/-- Ten amperes that flow back are millions of amperes where the device reports their sign. -/
theorem signed_current_misread :
    let n : UInt32 := 10000
    let magnitude := flowingBack n
    let signed := flowingBack (-n)
    DiffersInCurrent analyzer.family.isSinglePhase 0 (flowingBackRegisters n)
        (flowingBackRegisters (-n)) ∧
      (∃ power, analyzer.powerIn magnitude 0 = some power ∧ power < 0) ∧
      (analyzer.currentIn magnitude 0).map Float32.toBits = some (-amperes 10000).toBits ∧
      (analyzer.currentIn signed 0).map Float32.toBits = some (-amperes 4294957296).toBits ∧
      analyzer.currentIn signed 0 ≠ analyzer.currentIn magnitude 0 := by
  intro n magnitude signed
  have hmagnitude : (analyzer.currentIn magnitude 0).map Float32.toBits =
      some (-amperes 10000).toBits := by decide +kernel
  have hsigned : (analyzer.currentIn signed 0).map Float32.toBits =
      some (-amperes 4294957296).toBits := by decide +kernel
  refine ⟨differs_flowingBack n (-n), ⟨_, rfl, by decide +kernel⟩, hmagnitude, hsigned,
    fun heq => ?_⟩
  rw [heq, hmagnitude] at hsigned
  exact absurd hsigned (by decide +kernel)

end CarloGavazzi

end HomeMetering.Meter
