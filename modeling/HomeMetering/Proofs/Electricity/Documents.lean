import HomeMetering.Electricity.State
import HomeMetering.Electricity.Usage
import HomeMetering.Proofs.Json.Records

/-!
# Measurements and their documents

A document of a state holds totals and a number of phases that nobody reads back, so the state comes
back as it was, whatever they say. A document of counters holds the totals that are reported, and
they come back as totals that were set. One that is zero counts as none and gives way to the sum of
the lines; but only a sum that is zero is reported as zero, so the counters answer every question as
before.
-/

namespace HomeMetering.Electricity

open Json (Written)

namespace State

/-- The lines of a document are those of a state. What is derived from them may be anything. -/
structure Projection.HasLines (p : Projection) (s : State) : Prop where
  current : p.current = s.current
  power : p.power = s.power
  voltage : p.voltage = s.voltage

theorem hasLines_project (s : State) : s.project.HasLines s := ⟨rfl, rfl, rfl⟩

theorem Projection.HasLines.ofProjection {p : Projection} {s : State} (h : p.HasLines s) :
    State.ofProjection p = s := by
  obtain ⟨hcurrent, hpower, hvoltage⟩ := h
  rw [State.ofProjection, hcurrent, hpower, hvoltage]

namespace Projection

theorem lines_of_holds {read : List (String × Written)} {fields : List (String × Json)}
    (h : Written.Holds read fields) {suffix : String} {v : PerLine Float32}
    (hlines : [("l1" ++ suffix, .single v.first), ("l2" ++ suffix, .single v.second),
      ("l3" ++ suffix, .single v.third)] ⊆ fields) :
    ofWritten?.lines read suffix = some v := by
  simp only [List.cons_subset] at hlines
  obtain ⟨hfirst, hsecond, hthird, -⟩ := hlines
  simp [ofWritten?.lines, h.single hfirst, h.single hsecond, h.single hthird]

theorem ofWritten?_of_carries {p : Projection} {w : Written} (h : w.Carries p.toJson) :
    ofWritten? w = some p := by
  obtain ⟨read, hread, hholds⟩ := Written.record?_of_carries h rfl (by decide)
  have hcurrent : ofWritten?.lines read "_current" = some p.current :=
    lines_of_holds hholds (by simp [fieldNames, PerLine.toList])
  have hpower : ofWritten?.lines read "_power" = some p.power :=
    lines_of_holds hholds (by simp [fieldNames, PerLine.toList])
  have hvoltage : ofWritten?.lines read "_voltage" = some p.voltage :=
    lines_of_holds hholds (by simp [fieldNames, PerLine.toList])
  have htotalCurrent : Written.single? read "total_current" = some p.totalCurrent :=
    hholds.single (by simp [fieldNames, PerLine.toList])
  have htotalPower : Written.single? read "total_power" = some p.totalPower :=
    hholds.single (by simp [fieldNames, PerLine.toList])
  have hphases : Written.natural? read "phases" = some p.phases :=
    hholds.natural (by simp [fieldNames, PerLine.toList])
  simp [ofWritten?, hread, hcurrent, hpower, hvoltage, htotalCurrent, htotalPower, hphases]

end Projection

end State

namespace Usage

variable {K : Type} [Quantity K]

/-- Counters that answer every question alike, though other totals may have been set. -/
structure Agrees (u u' : Usage K) : Prop where
  consumed : ∀ line, u.consumed.get? line = u'.consumed.get? line
  provided : ∀ line, u.provided.get? line = u'.provided.get? line
  totalConsumed : u.totalConsumed = u'.totalConsumed
  totalProvided : u.totalProvided = u'.totalProvided
  isZero : u.isZero = u'.isZero
  project : u.project = u'.project

theorem totalOr_totalOr (set : K) (lines : PerLine K) :
    totalOr (totalOr set lines) lines = totalOr set lines := by
  by_cases hset : Quantity.isZero set
  · have hsum : totalOr set lines = Quantity.total lines.toList := if_pos hset
    rw [hsum, totalOr, ite_self]
  · have hkept : totalOr set lines = set := if_neg hset
    rw [hkept, hkept]

theorem agrees_ofProjection (u : Usage K) : (ofProjection u.project).Agrees u := by
  have hconsumed : (ofProjection u.project).totalConsumed = u.totalConsumed :=
    totalOr_totalOr u.setConsumed u.consumed
  have hprovided : (ofProjection u.project).totalProvided = u.totalProvided :=
    totalOr_totalOr u.setProvided u.provided
  refine ⟨fun _ => rfl, fun _ => rfl, hconsumed, hprovided, ?_, ?_⟩
  · rw [isZero, hconsumed, hprovided, isZero]
  · rw [project, hconsumed, hprovided]
    rfl

namespace Projection

theorem lines_of_holds {read : List (String × Written)} {fields : List (String × Json)}
    (h : Written.Holds read fields) {suffix : String} {v : PerLine Float}
    (hlines : [("l1" ++ suffix, .double v.first), ("l2" ++ suffix, .double v.second),
      ("l3" ++ suffix, .double v.third)] ⊆ fields) :
    ofWritten?.lines read suffix = some v := by
  simp only [List.cons_subset] at hlines
  obtain ⟨hfirst, hsecond, hthird, -⟩ := hlines
  simp [ofWritten?.lines, h.double hfirst, h.double hsecond, h.double hthird]

theorem ofWritten?_of_carries {p : Projection Float} {w : Written} (h : w.Carries p.toJson) :
    ofWritten? w = some p := by
  obtain ⟨read, hread, hholds⟩ := Written.record?_of_carries h rfl (by decide)
  have hconsumed : ofWritten?.lines read "_energy_consumed" = some p.consumed :=
    lines_of_holds hholds (by simp [fieldNames, PerLine.toList])
  have hprovided : ofWritten?.lines read "_energy_provided" = some p.provided :=
    lines_of_holds hholds (by simp [fieldNames, PerLine.toList])
  have htotalConsumed : Written.double? read "total_energy_consumed" = some p.totalConsumed :=
    hholds.double (by simp [fieldNames, PerLine.toList])
  have htotalProvided : Written.double? read "total_energy_provided" = some p.totalProvided :=
    hholds.double (by simp [fieldNames, PerLine.toList])
  simp [ofWritten?, hread, hconsumed, hprovided, htotalConsumed, htotalProvided]

end Projection

end Usage

/-- States come back from their documents, and counters as ones that answer alike. A document is
read whatever the order of its members and the spelling of names and numbers. -/
theorem survives_projection :
    (∀ s : State, s.project.HasLines s ∧ ∀ p : State.Projection, p.HasLines s →
      State.ofProjection p = s ∧ ∀ w : Written, w.Carries p.toJson → State.ofWritten? w = some s) ∧
    (∀ (K : Type) [Quantity K] (u : Usage K), (Usage.ofProjection u.project).Agrees u) ∧
    ∀ (u : Usage Float) (w : Written), w.Carries u.toJson →
      ∃ u', Usage.ofWritten? w = some u' ∧ u'.Agrees u := by
  refine ⟨fun s => ⟨s.hasLines_project, fun p hlines => ⟨hlines.ofProjection, fun w hw => ?_⟩⟩,
    fun K _ u => u.agrees_ofProjection, fun u w hw => ?_⟩
  · rw [State.ofWritten?, State.Projection.ofWritten?_of_carries hw, Option.map_some,
      hlines.ofProjection]
  · refine ⟨_, ?_, u.agrees_ofProjection⟩
    rw [Usage.ofWritten?, Usage.Projection.ofWritten?_of_carries hw, Option.map_some]

/-! ## A state with made-up totals, and counters without them -/

/-- A number with digits before a point, and maybe behind it. -/
def numeral (negative : Bool) (whole : List Char) (fraction : Option (List Char)) : Written :=
  .number ⟨negative, whole, fraction, none⟩

/-- A document with its members in reverse. -/
def reversed (names : List String) (values : List Written) : Written :=
  .object ((names.zip values).reverse.map fun e => (e.1.toList.map .char, e.2))

/-- One line feeds back while another one consumes. -/
def mixed : State := ⟨⟨-4.25, 0, 7⟩, ⟨-980, 0, 1600⟩, ⟨231.5, 0, 229⟩⟩

/-- A document of the state with totals that do not add up. -/
def mixedDocument : Written :=
  reversed State.fieldNames
    [numeral true ['4'] (some ['2', '5']), numeral false ['0'] none, numeral false ['7'] none,
      numeral false ['1'] none, numeral true ['9', '8', '0'] (some ['0']), numeral false ['0'] none,
      numeral false ['1', '6', '0', '0'] none, numeral false ['2'] none,
      numeral false ['2', '3', '1'] (some ['5']), numeral false ['0'] none,
      numeral false ['2', '2', '9'] none, numeral false ['1'] none]

/-- Only one total was set, and it is not the sum of the lines. -/
def partly : Usage Float := ⟨⟨1200.5, 0, 0⟩, ⟨0, 310.25, 0⟩, 1300, 0⟩

def partlyDocument : Written :=
  reversed Usage.fieldNames
    [numeral false ['1', '2', '0', '0'] (some ['5']), numeral false ['0'] none,
      numeral false ['0'] none, numeral false ['1', '3', '0', '0'] none, numeral false ['0'] none,
      numeral false ['3', '1', '0'] (some ['2', '5']), numeral false ['0'] none,
      numeral false ['3', '1', '0'] (some ['2', '5'])]

theorem mixed_and_partly_survive :
    let p := { mixed.project with totalCurrent := 1, totalPower := 2, phases := 1 }
    p.HasLines mixed ∧ mixedDocument.Carries p.toJson ∧ partlyDocument.Carries partly.toJson ∧
      State.ofWritten? mixedDocument = some mixed ∧
      ∃ u', Usage.ofWritten? partlyDocument = some u' ∧ u'.Agrees partly := by
  intro p
  have hlines : p.HasLines mixed := ⟨rfl, rfl, rfl⟩
  have hmixed : mixedDocument.Carries p.toJson :=
    ⟨_, _, List.reverse_perm _, rfl, by decide +kernel⟩
  have hpartly : partlyDocument.Carries partly.toJson :=
    ⟨_, _, List.reverse_perm _, rfl, by decide +kernel⟩
  exact ⟨hlines, hmixed, hpartly, ((survives_projection.1 mixed).2 p hlines).2 mixedDocument hmixed,
    survives_projection.2.2 partly partlyDocument hpartly⟩

end HomeMetering.Electricity
