import HomeMetering.Json
import HomeMetering.Json.Written
import HomeMetering.Proofs.Lookup
import Mathlib.Data.List.Forall2

/-!
# Records read back

A written record carries one of numbers when it has the same members, in any order and with any
spelling of their names, and its numbers are read as those they stand for. Reading the fields by
name then gives every number back.
-/

namespace HomeMetering.Json

namespace Written

/-- The integer that is written without a sign, a fraction or an exponent. -/
def asNatural? (w : Written) : Option Int :=
  match w.asNumber? with
  | some (.natural n) => some n
  | _ => none

/-- A number is read as the one it stands for. -/
def CarriesNumber (w : Written) : Json → Prop
  | .double x => w.asNumber?.map Number.toDouble = some x
  | .single x => w.asNumber?.map Number.toSingle = some x
  | .int n => w.asNatural? = some n
  | _ => False

instance (w : Written) : (j : Json) → Decidable (w.CarriesNumber j)
  | .double _ => inferInstanceAs (Decidable (_ = _))
  | .single _ => inferInstanceAs (Decidable (_ = _))
  | .int _ => inferInstanceAs (Decidable (_ = _))
  | .null | .bool _ | .str _ | .arr _ | .obj _ => inferInstanceAs (Decidable False)

/-- A member has a name and a number. -/
def CarriesMember (field : String × Json) (m : List StringUnit × Written) : Prop :=
  StringUnit.assemble? m.1 = some field.1.toList ∧ m.2.CarriesNumber field.2

instance (field : String × Json) (m : List StringUnit × Written) :
    Decidable (CarriesMember field m) :=
  inferInstanceAs (Decidable (_ ∧ _))

/-- A record has some members and no others, in any order. -/
def CarriesRecord (w : Written) (fields : List (String × Json)) : Prop :=
  ∃ order ms, order.Perm fields ∧ w = .object ms ∧ List.Forall₂ CarriesMember order ms

/-- A document of a number, or of a record of numbers, is carried exactly. -/
def Carries (w : Written) : Json → Prop
  | .obj fields => w.CarriesRecord fields
  | j => w.CarriesNumber j

/-- Fields that were read hold some members. -/
def Holds (read : List (String × Written)) (fields : List (String × Json)) : Prop :=
  ∀ name j, (name, j) ∈ fields → ∃ x, read.lookup name = some x ∧ x.CarriesNumber j

theorem named?_of_carries {names : List String} {order : List (String × Json)}
    {ms : List (List StringUnit × Written)} (h : List.Forall₂ CarriesMember order ms)
    (hknown : ∀ f ∈ order, f.1 ∈ names) (hnodup : (order.map Prod.fst).Nodup) :
    ∃ read, named? names ms = some read ∧ read.map Prod.fst = order.map Prod.fst ∧
      Holds read order := by
  induction h with
  | nil => exact ⟨[], rfl, rfl, fun _ _ hmem => (List.not_mem_nil hmem).elim⟩
  | @cons field m order ms hfield _ ih =>
    obtain ⟨hname, hvalue⟩ := hfield
    obtain ⟨hknown, hrest⟩ := List.forall_mem_cons.1 hknown
    obtain ⟨hnew, hnodup⟩ := List.nodup_cons.1 hnodup
    obtain ⟨read, hread, hnames, hholds⟩ := ih hrest hnodup
    have honce : read.any (·.1 == field.1) = false := by
      rw [List.any_eq_false]
      intro e he heq
      exact hnew (hnames ▸ List.mem_map.2 ⟨e, he, by simpa using heq⟩)
    refine ⟨(field.1, m.2) :: read, ?_, by rw [List.map_cons, List.map_cons, hnames], ?_⟩
    · obtain ⟨units, x⟩ := m
      simp only at hname
      simp [named?, hname, hread, honce, hknown, String.ofList_toList]
    · intro name j hmem
      rw [lookup_cons]
      rcases List.mem_cons.1 hmem with rfl | hmem
      · exact ⟨m.2, if_pos rfl, hvalue⟩
      · have hne : name ≠ field.1 := by
          rintro rfl
          exact hnew (List.mem_map.2 ⟨_, hmem, rfl⟩)
        rw [if_neg hne]
        exact hholds name j hmem

theorem record?_of_carries {w : Written} {names : List String} {values : List Json}
    (h : w.Carries (.obj (names.zip values))) (hlen : names.length = values.length)
    (hnodup : names.Nodup) :
    ∃ read, w.record? names = some read ∧ Holds read (names.zip values) := by
  obtain ⟨order, ms, horder, rfl, hms⟩ := h
  have hfst : (names.zip values).map Prod.fst = names := List.map_fst_zip (Nat.le_of_eq hlen)
  have hknown : ∀ f ∈ order, f.1 ∈ names := by
    intro f hf
    rw [← hfst]
    exact List.mem_map_of_mem (horder.subset hf)
  obtain ⟨read, hread, -, hholds⟩ := named?_of_carries hms hknown
    ((horder.map Prod.fst).nodup_iff.2 (hfst.symm ▸ hnodup))
  exact ⟨read, hread, fun name j hmem => hholds name j (horder.symm.subset hmem)⟩

section

variable {read : List (String × Written)} {fields : List (String × Json)} (h : Holds read fields)
  {name : String}

include h

theorem Holds.double {x : Float} (hmem : (name, Json.double x) ∈ fields) :
    double? read name = some x := by
  obtain ⟨w, hw, hx⟩ := h name _ hmem
  rw [double?, hw]
  exact hx

theorem Holds.single {x : Float32} (hmem : (name, Json.single x) ∈ fields) :
    single? read name = some x := by
  obtain ⟨w, hw, hx⟩ := h name _ hmem
  rw [single?, hw]
  exact hx

theorem Holds.natural {k : Nat} (hmem : (name, Json.int k) ∈ fields) :
    natural? read name = some k := by
  obtain ⟨w, hw, hcarried⟩ := h name _ hmem
  have hk : w.asNatural? = some (k : Int) := hcarried
  unfold asNatural? at hk
  split at hk
  · next n hn =>
    obtain rfl := Int.ofNat.inj (Option.some.inj hk)
    simp [natural?, hw, hn]
  · cases hk

end

end Written

end HomeMetering.Json
