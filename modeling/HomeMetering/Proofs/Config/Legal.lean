import HomeMetering.Config.Basic
import HomeMetering.Proofs.Modbus.Addresses
import Mathlib.Data.List.Flatten
import Mathlib.Data.List.Nodup

/-!
# Legal configurations

What a configuration must be like to be accepted, said without an order of checks: a source has a
name of its own, a slot can hold a meter, and no two slots of a source claim one cell. The checks,
which stop at the first fault, find none in exactly these configurations.
-/

namespace HomeMetering

/-- A slot that can hold a meter in a source of a role. -/
structure SlotConfig.IsLegal (s : SlotConfig) (role : Role) : Prop where
  nodup_lines : s.lines.Nodup
  lines_lt : ∀ line ∈ s.lines, line < 3
  lines_ne : role ≠ .battery → s.lines ≠ []
  attributes_ne : s.attributes ≠ []
  interval_ne : s.interval ≠ 0
  address : Modbus.ConnectUrl.IsAddress s.connect
  transport :
    (s.transport = .modbus ∧ (1 ≤ s.unit ∧ s.unit ≤ 247) ∧ s.brand ≠ some .dsmr) ∨
      (s.transport = .serial ∧ Modbus.ConnectUrl.NamesDevice s.connect ∧
        (s.brand = some .dsmr ∨ s.brand = none))

structure SourceConfig.IsLegal (s : SourceConfig) : Prop where
  slots : ∀ slot ∈ s.meters, slot.IsLegal s.role
  nodup_claims : s.role ≠ .battery → (s.meters.flatMap SlotConfig.claims).Nodup

structure Config.IsLegal (c : Config) : Prop where
  nodup_names : (c.sources.map SourceConfig.name).Nodup
  sources : ∀ s ∈ c.sources, s.IsLegal

/-! ## Loops that remember what they saw -/

theorem firstRepeated?_eq_none {α : Type} [DecidableEq α] {seen l : List α} :
    firstRepeated? seen l = none ↔ l.Nodup ∧ ∀ a ∈ l, a ∉ seen := by
  -- What was seen grows as the list is walked, so it stays general.
  induction l generalizing seen with
  | nil => simp [firstRepeated?]
  | cons a rest ih =>
    unfold firstRepeated?
    by_cases ha : a ∈ seen
    · simp [ha]
    · rw [if_neg ha, ih, List.nodup_cons]
      constructor
      · rintro ⟨hrest, hseen⟩
        refine ⟨⟨fun hmem => hseen a hmem List.mem_cons_self, hrest⟩, ?_⟩
        intro b hb
        rcases List.mem_cons.1 hb with rfl | hb
        · exact ha
        · exact fun hmem => hseen b hb (List.mem_cons_of_mem _ hmem)
      · rintro ⟨⟨hnot, hrest⟩, hseen⟩
        refine ⟨hrest, fun b hb hmem => ?_⟩
        rcases List.mem_cons.1 hmem with rfl | hmem
        · exact hnot hb
        · exact hseen b (List.mem_cons_of_mem _ hb) hmem

theorem firstRepeated?_nil_eq_none {α : Type} [DecidableEq α] {l : List α} :
    firstRepeated? [] l = none ↔ l.Nodup := by
  simp [firstRepeated?_eq_none]

theorem firstRepeated?_append {α : Type} [DecidableEq α] {seen l l' : List α} :
    firstRepeated? seen (l ++ l') = none ↔
      firstRepeated? seen l = none ∧ firstRepeated? (l ++ seen) l' = none := by
  simp only [firstRepeated?_eq_none, List.nodup_append', List.mem_append, List.Disjoint]
  grind

namespace SlotConfig

theorem lineFault?_eq_none {seen lines : List LineIndex} :
    lineFault? seen lines = none ↔
      (∀ line ∈ lines, line < 3) ∧ firstRepeated? seen lines = none := by
  induction lines generalizing seen with
  | nil => simp [lineFault?, firstRepeated?]
  | cons line lines ih =>
    unfold lineFault? firstRepeated?
    by_cases hrange : lineCount ≤ line
    · have hnot : ¬ line < 3 := Nat.not_lt.2 hrange
      simp [hrange, hnot]
    · have hlt : line < 3 := Nat.not_le.1 hrange
      by_cases hseen : line ∈ seen
      · simp [hrange, hseen]
      · simp [hrange, hseen, hlt, ih]

theorem transportFault?_eq_none {s : SlotConfig} {url : Modbus.ConnectUrl} :
    s.transportFault? url = none ↔
      (s.transport = .modbus ∧ (1 ≤ s.unit ∧ s.unit ≤ 247) ∧ s.brand ≠ some .dsmr) ∨
        (s.transport = .serial ∧ url.isSerial = true ∧
          (s.brand = some .dsmr ∨ s.brand = none)) := by
  unfold transportFault?
  cases s.transport with
  | modbus =>
    by_cases hunit : 1 ≤ s.unit ∧ s.unit ≤ 247
    · have hnot : ¬ (s.unit < 1 ∨ 247 < s.unit) := by omega
      simp only [if_neg hnot]
      simp [hunit]
    · have hout : s.unit < 1 ∨ 247 < s.unit := by omega
      simp only [if_pos hout]
      simp [hunit]
  | serial => cases url.isSerial <;> cases s.brand <;> simp

theorem fault?_eq_none {s : SlotConfig} {role : Role} : s.fault? role = none ↔ s.IsLegal role := by
  constructor
  · intro h
    unfold fault? at h
    split at h
    · cases h
    · rename_i hlines
      obtain ⟨hlt, hnodup⟩ := lineFault?_eq_none.1 hlines
      split_ifs at h with hempty hattributes hinterval
      split at h
      · cases h
      · rename_i url hurl
        have htransport := transportFault?_eq_none.1 h
        rw [Modbus.ConnectUrl.isSerial_iff hurl] at htransport
        exact {
          nodup_lines := firstRepeated?_nil_eq_none.1 hnodup
          lines_lt := hlt
          lines_ne := fun hrole hnil => hempty ⟨List.isEmpty_iff.2 hnil, hrole⟩
          attributes_ne := fun hnil => hattributes (List.isEmpty_iff.2 hnil)
          interval_ne := hinterval
          address := Modbus.ConnectUrl.isAddress_of_parse hurl
          transport := htransport }
  · intro h
    have hlines : lineFault? [] s.lines = none :=
      lineFault?_eq_none.2 ⟨h.lines_lt,
        firstRepeated?_nil_eq_none.2 h.nodup_lines⟩
    have hempty : ¬ (s.lines.isEmpty = true ∧ role ≠ .battery) := fun hnone =>
      h.lines_ne hnone.2 (List.isEmpty_iff.1 hnone.1)
    have hattributes : ¬ s.attributes.isEmpty = true := fun hnone =>
      h.attributes_ne (List.isEmpty_iff.1 hnone)
    obtain ⟨url, hurl⟩ := Modbus.ConnectUrl.parse_of_isAddress h.address
    have htransport := h.transport
    rw [← Modbus.ConnectUrl.isSerial_iff hurl] at htransport
    simp only [fault?, hlines, if_neg hempty, if_neg hattributes, if_neg h.interval_ne, hurl]
    exact transportFault?_eq_none.2 htransport

end SlotConfig

namespace SourceConfig

theorem slotsFault?_eq_none {s : SourceConfig} {claimed : List (Attribute × LineIndex)}
    {slots : List SlotConfig} :
    s.slotsFault? claimed slots = none ↔
      (∀ slot ∈ slots, slot.IsLegal s.role) ∧
        (s.role ≠ .battery → firstRepeated? claimed (slots.flatMap SlotConfig.claims) = none) := by
  induction slots generalizing claimed with
  | nil => simp [slotsFault?, firstRepeated?]
  | cons slot rest ih =>
    unfold slotsFault?
    rw [List.forall_mem_cons, List.flatMap_cons, firstRepeated?_append,
      ← SlotConfig.fault?_eq_none]
    cases slot.fault? s.role with
    | some fault => simp
    | none =>
      by_cases hrole : s.role = .battery
      · simp [hrole, ih]
      · cases firstRepeated? claimed slot.claims with
        | some x => simp [hrole]
        | none => simp [hrole, ih]

theorem fault?_eq_none {s : SourceConfig} : s.fault? = none ↔ s.IsLegal := by
  rw [fault?, slotsFault?_eq_none, firstRepeated?_nil_eq_none]
  exact ⟨fun ⟨hslots, hclaims⟩ => ⟨hslots, hclaims⟩, fun h => ⟨h.slots, h.nodup_claims⟩⟩

end SourceConfig

namespace Config

theorem sourcesFault?_eq_none {names : List String} {sources : List SourceConfig} :
    sourcesFault? names sources = none ↔
      firstRepeated? names (sources.map SourceConfig.name) = none ∧ ∀ s ∈ sources, s.IsLegal := by
  induction sources generalizing names with
  | nil => simp [sourcesFault?, firstRepeated?]
  | cons s rest ih =>
    unfold sourcesFault?
    rw [List.forall_mem_cons, List.map_cons, firstRepeated?, ← SourceConfig.fault?_eq_none]
    by_cases hname : s.name ∈ names
    · simp [hname]
    · cases s.fault? with
      | some fault => simp [hname]
      | none => simp [hname, ih]

/-- Exactly the legal configurations are accepted. -/
theorem validate_eq_ok_iff (c : Config) : c.validate = .ok () ↔ c.IsLegal := by
  have hnone : c.validate = .ok () ↔ sourcesFault? [] c.sources = none := by
    unfold validate
    cases sourcesFault? [] c.sources <;> simp
  rw [hnone, sourcesFault?_eq_none, firstRepeated?_nil_eq_none]
  exact ⟨fun ⟨hnames, hsources⟩ => ⟨hnames, hsources⟩, fun h => ⟨h.nodup_names, h.sources⟩⟩

end Config

end HomeMetering
