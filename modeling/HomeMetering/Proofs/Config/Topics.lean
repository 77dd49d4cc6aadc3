import HomeMetering.Proofs.Config.Legal
import Mathlib.Data.List.Forall2

/-!
# Topics of sources

No level of a topic holds a separator, so a topic says the level of its source and its kind of
events. A level does not say its source: reserved characters all become the same one. Sources of a
legal configuration have names of their own, and share topics exactly where two of these names
differ in nothing but such characters.
-/

namespace HomeMetering

open Mqtt

namespace Mqtt

/-! ## Levels -/

/-- Reserved characters, and the one that takes their place. -/
def isBlurred (c : Char) : Bool := isReserved c || c == '_'

/-- Names of one length, with the same character at every place, or two that look alike in a
topic. -/
def LooksLike (s s' : String) : Prop :=
  List.Forall₂ (fun c c' => c = c' ∨ isBlurred c ∧ isBlurred c') s.toList s'.toList

theorem written_eq_mark_iff (c : Char) :
    (if isReserved c then '_' else c) = '_' ↔ isBlurred c = true := by
  unfold isBlurred
  cases isReserved c <;> simp

theorem written_eq_written_iff (c c' : Char) :
    (if isReserved c then '_' else c) = (if isReserved c' then '_' else c') ↔
      c = c' ∨ isBlurred c ∧ isBlurred c' := by
  rw [← written_eq_mark_iff, ← written_eq_mark_iff]
  split_ifs <;> grind

theorem level_eq_level_iff (s s' : String) : level s = level s' ↔ LooksLike s s' := by
  unfold level LooksLike
  rw [← String.toList_inj, String.toList_map, String.toList_map, ← List.forall₂_eq_eq_eq,
    List.forall₂_map_left_iff, List.forall₂_map_right_iff]
  simp only [written_eq_written_iff]

theorem separator_not_mem_level (s : String) : '/' ∉ (level s).toList := by
  unfold level
  rw [String.toList_map, List.mem_map]
  rintro ⟨c, -, hc⟩
  split_ifs at hc with hreserved
  · exact absurd hc (by decide)
  · exact hreserved (hc ▸ rfl)

/-! ## Topics -/

theorem separator_not_mem_name (k : Family) : '/' ∉ k.name.toList := by
  cases k <;> decide

theorem name_injective {k k' : Family} (h : k.name = k'.name) : k = k' := by
  revert h
  cases k <;> cases k' <;> decide

theorem topic_eq_topic_iff (root s s' : String) (k k' : Family) :
    topic root s k.name = topic root s' k'.name ↔ level s = level s' ∧ k = k' := by
  constructor
  · intro h
    have hchars := congrArg String.toList h
    simp only [topic, String.toList_append, List.append_assoc, List.append_cancel_left_eq] at hchars
    obtain ⟨hlevel, -, hname⟩ := (List.append_cons_inj_of_notMem (separator_not_mem_level s)
      (separator_not_mem_name k)).1 hchars
    exact ⟨String.toList_inj.1 hlevel, name_injective (String.toList_inj.1 hname)⟩
  · rintro ⟨hlevel, rfl⟩
    unfold topic
    rw [hlevel]

end Mqtt

/-- In a configuration that is accepted, topics of two sources or kinds are the same exactly when
they are of one kind and of two names that look alike. -/
theorem Config.topics_shared_iff {c : Config} (h : c.validate = .ok ()) (root : String)
    {s s' : SourceConfig} (hs : s ∈ c.sources) (hs' : s' ∈ c.sources) {k k' : Family}
    (hne : (s, k) ≠ (s', k')) :
    topic root s.name k.name = topic root s'.name k'.name ↔
      k = k' ∧ s.name ≠ s'.name ∧ LooksLike s.name s'.name := by
  have hnames := ((validate_eq_ok_iff c).1 h).nodup_names
  rw [topic_eq_topic_iff, level_eq_level_iff]
  constructor
  · rintro ⟨hlike, rfl⟩
    refine ⟨rfl, fun hname => hne ?_, hlike⟩
    rw [List.inj_on_of_nodup_map hnames hs hs' hname]
  · rintro ⟨rfl, -, hlike⟩
    exact ⟨hlike, rfl⟩

/-- A source with one meter on a bus of its own. -/
def roof (name bus : String) : SourceConfig :=
  ⟨name, .pv, .always, false, [⟨bus, .modbus, some .abb, 1, 0, [0, 1, 2], [.state, .usage], 1000⟩]⟩

/-- Two roofs, one of them named with a separator. -/
def roofs : Config :=
  ⟨1000, [roof "pv/roof" "tcp://10.0.0.7", roof "pv_roof" "tcp://10.0.0.8"], none, none⟩

theorem roofs_topics :
    let s := roof "pv/roof" "tcp://10.0.0.7"
    let s' := roof "pv_roof" "tcp://10.0.0.8"
    roofs.validate = .ok () ∧ s ∈ roofs.sources ∧ s' ∈ roofs.sources ∧
      (s, Family.electricity) ≠ (s', Family.electricity) ∧
      (topic "home/" s.name Family.electricity.name =
          topic "home/" s'.name Family.electricity.name ↔
        Family.electricity = Family.electricity ∧ s.name ≠ s'.name ∧ LooksLike s.name s'.name) := by
  intro s s'
  have hok : roofs.validate = .ok () := by decide +kernel
  have hs : s ∈ roofs.sources := by decide
  have hs' : s' ∈ roofs.sources := by decide
  have hne : (s, Family.electricity) ≠ (s', Family.electricity) := by decide
  exact ⟨hok, hs, hs', hne, Config.topics_shared_iff hok "home/" hs hs' hne⟩

theorem roofs_share_topic :
    roofs.validate = .ok () ∧ ∃ s ∈ roofs.sources, ∃ s' ∈ roofs.sources, s.name ≠ s'.name ∧
      topic "home/" s.name Family.electricity.name =
        topic "home/" s'.name Family.electricity.name := by
  have hlike : LooksLike "pv/roof" "pv_roof" := by
    simp [LooksLike, isBlurred, isReserved]
  refine ⟨by decide +kernel, roof "pv/roof" "tcp://10.0.0.7", by decide,
    roof "pv_roof" "tcp://10.0.0.8", by decide, by decide, ?_⟩
  exact (topic_eq_topic_iff ..).2 ⟨(level_eq_level_iff ..).2 hlike, rfl⟩

end HomeMetering
