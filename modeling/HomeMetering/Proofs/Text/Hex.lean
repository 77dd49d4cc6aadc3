import HomeMetering.Text.Hex

/-!
# Words in hexadecimal

A word reads back from the digits it is written in, whatever zeros stand in front of them.
-/

namespace HomeMetering.Text

theorem hexValue?_digitChar {d : Nat} (h : d < 16) : hexValue? d.digitChar.toUpper = some d := by
  revert d
  decide

theorem hexFold?_append (acc : Nat) (a b : List Char) :
    hexFold? acc (a ++ b) = (hexFold? acc a).bind fun n => hexFold? n b := by
  induction a generalizing acc with
  | nil => rfl
  | cons c a ih =>
    rw [List.cons_append, hexFold?, hexFold?]
    cases hexValue? c with
    | none => rfl
    | some d => exact ih _

theorem hexFold?_zeros (k : Nat) (ds : List Char) :
    hexFold? 0 (List.replicate k '0' ++ ds) = hexFold? 0 ds := by
  induction k with
  | zero => rfl
  | succ k ih => exact ih

theorem hexFold?_toDigits (n : Nat) :
    hexFold? 0 ((Nat.toDigits 16 n).map Char.toUpper) = some n := by
  induction n using Nat.strongRecOn with
  | ind n ih =>
    rw [Nat.toDigits_eq_if (by decide)]
    split
    · rename_i hone
      simp [hexFold?, hexValue?_digitChar hone]
    · have hlast : n % 16 < 16 := Nat.mod_lt n (by decide)
      rw [List.map_append, hexFold?_append, ih (n / 16) (by omega)]
      simp [hexFold?, hexValue?_digitChar hlast, Nat.div_add_mod]

theorem exists_of_mem_toDigits {n : Nat} {c : Char} (h : c ∈ Nat.toDigits 16 n) :
    ∃ d < 16, c = d.digitChar := by
  induction n using Nat.strongRecOn with
  | ind n ih =>
    rw [Nat.toDigits_eq_if (by decide)] at h
    split at h
    · rename_i hone
      exact ⟨n, hone, List.mem_singleton.1 h⟩
    · rcases List.mem_append.1 h with h | h
      · exact ih (n / 16) (by omega) h
      · exact ⟨n % 16, Nat.mod_lt n (by decide), List.mem_singleton.1 h⟩

theorem exists_of_mem_hexUpper {width n : Nat} {c : Char} (h : c ∈ hexUpper width n) :
    ∃ d < 16, c = d.digitChar.toUpper := by
  rcases List.mem_append.1 h with h | h
  · exact ⟨0, by decide, (List.mem_replicate.1 h).2⟩
  · obtain ⟨digit, hdigit, rfl⟩ := List.mem_map.1 h
    obtain ⟨d, hd, rfl⟩ := exists_of_mem_toDigits hdigit
    exact ⟨d, hd, rfl⟩

theorem hexUpper_ne_nil (width n : Nat) : hexUpper width n ≠ [] := by
  simp [hexUpper, Nat.toDigits_ne_nil]

theorem hexWord?_hexUpper (width : Nat) {n : Nat} (h : n < 0x10000) :
    hexWord? (hexUpper width n) = some n := by
  have hread : hexFold? 0 (hexUpper width n) = some n :=
    (hexFold?_zeros _ _).trans (hexFold?_toDigits n)
  unfold hexWord?
  split
  · rename_i r hplus
    have hmem : '+' ∈ hexUpper width n := hplus ▸ List.mem_cons_self
    obtain ⟨d, hd, hdigit⟩ := exists_of_mem_hexUpper hmem
    have hno : ∀ d < 16, '+' ≠ d.digitChar.toUpper := by decide
    exact absurd hdigit (hno d hd)
  · simp [hexUpper_ne_nil, hread, Option.filter, h]

end HomeMetering.Text
