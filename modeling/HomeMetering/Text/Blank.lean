/-!
# Blank characters

White space in the sense of the Unicode property `White_Space`, and the text between two runs of it.
-/

namespace HomeMetering.Text

/-- The characters with the property `White_Space`. -/
def isBlank (c : Char) : Bool :=
  let n := c.toNat
  (9 ≤ n && n ≤ 13) || n = 0x20 || n = 0x85 || n = 0xA0 || n = 0x1680 ||
    (0x2000 ≤ n && n ≤ 0x200A) || n = 0x2028 || n = 0x2029 || n = 0x202F || n = 0x205F ||
    n = 0x3000

/-- The text without the blanks it ends in. -/
def trimEnd (cs : List Char) : List Char := (cs.reverse.dropWhile isBlank).reverse

/-- The text without the blanks around it. -/
def trim (cs : List Char) : List Char := trimEnd (cs.dropWhile isBlank)

theorem trim_eq_self {l : List Char} (hfirst : ∀ c ∈ l.head?, isBlank c = false)
    (hlast : ∀ c ∈ l.getLast?, isBlank c = false) : trim l = l := by
  have hkeep : ∀ l : List Char, (∀ c ∈ l.head?, isBlank c = false) → l.dropWhile isBlank = l := by
    intro l h
    cases l with
    | nil => rfl
    | cons c l => exact List.dropWhile_cons_of_neg (by simp [h c rfl])
  have hreverse : l.reverse.dropWhile isBlank = l.reverse :=
    hkeep _ (by rwa [List.head?_reverse])
  unfold trim trimEnd
  rw [hkeep l hfirst, hreverse, List.reverse_reverse]

theorem trimEnd_append_blanks (l e : List Char) (h : ∀ c ∈ e, isBlank c = true) :
    trimEnd (l ++ e) = trimEnd l := by
  unfold trimEnd
  rw [List.reverse_append, List.dropWhile_append_of_pos]
  simpa using h

theorem trim_append_blanks (l e : List Char) (h : ∀ c ∈ e, isBlank c = true) :
    trim (l ++ e) = trim l := by
  unfold trim
  rw [List.dropWhile_append]
  split
  · rename_i hl
    have he : (e ++ []).dropWhile isBlank = [] := List.dropWhile_append_of_pos h
    rw [List.append_nil] at he
    rw [he, List.isEmpty_iff.1 hl]
  · exact trimEnd_append_blanks _ _ h

end HomeMetering.Text
