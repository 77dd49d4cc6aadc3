/-!
# Lines and pieces of a text
-/

namespace HomeMetering.Text

/-- The lines of a text: each ends at a line feed or at the end, a carriage return before the line
feed belongs to the ending, and the end of the text starts no further line. -/
def lines : List Char → List (List Char)
  | [] => []
  | '\n' :: r => [] :: lines r
  | '\r' :: '\n' :: r => [] :: lines r
  | c :: r =>
    match lines r with
    | [] => [[c]]
    | line :: rest => (c :: line) :: rest

theorem lines_cons (c : Char) (r : List Char) (hc : c ≠ '\n')
    (hr : c = '\r' → r.head? ≠ some '\n') :
    lines (c :: r) = (c :: (lines r).headD []) :: (lines r).tail := by
  rw [lines.eq_4]
  · cases lines r <;> rfl
  · exact hc
  · rintro r' rfl rfl
    exact hr rfl rfl

theorem headD_lines (l rest : List Char) (h : '\n' ∉ l) (hr : ∀ c ∈ rest.head?, c = '\n') :
    ∃ e, l = (lines (l ++ rest)).headD [] ++ e ∧ ∀ c ∈ e, c = '\r' := by
  induction l with
  | nil =>
    match rest, hr with
    | [], _ => exact ⟨[], by simp [lines], by simp⟩
    | c :: r, hr =>
      obtain rfl : c = '\n' := hr c rfl
      exact ⟨[], by simp [lines], by simp⟩
  | cons c l ih =>
    obtain ⟨hc, hl⟩ := List.ne_and_not_mem_of_not_mem_cons h
    obtain ⟨e, he, hblank⟩ := ih hl
    by_cases hcr : c = '\r' ∧ (l ++ rest).head? = some '\n'
    · -- The line feed is no part of the line, so the carriage return is its last character.
      obtain ⟨rfl, hhead⟩ := hcr
      match l, hl, hhead with
      | [], _, hhead =>
        obtain ⟨r, rfl⟩ := List.head?_eq_some_iff.1 hhead
        exact ⟨['\r'], by simp [lines], by simp⟩
      | d :: l, hl, hhead =>
        obtain rfl : d = '\n' := Option.some.inj hhead
        exact absurd List.mem_cons_self hl
    · refine ⟨e, ?_, hblank⟩
      rw [List.cons_append, lines_cons c _ (Ne.symm hc) (by simpa using hcr)]
      simpa using he

theorem lines_line (l rest : List Char) (h : '\n' ∉ l) :
    lines (l ++ '\r' :: '\n' :: rest) = l :: lines rest := by
  induction l with
  | nil => simp [lines]
  | cons c l ih =>
    obtain ⟨hc, hl⟩ := List.ne_and_not_mem_of_not_mem_cons h
    have hnext : (l ++ '\r' :: '\n' :: rest).head? ≠ some '\n' := by
      cases l with
      | nil => simp
      | cons d l => simpa using (List.ne_and_not_mem_of_not_mem_cons hl).1.symm
    rw [List.cons_append, lines_cons c _ hc.symm fun _ => hnext, ih hl]
    rfl

/-- The text before the first `c`, and what follows it. -/
def splitOnce? (c : Char) (cs : List Char) : Option (List Char × List Char) :=
  match cs.span (· != c) with
  | (_, []) => none
  | (before, _ :: after) => some (before, after)

/-- What follows `front`, when the text starts with it. -/
def dropFront? (front cs : List Char) : Option (List Char) :=
  match front, cs with
  | [], cs => some cs
  | a :: f, c :: r => if a = c then dropFront? f r else none
  | _ :: _, [] => none

/-- What follows `front`, when the text starts with it. -/
def dropPrefix? (front text : String) : Option String :=
  (dropFront? front.toList text.toList).map String.ofList

end HomeMetering.Text
