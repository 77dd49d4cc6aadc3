import HomeMetering.Telegram.Reader
import Mathlib.Data.List.TakeDrop
import Mathlib.Data.List.TakeWhile

/-!
# When a checksum is enforced

A reader closes a telegram at the first line that starts with an exclamation mark, and what it hands
on is a body and a trailer. The checksum that counts stands behind the first mark of the text,
wherever that is: a mark inside the body takes the place of the trailer's.
-/

namespace HomeMetering.Telegram

/-! ## Bodies and trailers -/

/-- What stands before a trailer: a header line, and lines that are neither header nor trailer. -/
structure Body where
  /-- The header line after its slash. -/
  header : List Char
  inner : List (List Char)
  header_line : '\n' ∉ header
  inner_line : ∀ l ∈ inner, '\n' ∉ l ∧ l.head? ≠ some '/' ∧ l.head? ≠ some '!'

/-- A trailer line; at the end of a stream it may lack its line feed. -/
structure Trailer where
  /-- What follows the mark. -/
  rest : List Char
  isEnded : Bool
  rest_line : '\n' ∉ rest

def Trailer.ending (t : Trailer) : List Char := if t.isEnded then ['\n'] else []

/-- The checksum field of a trailer. -/
def Trailer.field (t : Trailer) : List Char := Text.trim t.rest

namespace Body

def text (b : Body) : List Char := '/' :: b.header ++ '\n' :: b.inner.flatMap (· ++ ['\n'])

/-- A body with its trailer. -/
def closedBy (b : Body) (t : Trailer) : List Char := b.text ++ '!' :: (t.rest ++ t.ending)

theorem head_text (b : Body) : b.text.head? = some '/' := rfl

theorem getLast_lines (ls : List (List Char)) :
    ('\n' :: ls.flatMap (· ++ ['\n'])).getLast? = some '\n' := by
  induction ls with
  | nil => rfl
  | cons l ls ih =>
    rw [List.flatMap_cons, List.append_assoc, ← List.cons_append, List.getLast?_append]
    simp [ih]

theorem getLast_text (b : Body) : b.text.getLast? = some '\n' := by
  rw [text, List.getLast?_append, getLast_lines]
  rfl

def addLine (b : Body) (l : List Char) (h : '\n' ∉ l ∧ l.head? ≠ some '/' ∧ l.head? ≠ some '!') :
    Body :=
  { b with
    inner := b.inner ++ [l]
    inner_line := by
      intro l' hl'
      rcases List.mem_append.1 hl' with hl' | hl'
      · exact b.inner_line l' hl'
      · rwa [List.mem_singleton.1 hl'] }

theorem text_addLine (b : Body) (l : List Char)
    (h : '\n' ∉ l ∧ l.head? ≠ some '/' ∧ l.head? ≠ some '!') :
    (b.addLine l h).text = b.text ++ (l ++ ['\n']) := by
  simp [text, addLine, List.flatMap_append]

end Body

/-! ## What a reader hands on -/

/-- What a reader has collected between two lines: nothing, or a body. -/
def Collected (text : List Char) : Prop := text = [] ∨ ∃ b : Body, text = b.text

theorem takeText_of_header (collected line : List Char) (h : line.head? = some '/') :
    Reader.takeText collected line =
      if Reader.maxTelegram < Text.Utf8.size line then ([], none) else (line, none) := by
  simp [Reader.takeText, Reader.startsWith, h]

theorem takeText_of_trailer (b : Body) (line : List Char) (h : line.head? = some '!') :
    Reader.takeText b.text line = ([], some (parse (b.text ++ line))) := by
  simp [Reader.takeText, Reader.startsWith, h, Body.text]

theorem takeText_of_inner (b : Body) (line : List Char) (h : line.head? ≠ some '/')
    (h' : line.head? ≠ some '!') :
    Reader.takeText b.text line =
      if Reader.maxTelegram < Text.Utf8.size (b.text ++ line) then ([], none)
      else (b.text ++ line, none) := by
  simp [Reader.takeText, Reader.startsWith, h, h', Body.text]

theorem takeText_of_idle (line : List Char) (h : line.head? ≠ some '/') :
    Reader.takeText [] line = ([], none) := by
  simp [Reader.takeText, Reader.startsWith, h]

theorem head_append_newline (l : List Char) (c : Char) (hc : c ≠ '\n') :
    (l ++ ['\n']).head? = some c ↔ l.head? = some c := by
  cases l with
  | nil => simp [Ne.symm hc]
  | cons d l => rfl

theorem collected_takeText (collected l : List Char) (hc : Collected collected) (hl : '\n' ∉ l) :
    Collected (Reader.takeText collected (l ++ ['\n'])).1 := by
  have hnothing : Collected [] := Or.inl rfl
  by_cases hslash : l.head? = some '/'
  · obtain ⟨r, rfl⟩ := List.head?_eq_some_iff.1 hslash
    have hr : '\n' ∉ r := fun hmem => hl (List.mem_cons_of_mem _ hmem)
    rw [takeText_of_header _ _ rfl]
    split
    · exact hnothing
    · exact Or.inr ⟨⟨r, [], hr, by simp⟩, rfl⟩
  -- Anything but a header only counts after one.
  have hline : (l ++ ['\n']).head? ≠ some '/' := by rwa [Ne, head_append_newline _ _ (by decide)]
  rcases hc with rfl | ⟨b, rfl⟩
  · rw [takeText_of_idle _ hline]
    exact hnothing
  by_cases hmark : l.head? = some '!'
  · rw [takeText_of_trailer b _ ((head_append_newline _ _ (by decide)).2 hmark)]
    exact hnothing
  · rw [takeText_of_inner b _ hline (by rwa [Ne, head_append_newline _ _ (by decide)])]
    split
    · exact hnothing
    · exact Or.inr ⟨b.addLine l ⟨hl, hslash, hmark⟩, (b.text_addLine l _).symm⟩

/-- What a reader hands on is a body with its trailer. -/
theorem closedBy_of_takeText {collected l : List Char} {isEnded : Bool}
    {r : Except TelegramError Telegram} (hc : Collected collected) (hl : '\n' ∉ l)
    (h : (Reader.takeText collected (l ++ if isEnded then ['\n'] else [])).2 = some r) :
    ∃ (b : Body) (t : Trailer), r = parse (b.closedBy t) := by
  generalize hline : (l ++ if isEnded then ['\n'] else []) = line at h
  by_cases hslash : line.head? = some '/'
  · rw [takeText_of_header _ _ hslash] at h
    split at h <;> cases h
  rcases hc with rfl | ⟨b, rfl⟩
  · rw [takeText_of_idle _ hslash] at h
    cases h
  by_cases hmark : line.head? = some '!'
  · rw [takeText_of_trailer b _ hmark] at h
    obtain ⟨rest, rfl⟩ : ∃ rest, l = '!' :: rest := by
      rw [← hline] at hmark
      cases l with
      | nil => cases isEnded <;> simp at hmark
      | cons c rest => exact ⟨rest, by rw [Option.some.inj hmark]⟩
    refine ⟨b, ⟨rest, isEnded, fun hmem => hl (List.mem_cons_of_mem _ hmem)⟩, ?_⟩
    rw [← Option.some.inj h, ← hline]
    rfl
  · rw [takeText_of_inner b _ hslash hmark] at h
    split at h <;> cases h

/-! ## The mark that counts -/

def checkOf (covered : List Char) : Nat := (Checksum.arc (Text.Utf8.encode covered)).toNat

/-- A field says nothing, or it says the check of what it covers. -/
def Vouches (field covered : List Char) : Prop :=
  field = [] ∨ Text.hexWord? field = some (checkOf covered)

theorem checkTrailer_eq_ok_iff (field covered : List Char) :
    checkTrailer field covered = .ok () ↔ Vouches field covered := by
  unfold checkTrailer Vouches checkOf
  cases field with
  | nil => simp
  | cons c r =>
    cases Text.hexWord? (c :: r) with
    | none => simp
    | some n => by_cases hn : n = (Checksum.arc (Text.Utf8.encode covered)).toNat <;> simp [hn]

theorem trim_headD_lines (l rest : List Char) (hl : '\n' ∉ l) (hr : ∀ c ∈ rest.head?, c = '\n') :
    Text.trim ((Text.lines (l ++ rest)).headD []) = Text.trim l := by
  obtain ⟨e, he, hcr⟩ := Text.headD_lines l rest hl hr
  have hblank : ∀ c ∈ e, Text.isBlank c = true := by
    intro c hc
    rw [hcr c hc]
    decide
  conv_rhs => rw [he]
  exact (Text.trim_append_blanks _ _ hblank).symm

theorem span_mark (before after : List Char) (h : '!' ∉ before) :
    (before ++ '!' :: after).span (· != '!') = (before, '!' :: after) := by
  have hpos : ∀ c ∈ before, (c != '!') = true := by
    intro c hc
    rw [bne_iff_ne]
    rintro rfl
    exact h hc
  rw [List.span_eq_takeWhile_dropWhile, List.takeWhile_append_of_pos hpos,
    List.dropWhile_append_of_pos hpos]
  simp

/-- A text is accepted when what follows its first mark vouches for what precedes it. -/
theorem parse_eq_ok_iff {before l rest : List Char} (hstart : before.head? = some '/')
    (hmark : '!' ∉ before) (hl : '\n' ∉ l) (hr : ∀ c ∈ rest.head?, c = '\n') :
    (∃ m, parse (before ++ '!' :: (l ++ rest)) = .ok m) ↔
      Vouches (Text.trim l) (before ++ ['!']) := by
  have hhead : (before ++ '!' :: (l ++ rest)).head? = some '/' := by
    rw [List.head?_append, hstart]
    rfl
  rw [parse_of_span hhead (span_mark before _ hmark), trim_headD_lines l rest hl hr,
    ← checkTrailer_eq_ok_iff]
  cases checkTrailer (Text.trim l) (before ++ ['!']) <;> simp [Except.map]

namespace Body

/-- What precedes the first mark of a body. -/
def beforeMark (b : Body) : List Char := (b.text.span (· != '!')).1

/-- What follows the first mark of a body. -/
def afterMark (b : Body) : List Char := (b.text.span (· != '!')).2.drop 1

/-- The rest of the line of the first mark of a body. -/
def strayField (b : Body) : List Char := Text.trim (b.afterMark.takeWhile (· != '\n'))

/-- A body holds a mark, and what follows it on its line vouches for what precedes it. -/
def HasStray (b : Body) : Prop := '!' ∈ b.text ∧ Vouches b.strayField (b.beforeMark ++ ['!'])

theorem text_of_mark (b : Body) (h : '!' ∈ b.text) :
    '!' ∉ b.beforeMark ∧ b.text = b.beforeMark ++ '!' :: b.afterMark := by
  obtain ⟨before, after, htext, hmark⟩ := List.eq_append_cons_of_mem h
  have hspan := span_mark before after hmark
  rw [← htext] at hspan
  unfold beforeMark afterMark
  rw [hspan]
  exact ⟨hmark, htext⟩

theorem head_beforeMark (b : Body) (h : '!' ∈ b.text) : b.beforeMark.head? = some '/' := by
  have htext := (b.text_of_mark h).2
  cases hb : b.beforeMark with
  | nil =>
    have hslash := b.head_text
    rw [htext, hb] at hslash
    simp at hslash
  | cons c r =>
    have hslash := b.head_text
    rw [htext, hb] at hslash
    exact hslash

theorem newline_mem_afterMark (b : Body) (h : '!' ∈ b.text) : '\n' ∈ b.afterMark := by
  have hlast := b.getLast_text
  rw [(b.text_of_mark h).2, List.getLast?_append, List.getLast?_cons] at hlast
  cases hafter : b.afterMark.getLast? with
  | none =>
    rw [hafter] at hlast
    simp at hlast
  | some c =>
    rw [hafter] at hlast
    obtain rfl : c = '\n' := by simpa using hlast
    exact List.mem_of_getLast? hafter

theorem head_afterMark (b : Body) (h : '!' ∈ b.text) (more : List Char) :
    ∀ c ∈ (b.afterMark.dropWhile (· != '\n') ++ more).head?, c = '\n' := by
  have hne : b.afterMark.dropWhile (· != '\n') ≠ [] := by
    intro hnil
    simpa using List.dropWhile_eq_nil_iff.1 hnil '\n' (b.newline_mem_afterMark h)
  obtain ⟨d, r, hd⟩ := List.exists_cons_of_ne_nil hne
  have hnot := List.head?_dropWhile_not (· != '\n') b.afterMark
  rw [hd] at hnot ⊢
  intro c hc
  obtain rfl : d = c := Option.some.inj hc
  simpa using hnot

theorem parse_closedBy_of_mark (b : Body) (t : Trailer) (h : '!' ∈ b.text) :
    (∃ m, parse (b.closedBy t) = .ok m) ↔ Vouches b.strayField (b.beforeMark ++ ['!']) := by
  -- The line of the mark ends inside the body, so the trailer is not looked at.
  have htext : b.closedBy t = b.beforeMark ++ '!' :: (b.afterMark.takeWhile (· != '\n') ++
      (b.afterMark.dropWhile (· != '\n') ++ '!' :: (t.rest ++ t.ending))) := by
    rw [← List.append_assoc (b.afterMark.takeWhile _), List.takeWhile_append_dropWhile,
      ← List.cons_append, ← List.append_assoc, ← (b.text_of_mark h).2]
    rfl
  have hline : '\n' ∉ b.afterMark.takeWhile (· != '\n') := by
    intro hmem
    simpa using List.mem_takeWhile_imp hmem
  rw [htext]
  exact parse_eq_ok_iff (b.head_beforeMark h) (b.text_of_mark h).1 hline (b.head_afterMark h _)

theorem parse_closedBy_of_no_mark (b : Body) (t : Trailer) (h : '!' ∉ b.text) :
    (∃ m, parse (b.closedBy t) = .ok m) ↔ Vouches t.field (b.text ++ ['!']) := by
  apply parse_eq_ok_iff b.head_text h t.rest_line
  unfold Trailer.ending
  cases t.isEnded <;> simp

/-- A checksum that a trailer carries is that of every text that is accepted with it. -/
def EnforcesChecksum (b : Body) : Prop :=
  ∀ (t : Trailer) (m : Telegram), t.field ≠ [] → parse (b.closedBy t) = .ok m →
    Text.hexWord? t.field = some (checkOf (b.text ++ ['!']))

/-- A trailer with a field that is no number. -/
def unreadable : Trailer := ⟨['?'], true, by decide⟩

/-- A checksum is enforced unless the body holds a mark that passes for that of the trailer: one
with blanks behind it, or with the check of what precedes it. Then any trailer will do. -/
theorem enforcesChecksum_iff (b : Body) :
    (b.EnforcesChecksum ↔ ¬ b.HasStray) ∧
      ∀ t : Trailer, (∃ m, parse (b.closedBy t) = .ok m) ↔
        b.HasStray ∨ '!' ∉ b.text ∧ Vouches t.field (b.text ++ ['!']) := by
  have haccepted : ∀ t : Trailer, (∃ m, parse (b.closedBy t) = .ok m) ↔
      b.HasStray ∨ '!' ∉ b.text ∧ Vouches t.field (b.text ++ ['!']) := by
    intro t
    unfold HasStray
    by_cases h : '!' ∈ b.text
    · simp [b.parse_closedBy_of_mark t h, h]
    · simp [b.parse_closedBy_of_no_mark t h, h]
  refine ⟨⟨?_, ?_⟩, haccepted⟩
  · -- With a stray mark even a field that is no number at all is accepted.
    intro henforced hstray
    obtain ⟨m, hm⟩ := (haccepted unreadable).2 (Or.inl hstray)
    have hnone : Text.hexWord? unreadable.field = none := by decide
    have hsome := henforced unreadable m (by decide) hm
    rw [hnone] at hsome
    cases hsome
  · intro hstray t m hne hm
    rcases (haccepted t).1 ⟨m, hm⟩ with h | ⟨_, hempty | hword⟩
    · exact absurd h hstray
    · exact absurd hempty hne
    · exact hword

def small : Body where
  header := "KFM5KAIFA-METER\r".toList
  inner := ["\r".toList, "1-0:1.8.1(000001.000*kWh)\r".toList]
  header_line := by decide
  inner_line := by decide

/-- The small telegram with one bit turned, which makes a mark of its last parenthesis. -/
def smallTampered : Body where
  header := "KFM5KAIFA-METER\r".toList
  inner := ["\r".toList, "1-0:1.8.1(000001.000*kWh!\r".toList]
  header_line := by decide
  inner_line := by decide

def smallTrailer : Trailer := ⟨"AC51\r".toList, true, by decide⟩

/-- A turned bit can make a telegram be accepted against its checksum. -/
theorem tampered_is_accepted :
    (parse (small.closedBy smallTrailer)).isOk ∧
      smallTrailer.field ≠ [] ∧
      parse (smallTampered.closedBy smallTrailer) = .ok ⟨"/KFM5KAIFA-METER", []⟩ ∧
      Text.hexWord? smallTrailer.field ≠ some (checkOf (smallTampered.text ++ ['!'])) := by
  refine ⟨?_, ?_, ?_, ?_⟩ <;> decide +kernel

end Body

end HomeMetering.Telegram
