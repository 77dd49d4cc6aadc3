import HomeMetering.Proofs.Lookup
import HomeMetering.Proofs.Telegram.Checksum
import HomeMetering.Proofs.Text.Hex
import HomeMetering.Telegram.Printer
import Mathlib.Data.List.Induction

/-!
# Telegrams read back

What a smart meter writes is read back: the header as it is, and under every code the values that
were written last, with and without a checksum. A value may hold everything but the parenthesis that
ends it, the mark that ends the telegram and a line feed.
-/

namespace HomeMetering.Telegram

/-! ## What is written -/

/-- A number in a code. -/
def IsNumber (ds : List Char) : Prop := ds ≠ [] ∧ ∀ c ∈ ds, c.isDigit = true

instance (ds : List Char) : Decidable (IsNumber ds) :=
  @instDecidableAnd _ _ inferInstance (List.decidableBAll (fun c => c.isDigit = true) ds)

/-- Five numbers, with a dash, a colon and two dots between them. -/
def IsCode (code : List Char) : Prop :=
  ∃ a b c d e, IsNumber a ∧ IsNumber b ∧ IsNumber c ∧ IsNumber d ∧ IsNumber e ∧
    code = a ++ '-' :: (b ++ ':' :: (c ++ '.' :: (d ++ '.' :: e)))

/-- A telegram as smart meters write it. -/
structure IsWritten (t : Telegram) : Prop where
  header_slash : t.header.toList.head? = some '/'
  header_trim : Text.trim t.header.toList = t.header.toList
  header_line : '!' ∉ t.header.toList ∧ '\n' ∉ t.header.toList
  codes : ∀ o ∈ t.objects, IsCode o.1.toList
  values : ∀ o ∈ t.objects,
    o.2 ≠ [] ∧ ∀ v ∈ o.2, ')' ∉ v.toList ∧ '!' ∉ v.toList ∧ '\n' ∉ v.toList

/-! ## Codes -/

theorem IsNumber.isDigit {ds : List Char} (h : IsNumber ds) : ∀ c ∈ ds, Text.isDigit c = true := by
  intro c hc
  simp [Text.isDigit, h.2 c hc]

theorem digits?_append {ds rest : List Char} (h : IsNumber ds)
    (hrest : ∀ c ∈ rest.head?, Text.isDigit c = false) :
    digits? (ds ++ rest) = some (ds, rest) := by
  have hspan : (ds ++ rest).span Text.isDigit = (ds, rest) := by
    rw [List.span_eq_takeWhile_dropWhile, List.takeWhile_append_of_pos h.isDigit,
      List.dropWhile_append_of_pos h.isDigit]
    cases rest with
    | nil => simp
    | cons c rest => simp [hrest c rfl]
  unfold digits?
  rw [hspan]
  obtain ⟨c, r, rfl⟩ := List.exists_cons_of_ne_nil h.1
  rfl

theorem digitsThen?_append {ds rest : List Char} {c : Char} (h : IsNumber ds)
    (hc : Text.isDigit c = false) :
    digitsThen? c (ds ++ c :: rest) = some (ds ++ [c], rest) := by
  unfold digitsThen?
  rw [digits?_append h (by simpa using hc)]
  simp

theorem code?_append {code rest : List Char} (h : IsCode code)
    (hrest : ∀ c ∈ rest.head?, Text.isDigit c = false) :
    code? (code ++ rest) = some (code, rest) := by
  obtain ⟨a, b, c, d, e, ha, hb, hc, hd, he, rfl⟩ := h
  have hdash : Text.isDigit '-' = false := by decide
  have hcolon : Text.isDigit ':' = false := by decide
  have hdot : Text.isDigit '.' = false := by decide
  simp [code?, digitsThen?_append ha hdash, digitsThen?_append hb hcolon,
    digitsThen?_append hc hdot, digitsThen?_append hd hdot, digits?_append he hrest]

/-! ## Values -/

theorem values?_inside (inside value rest : List Char) (h : ')' ∉ value) :
    values? (some inside) (value ++ ')' :: rest) =
      (values? none rest).map ((inside.reverse ++ value) :: ·) := by
  induction value generalizing inside with
  | nil => simp [values?]
  | cons c value ih =>
    obtain ⟨hc, hvalue⟩ := List.ne_and_not_mem_of_not_mem_cons h
    rw [List.cons_append, values?]
    simp [hc.symm, ih (c :: inside) hvalue]

theorem values?_flatMap {vs : List (List Char)} (h : ∀ v ∈ vs, ')' ∉ v) :
    values? none (vs.flatMap fun v => '(' :: v ++ [')']) = some vs := by
  induction vs with
  | nil => rfl
  | cons v vs ih =>
    obtain ⟨hv, hvs⟩ := List.forall_mem_cons.1 h
    have hinside := values?_inside [] v (vs.flatMap fun v => '(' :: v ++ [')']) hv
    rw [ih hvs] at hinside
    simpa [values?] using hinside

/-! ## Object lines -/

theorem isBlank_of_isDigit {c : Char} (h : c.isDigit = true) : Text.isBlank c = false := by
  have hlow : 48 ≤ c.toNat ∧ c.toNat ≤ 57 := by simpa [Char.isDigit, UInt32.le_iff_toNat_le] using h
  simp [Text.isBlank]
  omega

section

variable {o : String × List String} (hcode : IsCode o.1.toList) (hne : o.2 ≠ [])

include hcode hne

theorem trim_objectText : Text.trim (objectText o) = objectText o := by
  refine Text.trim_eq_self ?_ ?_
  · obtain ⟨a, b, c, d, e, ha, -, -, -, -, htext⟩ := hcode
    obtain ⟨x, r, rfl⟩ := List.exists_cons_of_ne_nil ha.1
    have hx := isBlank_of_isDigit (ha.2 x List.mem_cons_self)
    simpa [objectText, htext] using hx
  · have hlast : (objectText o).getLast? = some ')' := by
      rw [objectText, ← List.dropLast_concat_getLast hne, List.flatMap_append,
        ← List.append_assoc, List.getLast?_append, List.flatMap_singleton, List.getLast?_concat]
      rfl
    rw [hlast]
    rintro c ⟨⟩
    decide

theorem objectLine?_objectText (hvs : ∀ v ∈ o.2, ')' ∉ v.toList) :
    objectLine? (objectText o) = some o := by
  have hvalues : values? none (o.2.flatMap fun v => '(' :: v.toList ++ [')']) =
      some (o.2.map String.toList) := by
    have hmapped : ∀ v ∈ o.2.map String.toList, ')' ∉ v := by simpa using hvs
    rw [← values?_flatMap hmapped, List.flatMap_map]
  have hhead : ∀ c ∈ (o.2.flatMap fun v => '(' :: v.toList ++ [')']).head?,
      Text.isDigit c = false := by
    obtain ⟨v, vs, hcons⟩ := List.exists_cons_of_ne_nil hne
    rw [hcons]
    rintro c ⟨⟩
    decide
  unfold objectLine? objectText
  rw [code?_append hcode hhead]
  simp only [Option.bind_eq_bind, Option.bind_some]
  rw [hvalues, Option.bind_some]
  obtain ⟨code, v | ⟨v, vs⟩⟩ := o
  · exact absurd rfl hne
  · simp [Function.comp_def]

end

/-! ## Objects -/

theorem lookup_putObject (os : List (String × List String)) (code u : String) (vs : List String) :
    (putObject os code vs).lookup u = if u = code then some vs else os.lookup u := by
  unfold putObject
  rw [List.lookup_append, lookup_filter, lookup_cons]
  by_cases hu : u = code <;> simp [hu]

theorem nodup_putObject {os : List (String × List String)} (h : (os.map Prod.fst).Nodup)
    (code : String) (vs : List String) : ((putObject os code vs).map Prod.fst).Nodup := by
  unfold putObject
  refine nodup_keys_concat vs (h.sublist (List.filter_sublist.map _)) fun o ho => ?_
  simpa using List.of_mem_filter ho

/-- Objects that were put one after the other. -/
def putAll (os : List (String × List String)) : List (String × List String) :=
  os.foldl (fun kept o => putObject kept o.1 o.2) []

theorem putAll_snoc (os : List (String × List String)) (o : String × List String) :
    putAll (os ++ [o]) = putObject (putAll os) o.1 o.2 := by
  simp [putAll]

theorem lookup_putAll (os : List (String × List String)) (code : String) :
    (putAll os).lookup code = os.reverse.lookup code := by
  induction os using List.reverseRecOn with
  | nil => rfl
  | append_singleton os o ih =>
    rw [putAll_snoc, lookup_putObject, List.reverse_concat, lookup_cons, ih]

theorem nodup_putAll (os : List (String × List String)) : ((putAll os).map Prod.fst).Nodup := by
  induction os using List.reverseRecOn with
  | nil => exact List.nodup_nil
  | append_singleton os o ih =>
    rw [putAll_snoc]
    exact nodup_putObject ih o.1 o.2

theorem objectsOf_map {os : List (String × List String)}
    (h : ∀ o ∈ os, objectLine? (Text.trim (objectText o)) = some o) :
    objectsOf ([] :: os.map objectText) = putAll os := by
  have hblank : objectLine? (Text.trim []) = none := rfl
  unfold objectsOf putAll
  rw [List.foldl_cons, hblank, List.foldl_map]
  refine List.foldl_ext _ _ _ fun kept o ho => ?_
  rw [h o ho]

/-! ## Texts -/

theorem lines_flatMap {ls : List (List Char)} (h : ∀ l ∈ ls, '\n' ∉ l) :
    Text.lines (ls.flatMap fun l => l ++ lineEnd) = ls := by
  induction ls with
  | nil => rfl
  | cons l ls ih =>
    obtain ⟨hl, hls⟩ := List.forall_mem_cons.1 h
    rw [List.flatMap_cons, List.append_assoc]
    exact (Text.lines_line l _ hl).trans (congrArg (l :: ·) (ih hls))

/-- What stands before the exclamation mark. -/
def bodyLines (t : Telegram) : List (List Char) :=
  t.header.toList :: [] :: t.objects.map objectText

theorem coveredText_eq (t : Telegram) :
    t.coveredText = t.bodyLines.flatMap (fun l => l ++ lineEnd) ++ ['!'] := by
  simp [coveredText, bodyLines, List.flatMap_map]

theorem IsNumber.not_mem {ds : List Char} (h : IsNumber ds) {c : Char} (hc : c.isDigit = false) :
    c ∉ ds := by
  intro hmem
  rw [h.2 c hmem] at hc
  cases hc

theorem IsCode.not_mem {code : List Char} (h : IsCode code) {c : Char} (hc : c.isDigit = false)
    (hsign : c ∉ ['-', ':', '.']) : c ∉ code := by
  obtain ⟨a, b, c', d, e, ha, hb, hc', hd, he, rfl⟩ := h
  simp only [List.mem_cons, List.not_mem_nil, or_false, not_or] at hsign
  simp [ha.not_mem hc, hb.not_mem hc, hc'.not_mem hc, hd.not_mem hc, he.not_mem hc, hsign]

theorem not_mem_objectText {o : String × List String} {c : Char} (hcode : c ∉ o.1.toList)
    (hvalues : ∀ v ∈ o.2, c ∉ v.toList) (hc : c ∉ ['(', ')']) : c ∉ objectText o := by
  simp only [List.mem_cons, List.not_mem_nil, or_false, not_or] at hc
  simp only [objectText, List.mem_append, List.mem_flatMap, List.mem_cons, List.not_mem_nil,
    or_false, hcode, false_or]
  rintro ⟨v, hv, (heq | hmem) | heq⟩
  · exact hc.1 heq
  · exact hvalues v hv hmem
  · exact hc.2 heq

/-- What a trailer carries behind its mark. -/
def checksumField (covered : List Char) (withChecksum : Bool) : List Char :=
  if withChecksum then checksumText covered else []

theorem plain_checksumField {covered : List Char} {withChecksum : Bool} {c : Char}
    (h : c ∈ checksumField covered withChecksum) : Text.isBlank c = false := by
  unfold checksumField at h
  split at h
  · obtain ⟨d, hd, rfl⟩ := Text.exists_of_mem_hexUpper h
    have hplain : ∀ d < 16, Text.isBlank (Nat.digitChar d).toUpper = false := by decide
    exact hplain d hd
  · cases h

theorem vouches_checksumField (covered : List Char) (withChecksum : Bool) :
    Vouches (checksumField covered withChecksum) covered := by
  unfold checksumField
  split
  · exact Or.inr (Text.hexWord?_hexUpper 4 (UInt16.toNat_lt _))
  · exact Or.inl rfl

namespace IsWritten

variable {t : Telegram} (h : t.IsWritten)

include h

theorem not_mem_bodyLines :
    ∀ l ∈ t.bodyLines, '!' ∉ l ∧ '\n' ∉ l := by
  intro l hl
  rcases List.mem_cons.1 hl with rfl | hl
  · exact h.header_line
  rcases List.mem_cons.1 hl with rfl | hl
  · simp
  obtain ⟨o, ho, rfl⟩ := List.mem_map.1 hl
  have hvalues := (h.values o ho).2
  constructor
  · exact not_mem_objectText ((h.codes o ho).not_mem (by decide) (by decide))
      (fun v hv => (hvalues v hv).2.1) (by decide)
  · exact not_mem_objectText ((h.codes o ho).not_mem (by decide) (by decide))
      (fun v hv => (hvalues v hv).2.2) (by decide)

/-- A telegram that was written reads back, with the values that stand last under every code. -/
theorem parse_render (withChecksum : Bool) :
    ∃ read : Telegram, parse (t.render withChecksum) = .ok read ∧ read.header = t.header ∧
      (read.objects.map Prod.fst).Nodup ∧
      ∀ code, read.object? code = t.objects.reverse.lookup code := by
  let body := t.bodyLines.flatMap fun l => l ++ lineEnd
  let field := checksumField t.coveredText withChecksum
  have htext : t.render withChecksum = body ++ '!' :: (field ++ lineEnd) := by
    simp [render, coveredText_eq, body, field, checksumField]
  have hstart : (t.render withChecksum).head? = some '/' := by
    simp [htext, body, bodyLines, h.header_slash]
  have hmark : '!' ∉ body := by
    simp only [body, List.mem_flatMap, List.mem_append, not_exists, not_and, not_or]
    exact fun l hl => ⟨(h.not_mem_bodyLines l hl).1, by decide⟩
  have hfield : Text.trim ((Text.lines (field ++ lineEnd)).headD []) = field := by
    have hline : '\n' ∉ field := fun hmem => absurd (plain_checksumField hmem) (by decide)
    have hlines : Text.lines (field ++ lineEnd) = field :: [] := Text.lines_line field [] hline
    rw [hlines]
    exact Text.trim_eq_self (fun c hc => plain_checksumField (List.mem_of_mem_head? hc))
      fun c hc => plain_checksumField (List.mem_of_mem_getLast? hc)
  have hcheck : checkTrailer field (body ++ ['!']) = .ok () := by
    rw [checkTrailer_eq_ok_iff, ← coveredText_eq]
    exact vouches_checksumField _ _
  have hobjects : objectsOf ([] :: t.objects.map objectText) = putAll t.objects := by
    refine objectsOf_map fun o ho => ?_
    obtain ⟨hne, hvalues⟩ := h.values o ho
    rw [trim_objectText (h.codes o ho) hne]
    exact objectLine?_objectText (h.codes o ho) hne fun v hv => (hvalues v hv).1
  have hparsed := parse_of_span hstart (htext ▸ span_mark body _ hmark)
  rw [hfield, hcheck, lines_flatMap fun l hl => (h.not_mem_bodyLines l hl).2] at hparsed
  refine ⟨⟨t.header, putAll t.objects⟩, ?_, rfl, nodup_putAll _, lookup_putAll _⟩
  rw [hparsed]
  simp [Except.map, bodyLines, h.header_trim, hobjects]

end IsWritten

/-- A telegram that tells one counter twice, and a text with a parenthesis and a slash. -/
def chatty : Telegram where
  header := "/KFM5KAIFA-METER"
  objects :=
    [("1-0:1.8.1", ["000001.000*kWh"]), ("0-0:96.13.0", ["see (a/b", ""]),
      ("1-0:1.8.1", ["000002.000*kWh"])]

theorem chatty_isWritten : chatty.IsWritten where
  header_slash := by decide +kernel
  header_trim := by decide +kernel
  header_line := by decide +kernel
  codes := by
    have himport : IsCode "1-0:1.8.1".toList :=
      ⟨['1'], ['0'], ['1'], ['8'], ['1'], by decide +kernel⟩
    have hmessage : IsCode "0-0:96.13.0".toList :=
      ⟨['0'], ['0'], ['9', '6'], ['1', '3'], ['0'], by decide +kernel⟩
    intro o ho
    simp only [chatty, List.mem_cons, List.not_mem_nil, or_false] at ho
    rcases ho with rfl | rfl | rfl
    exacts [himport, hmessage, himport]
  values := by decide +kernel

theorem chatty_reads_back :
    chatty.IsWritten ∧ ∃ read : Telegram, parse (chatty.render true) = .ok read ∧
      read.header = "/KFM5KAIFA-METER" ∧ read.object? "1-0:1.8.1" = some ["000002.000*kWh"] ∧
      read.object? "0-0:96.13.0" = some ["see (a/b", ""] ∧ read.object? "1-0:2.8.1" = none := by
  obtain ⟨read, hparsed, hheader, -, hobjects⟩ := chatty_isWritten.parse_render true
  exact ⟨chatty_isWritten, read, hparsed, hheader, hobjects _, hobjects _, hobjects _⟩

end HomeMetering.Telegram
