import HomeMetering.Proofs.Telegram.Pieces
import Mathlib.Data.List.Basic
import Mathlib.Data.List.Induction

/-!
# Where telegrams stand

A reader takes a line that is too long in blocks, and what is left of it for a line of its own. So
what it hands on are the telegrams that start at a line or a multiple of the limit behind the start
of one, and no others: nothing but a whole telegram, but not only at the start of a line.
-/

namespace HomeMetering.Telegram

open Text.Utf8 (encode)

/-! ## Places -/

/-- Bytes that end with a line. -/
def WholeLines (bs : List UInt8) : Prop := bs = [] ∨ bs.getLast? = some Reader.newline

/-- Bytes behind which a reader starts a line: lines, and behind them blocks of one that is too
long. -/
def StartsRead (bs : List UInt8) : Prop :=
  ∃ lines cut, bs = lines ++ cut ∧ WholeLines lines ∧ Reader.newline ∉ cut ∧
    Reader.maxLine ∣ cut.length

instance (bs : List UInt8) : Decidable (WholeLines bs) :=
  inferInstanceAs (Decidable (_ ∨ _))

theorem wholeLines_nil : WholeLines [] := Or.inl rfl

theorem WholeLines.startsRead {bs : List UInt8} (h : WholeLines bs) : StartsRead bs :=
  ⟨bs, [], (List.append_nil bs).symm, h, List.not_mem_nil, Nat.dvd_zero _⟩

theorem wholeLines_newline (bs : List UInt8) : WholeLines (bs ++ [Reader.newline]) :=
  Or.inr List.getLast?_concat

theorem WholeLines.of_append {as bs : List UInt8} (h : WholeLines (as ++ bs)) : WholeLines bs := by
  rcases List.eq_nil_or_concat bs with rfl | ⟨init, b, rfl⟩
  · exact Or.inl rfl
  · refine Or.inr ?_
    rcases h with h | h
    · simp at h
    · simpa using h

theorem wholeLines_append_inj {lines lines' cut cut' : List UInt8} (hlines : WholeLines lines)
    (hlines' : WholeLines lines') (hcut : Reader.newline ∉ cut) (hcut' : Reader.newline ∉ cut')
    (h : lines ++ cut = lines' ++ cut') : cut = cut' := by
  have hnil : ∀ m : List UInt8, WholeLines m → Reader.newline ∉ m → m = [] :=
    fun m hm hmem => hm.resolve_right fun hlast => hmem (List.mem_of_getLast? hlast)
  rcases List.append_eq_append_iff.1 h with ⟨m, rfl, rfl⟩ | ⟨m, rfl, rfl⟩
  · rw [hnil m hlines'.of_append fun hmem => hcut (List.mem_append_left _ hmem), List.nil_append]
  · rw [hnil m hlines.of_append fun hmem => hcut' (List.mem_append_left _ hmem), List.nil_append]

theorem StartsRead.append_block {bs block : List UInt8} (h : StartsRead bs)
    (hblock : Reader.newline ∉ block) (hlen : block.length = Reader.maxLine) :
    StartsRead (bs ++ block) := by
  obtain ⟨lines, cut, rfl, hlines, hcut, hdvd⟩ := h
  refine ⟨lines, cut ++ block, List.append_assoc .., hlines, ?_, ?_⟩
  · exact fun hmem => (List.mem_append.1 hmem).elim hcut hblock
  · rw [List.length_append, hlen]
    exact Nat.dvd_add hdvd (Nat.dvd_refl _)

/-! ## What a reader has gathered -/

/-- The lines and the text of a body keep to the limits. -/
structure Body.Keeps (b : Body) : Prop where
  lines : ∀ l ∈ ('/' :: b.header) :: b.inner, (encode (l ++ ['\n'])).length ≤ Reader.maxLine
  whole : (encode b.text).length ≤ Reader.maxTelegram

theorem Body.Keeps.fits {b : Body} (h : b.Keeps) {t : Trailer} (hended : t.isEnded = true)
    (hlen : (encode ('!' :: t.rest ++ ['\n'])).length ≤ Reader.maxLine) : b.Fits t where
  ended := hended
  lines l hl := by
    rcases List.mem_cons.1 hl with rfl | hl
    · exact h.lines _ List.mem_cons_self
    rcases List.mem_cons.1 hl with rfl | hl
    · exact hlen
    · exact h.lines l (List.mem_cons_of_mem _ hl)
  whole := h.whole

/-- A text that stands right before a place in the stream: none, or a body. -/
def Gathered (start : List UInt8) (collected : List Char) : Prop :=
  collected = [] ∨ ∃ before, ∃ b : Body, start = before ++ encode b.text ∧ StartsRead before ∧
    b.Keeps ∧ collected = b.text

/-- A telegram that ends a stretch of the stream. -/
def Closes (stretch : List UInt8) (result : Except TelegramError Telegram) : Prop :=
  ∃ before, ∃ b : Body, ∃ t : Trailer, stretch = before ++ encode (b.closedBy t) ∧
    StartsRead before ∧ b.Fits t ∧ result = parse (b.closedBy t)

theorem gathered_nil (start : List UInt8) : Gathered start [] := Or.inl rfl

/-- A line of the limit's size is added to what was gathered, drops it, or closes it. -/
theorem gathered_takeText {start : List UInt8} {collected l : List Char}
    (hstart : StartsRead start) (hc : Gathered start collected) (hl : '\n' ∉ l)
    (hlen : (encode (l ++ ['\n'])).length ≤ Reader.maxLine) :
    Gathered (start ++ encode (l ++ ['\n'])) (Reader.takeText collected (l ++ ['\n'])).1 ∧
      ∀ result, (Reader.takeText collected (l ++ ['\n'])).2 = some result →
        Closes (start ++ encode (l ++ ['\n'])) result := by
  by_cases hslash : l.head? = some '/'
  · obtain ⟨r, rfl⟩ := List.head?_eq_some_iff.1 hslash
    have hr : '\n' ∉ r := fun hmem => hl (List.mem_cons_of_mem _ hmem)
    have hsize : ¬ Reader.maxTelegram < Text.Utf8.size ('/' :: r ++ ['\n']) := by
      rw [← Text.Utf8.length_encode]
      exact Nat.not_lt.2 (Nat.le_trans hlen (by decide))
    rw [takeText_of_header _ _ rfl, if_neg hsize]
    refine ⟨Or.inr ⟨start, ⟨r, [], hr, by simp⟩, rfl, hstart, ⟨?_, ?_⟩, rfl⟩, fun _ h => nomatch h⟩
    · intro l' hl'
      obtain rfl := List.mem_singleton.1 hl'
      exact hlen
    · exact Nat.le_trans hlen (by decide)
  -- Anything but a header only counts after one.
  have hline : (l ++ ['\n']).head? ≠ some '/' := by rwa [Ne, head_append_newline _ _ (by decide)]
  rcases hc with rfl | ⟨before, b, rfl, hbefore, hkeeps, rfl⟩
  · rw [takeText_of_idle _ hline]
    exact ⟨gathered_nil _, fun _ h => nomatch h⟩
  by_cases hmark : l.head? = some '!'
  · obtain ⟨rest, rfl⟩ := List.head?_eq_some_iff.1 hmark
    rw [takeText_of_trailer b _ rfl]
    refine ⟨gathered_nil _, ?_⟩
    rintro _ ⟨⟩
    refine ⟨before, b, ⟨rest, true, fun hmem => hl (List.mem_cons_of_mem _ hmem)⟩, ?_, hbefore,
      hkeeps.fits rfl hlen, rfl⟩
    rw [List.append_assoc, ← Text.Utf8.encode_append]
    rfl
  · rw [takeText_of_inner b _ hline (by rwa [Ne, head_append_newline _ _ (by decide)])]
    split_ifs with hsize
    · exact ⟨gathered_nil _, fun _ h => nomatch h⟩
    · have htext := b.text_addLine l ⟨hl, hslash, hmark⟩
      refine ⟨Or.inr ⟨before, b.addLine l ⟨hl, hslash, hmark⟩, ?_, hbefore, ⟨?_, ?_⟩, htext.symm⟩,
        fun _ h => nomatch h⟩
      · rw [htext, Text.Utf8.encode_append b.text, List.append_assoc]
      · intro l' hl'
        rcases List.mem_append.1 (List.cons_append ▸ hl') with hl' | hl'
        · exact hkeeps.lines l' hl'
        · obtain rfl := List.mem_singleton.1 hl'
          exact hlen
      · rw [htext, Text.Utf8.length_encode]
        exact Nat.not_lt.1 hsize

namespace Reader

/-! ## Lines and blocks -/

theorem line_of_decode? {line : List UInt8} {cs : List Char} (hline : newline ∉ line)
    (h : Text.Utf8.decode? (line ++ [newline]) = some cs) :
    ∃ l, cs = l ++ ['\n'] ∧ '\n' ∉ l ∧ encode (l ++ ['\n']) = line ++ [newline] := by
  have hbytes := Text.Utf8.encode_of_decode? h
  have hmem : '\n' ∈ cs := by
    apply Text.Utf8.newline_mem_encode
    rw [hbytes]
    exact List.mem_append_right _ List.mem_cons_self
  obtain ⟨l, r, rfl, hl⟩ := List.eq_append_cons_of_mem hmem
  rw [Text.Utf8.encode_append, Text.Utf8.encode_cons] at hbytes
  obtain ⟨rfl, -, hr⟩ :=
    (List.append_cons_inj_of_notMem hline List.not_mem_nil).1 hbytes.symm
  have hempty : encode r = [] := hr.symm
  obtain rfl : r = [] := by
    have hread := Text.Utf8.decode?_encode r
    rw [hempty, Text.Utf8.decode?] at hread
    exact (Option.some.inj hread).symm
  exact ⟨l, rfl, hl, encode_line l⟩

theorem takeLine_block (collected : List Char) {raw : List UInt8} (hraw : newline ∉ raw)
    (hlen : raw.length = maxLine) : takeLine collected raw = (fresh, none) := by
  have hlast : raw.getLast? ≠ some newline := fun h => hraw (List.mem_of_getLast? h)
  have hnone : text? raw = none := by
    unfold text?
    rw [if_pos (by simp [hlen, hlast])]
  unfold takeLine
  rw [hnone]

theorem push_block {r : Reader} {b : UInt8} (hline : newline ∉ r.line) (hb : b ≠ newline)
    (hfull : r.line.length + 1 = maxLine) : r.push b = (fresh, none) := by
  have hcomplete := push_complete r.line.reverse r.collected (b := b)
    (.inr (by rwa [List.length_reverse]))
  rw [List.reverse_reverse] at hcomplete
  refine Eq.trans hcomplete (takeLine_block _ ?_ ?_)
  · simp [hline, hb.symm]
  · rwa [List.length_append, List.length_reverse]

theorem allOfBytes_block {block : List UInt8} (hblock : newline ∉ block)
    (hlen : block.length = maxLine) : fresh.allOfBytes block = (fresh, []) := by
  rcases List.eq_nil_or_concat' block with rfl | ⟨init, b, rfl⟩
  · cases hlen
  rw [List.length_append, List.length_singleton] at hlen
  have hinit : newline ∉ init := fun hmem => hblock (List.mem_append_left _ hmem)
  have hb : b ≠ newline := by
    rintro rfl
    exact hblock (List.mem_append_right _ List.mem_cons_self)
  have hbefore := allOfBytes_inside [] [] hinit (by rw [List.length_nil]; omega)
  have hpush : push ⟨init.reverse, []⟩ b = (fresh, none) :=
    push_block (fun hmem => hinit (List.mem_reverse.1 hmem)) hb (by rwa [List.length_reverse])
  have hread : fresh.allOfBytes init = (⟨init.reverse, []⟩, []) := hbefore
  rw [allOfBytes_append, hread, allOfBytes, hpush]
  rfl

theorem gathered_takeLine {start line : List UInt8} {collected : List Char}
    (hstart : StartsRead start) (hc : Gathered start collected) (hline : newline ∉ line)
    (hlen : line.length < maxLine) :
    Gathered (start ++ (line ++ [newline])) (takeLine collected (line ++ [newline])).1.collected ∧
      ∀ o, (takeLine collected (line ++ [newline])).2 = some o →
        ∃ result, o = outcomeOf result ∧ Closes (start ++ (line ++ [newline])) result := by
  unfold takeLine
  cases htext : text? (line ++ [newline]) with
  | none => exact ⟨gathered_nil _, fun _ h => nomatch h⟩
  | some cs =>
    have hdecode : Text.Utf8.decode? (line ++ [newline]) = some cs := by
      unfold text? at htext
      split_ifs at htext
      exact htext
    obtain ⟨l, rfl, hl, hbytes⟩ := line_of_decode? hline hdecode
    have hsize : (encode (l ++ ['\n'])).length ≤ maxLine := by
      rw [hbytes, List.length_append]
      exact hlen
    have htake := gathered_takeText hstart hc hl hsize
    rw [hbytes] at htake
    refine ⟨htake.1, fun o ho => ?_⟩
    obtain ⟨result, hresult, rfl⟩ := Option.map_eq_some_iff.1 ho
    exact ⟨result, rfl, htake.2 result hresult⟩

/-! ## Bytes -/

/-- What a reader holds after some bytes: the line at hand, and what it has gathered before it. -/
structure Holds (bs : List UInt8) (r : Reader) : Prop where
  line : newline ∉ r.line
  room : r.line.length < maxLine
  split : ∃ start, bs = start ++ r.line.reverse ∧ StartsRead start ∧ Gathered start r.collected

theorem holds_fresh : Holds [] fresh where
  line := List.not_mem_nil
  room := by decide
  split := ⟨[], rfl, wholeLines_nil.startsRead, gathered_nil _⟩

theorem Holds.push {bs : List UInt8} {r : Reader} (h : Holds bs r) (b : UInt8) :
    Holds (bs ++ [b]) (r.push b).1 ∧
      ∀ o, (r.push b).2 = some o → ∃ result, o = outcomeOf result ∧ Closes (bs ++ [b]) result := by
  obtain ⟨start, rfl, hstart, hc⟩ := h.split
  have hline : newline ∉ r.line.reverse := fun hmem => h.line (List.mem_reverse.1 hmem)
  have hroom : r.line.reverse.length < maxLine := by
    rw [List.length_reverse]
    exact h.room
  rw [List.append_assoc]
  by_cases hb : b = newline
  · subst hb
    rw [push_newline]
    have htake := gathered_takeLine hstart hc hline hroom
    have hempty := takeLine_line r.collected (r.line.reverse ++ [newline])
    refine ⟨⟨?_, ?_, _, ?_, ?_, htake.1⟩, htake.2⟩
    · rw [hempty]
      exact List.not_mem_nil
    · rw [hempty]
      decide
    · rw [hempty]
      exact (List.append_nil _).symm
    · rw [← List.append_assoc]
      exact (wholeLines_newline _).startsRead
  have hlonger : newline ∉ r.line.reverse ++ [b] := by simp [h.line, Ne.symm hb]
  by_cases hfull : r.line.length + 1 = maxLine
  · rw [push_block h.line hb hfull]
    refine ⟨⟨List.not_mem_nil, by decide, _, (List.append_nil _).symm, ?_, gathered_nil _⟩,
      fun _ h => nomatch h⟩
    exact hstart.append_block hlonger (by simpa using hfull)
  · have hlt : r.line.length + 1 < maxLine := Nat.lt_of_le_of_ne h.room hfull
    rw [push_inside r hb hlt]
    refine ⟨⟨?_, hlt, start, ?_, hstart, hc⟩, fun _ h => nomatch h⟩
    · simp [h.line, Ne.symm hb]
    · rw [List.reverse_cons]

theorem holds_allOfBytes (bs : List UInt8) : Holds bs (fresh.allOfBytes bs).1 := by
  induction bs using List.reverseRecOn with
  | nil => exact holds_fresh
  | append_singleton bs b ih =>
    rw [allOfBytes_append]
    exact (ih.push b).1

theorem Holds.line_eq_nil {bs : List UInt8} {r : Reader} (h : Holds bs r) (hstart : StartsRead bs) :
    r.line = [] := by
  obtain ⟨_, hsplit, ⟨lines, cut, rfl, hlines, hcut, hdvd⟩, -⟩ := h.split
  obtain ⟨lines', cut', rfl, hlines', hcut', hdvd'⟩ := hstart
  rw [List.append_assoc] at hsplit
  have hrest : newline ∉ cut ++ r.line.reverse := by simp [hcut, h.line]
  obtain rfl := wholeLines_append_inj hlines' hlines hcut' hrest hsplit
  rw [List.length_append, List.length_reverse, Nat.dvd_add_right hdvd] at hdvd'
  exact List.length_eq_zero_iff.1 (Nat.eq_zero_of_dvd_of_lt hdvd' h.room)

theorem results_of_startsRead {bs : List UInt8} (h : StartsRead bs) :
    results bs = (fresh.allOfBytes bs).2 := by
  have hline := (holds_allOfBytes bs).line_eq_nil h
  rw [results_eq, unfinished, if_pos (finish_of_line_nil hline), List.append_nil]

theorem exists_push_of_allOfBytes {r : Reader} {bs : List UInt8} {os₁ os₂ : List Outcome}
    {o : Outcome} (h : (r.allOfBytes bs).2 = os₁ ++ o :: os₂) :
    ∃ p b rest, bs = p ++ b :: rest ∧ (r.allOfBytes p).2 = os₁ ∧
      ((r.allOfBytes p).1.push b).2 = some o ∧ (fresh.allOfBytes rest).2 = os₂ := by
  induction bs generalizing r os₁ with
  | nil => simp [allOfBytes] at h
  | cons b bs ih =>
    rw [allOfBytes] at h
    cases hpush : (r.push b).2 with
    | none =>
      simp only [hpush, Option.toList_none, List.nil_append] at h
      obtain ⟨p, b', rest, rfl, hp, hb', hrest⟩ := ih h
      refine ⟨b :: p, b', rest, rfl, ?_, hb', hrest⟩
      simp only [allOfBytes, hpush, Option.toList_none, List.nil_append, hp]
    | some o' =>
      simp only [hpush, Option.toList_some, List.singleton_append, (push_some hpush).1] at h
      cases os₁ with
      | nil =>
        obtain ⟨rfl, rfl⟩ := List.cons.inj h
        exact ⟨[], b, bs, rfl, rfl, hpush, rfl⟩
      | cons o₁ os₁ =>
        obtain ⟨rfl, htail⟩ := List.cons.inj h
        obtain ⟨p, b', rest, rfl, hp, hb', hrest⟩ := ih htail
        refine ⟨b :: p, b', rest, rfl, ?_, ?_, hrest⟩
        · simp only [allOfBytes, hpush, (push_some hpush).1, hp, Option.toList_some,
            List.singleton_append]
        · simpa only [allOfBytes, (push_some hpush).1] using hb'

theorem allOfBytes_around (b : Body) (t : Trailer) (h : b.Fits t) {before : List UInt8}
    (hbefore : StartsRead before) (after : List UInt8) :
    fresh.allOfBytes (before ++ encode (b.closedBy t) ++ after) =
      ((fresh.allOfBytes after).1,
        results before ++ outcomeOf (parse (b.closedBy t)) :: (fresh.allOfBytes after).2) := by
  have hline := (holds_allOfBytes before).line_eq_nil hbefore
  have hreader : (fresh.allOfBytes before).1 = ⟨[], (fresh.allOfBytes before).1.collected⟩ := by
    rw [← hline]
  have htelegram := b.allOfBytes_closedBy t h (fresh.allOfBytes before).1.collected
  rw [← hreader] at htelegram
  rw [allOfBytes_append, allOfBytes_append, htelegram, results_of_startsRead hbefore,
    List.append_assoc]
  rfl

theorem calls_bytes {bs : List UInt8} {ds : List Delivery} (h : Cuts (bs.map .byte) ds) (n : Nat) :
    calls n ds = endless (results bs) n := by
  have houtcomes := outcomes_bytes fresh bs []
  rw [List.append_nil] at houtcomes
  rw [calls_eq h, houtcomes, ← endless_end (results bs), results_append_end]
  rfl

/-- However whole lines arrive, calls hand on the telegrams that stand where a line starts to be
read, each of them where it stands, and nothing else. -/
theorem results_eq_append_cons_iff {bs : List UInt8} (h : WholeLines bs) :
    (∀ ds, Cuts (bs.map .byte) ds → ∀ n, calls n ds = endless (results bs) n) ∧
      ∀ os₁ o os₂, results bs = os₁ ++ o :: os₂ ↔
        ∃ before, ∃ b : Body, ∃ t : Trailer, ∃ after,
          bs = before ++ encode (b.closedBy t) ++ after ∧ StartsRead before ∧ b.Fits t ∧
            os₁ = results before ∧ o = outcomeOf (parse (b.closedBy t)) ∧ os₂ = results after := by
  refine ⟨fun ds hds => calls_bytes hds, fun os₁ o os₂ => ⟨fun hos => ?_, ?_⟩⟩
  · rw [results_of_startsRead h.startsRead] at hos
    obtain ⟨p, last, after, rfl, -, hpush, hafter⟩ := exists_push_of_allOfBytes hos
    obtain ⟨_, rfl, before, b, t, hplace, hbefore, hfits, rfl⟩ :=
      ((holds_allOfBytes p).push last).2 o hpush
    have hbytes : p ++ last :: after = before ++ encode (b.closedBy t) ++ after := by
      rw [← hplace, List.append_assoc]
      rfl
    have haround := congrArg Prod.snd (allOfBytes_around b t hfits hbefore after)
    rw [← hbytes, hos, hafter] at haround
    obtain ⟨hos₁, -⟩ := List.append_inj' haround rfl
    have hrest : WholeLines after := by
      rw [hbytes] at h
      exact h.of_append
    rw [← results_of_startsRead hrest.startsRead] at hafter
    exact ⟨before, b, t, after, hbytes, hbefore, hfits, hos₁, rfl, hafter.symm⟩
  · rintro ⟨before, b, t, after, rfl, hbefore, hfits, rfl, rfl, rfl⟩
    rw [results_of_startsRead h.startsRead, allOfBytes_around b t hfits hbefore,
      results_of_startsRead h.of_append.startsRead]

end Reader

theorem small_where_it_stands :
    WholeLines (noise ++ smallBytes) ∧
      Reader.results (noise ++ smallBytes) =
        [] ++ Reader.outcomeOf (parse (Body.small.closedBy Body.smallTrailer)) :: [] := by
  have hlines : WholeLines (noise ++ smallBytes) := by decide +kernel
  refine ⟨hlines, ((Reader.results_eq_append_cons_iff hlines).2 _ _ _).2
    ⟨noise, Body.small, Body.smallTrailer, [], ?_, ?_, ?_, ?_, rfl, ?_⟩⟩
  · exact (List.append_nil _).symm
  · exact WholeLines.startsRead (Or.inr (by decide))
  · decide +kernel
  · rw [Reader.results_eq]
    decide +kernel
  · rw [Reader.results_eq]
    decide +kernel

/-- A line that is too long by a telegram. -/
def overlong : List UInt8 := List.replicate Reader.maxLine 0x78 ++ smallBytes

/-- What is left of a line that is too long acts as a header, though none starts at a line. -/
theorem remainder_is_accepted :
    WholeLines overlong ∧
      (∀ before after, overlong = before ++ 0x2F :: after → ¬ WholeLines before) ∧
      Reader.results overlong =
        [Reader.outcomeOf (parse (Body.small.closedBy Body.smallTrailer))] ∧
      (parse (Body.small.closedBy Body.smallTrailer)).isOk := by
  have hmem : ∀ {x : UInt8}, x ≠ 0x78 → x ∉ List.replicate Reader.maxLine 0x78 :=
    fun hx h => hx (List.eq_of_mem_replicate h)
  have hdropped : Reader.newline ∉ List.replicate Reader.maxLine 0x78 := hmem (by decide)
  have hlen : (List.replicate Reader.maxLine (0x78 : UInt8)).length = Reader.maxLine :=
    List.length_replicate
  have hstart : StartsRead (List.replicate Reader.maxLine 0x78) :=
    ⟨[], List.replicate Reader.maxLine 0x78, rfl, wholeLines_nil, hdropped,
      ⟨1, by rw [hlen, Nat.mul_one]⟩⟩
  refine ⟨by decide +kernel, fun before after h => ?_, ?_, by decide +kernel⟩
  · -- The only slash is the one behind what was dropped.
    have hslash : smallBytes = 0x2F :: smallBytes.tail := by decide +kernel
    rw [overlong, hslash] at h
    obtain ⟨rfl, -⟩ :=
      (List.append_cons_inj_of_notMem (hmem (by decide)) (by decide +kernel)).1 h
    decide +kernel
  · have hfits : Body.small.Fits Body.smallTrailer := by decide +kernel
    have haround := Reader.allOfBytes_around _ _ hfits hstart []
    rw [List.append_nil, Reader.results_of_startsRead hstart,
      Reader.allOfBytes_block hdropped hlen] at haround
    rw [Reader.results_eq, overlong, smallBytes, haround]
    rfl

end HomeMetering.Telegram
