import HomeMetering.Proofs.Telegram.Pieces
import Mathlib.Data.List.Basic

/-!
# Hours of noise

A call goes round until a line, a failure or the end of the stream ends it. Whatever is delivered,
a round that does not end it takes a byte away, so a stream that ends brings the call to an end.
What a round leaves behind is nothing or a header and lines after it, within the limit and without a
trailer, so no text that is handed over is longer than the limit and a line.
-/

namespace HomeMetering.Telegram

open Text.Utf8 (encode size)

/-! ## Lines of a text -/

/-- A line starts behind some text. -/
def StartsLine (before : List Char) : Prop := before = [] ∨ before.getLast? = some '\n'

/-- No line of a text is a trailer. -/
def Unmarked (text : List Char) : Prop :=
  ∀ before after, text = before ++ '!' :: after → ¬ StartsLine before

theorem unmarked_nil : Unmarked [] := fun _ _ h => by simp at h

/-- Behind a text without a trailer, one can only start where the line that is added does. -/
theorem Unmarked.eq_of_append {text line before after : List Char} (h : Unmarked text)
    (hline : '\n' ∉ line.dropLast) (heq : text ++ line = before ++ '!' :: after)
    (hstart : StartsLine before) : before = text := by
  rcases List.append_eq_append_iff.1 heq with ⟨m, rfl, rfl⟩ | ⟨m, rfl, hm⟩
  · rcases List.eq_nil_or_concat' m with rfl | ⟨m, c, rfl⟩
    · exact List.append_nil text
    · -- The mark is not the last character of its line, so what is before it is no line feed.
      have hlast : c = '\n' := by
        rcases hstart with hnil | hlast
        · simp at hnil
        · rw [← List.append_assoc, List.getLast?_concat] at hlast
          exact Option.some.inj hlast
      refine absurd ?_ hline
      rw [List.dropLast_append_of_ne_nil (List.cons_ne_nil _ _), hlast]
      simp
  · cases m with
    | nil => exact (List.append_nil before).symm
    | cons c m =>
      obtain ⟨rfl, -⟩ := List.cons.inj hm
      exact absurd hstart (h before m rfl)

theorem Unmarked.append {text line : List Char} (h : Unmarked text) (hline : '\n' ∉ line.dropLast)
    (hmark : line.head? ≠ some '!') : Unmarked (text ++ line) := by
  intro before after heq hstart
  obtain rfl := h.eq_of_append hline heq hstart
  rw [List.append_cancel_left heq] at hmark
  exact hmark rfl

namespace Reader

/-- The text of one line, with or without its line feed. -/
structure IsLine (line : List Char) : Prop where
  size : size line ≤ maxLine
  feed : '\n' ∉ line.dropLast

theorem isLine_of_text? {raw : List UInt8} {line : List Char} (hlen : raw.length ≤ maxLine)
    (hraw : newline ∉ raw.dropLast) (h : text? raw = some line) : IsLine line := by
  have hdecode : Text.Utf8.decode? raw = some line := by
    unfold text? at h
    split_ifs at h
    exact h
  have hbytes := Text.Utf8.encode_of_decode? hdecode
  refine ⟨?_, fun hmem => hraw ?_⟩
  · rwa [← Text.Utf8.length_encode, hbytes]
  · rcases List.eq_nil_or_concat' line with rfl | ⟨init, c, rfl⟩
    · cases hmem
    rw [List.dropLast_concat] at hmem
    have hfeed : newline ∈ encode init := List.mem_flatMap.2 ⟨'\n', hmem, by decide⟩
    have hlast : encode [c] ≠ [] := by
      rw [← List.length_pos_iff, Text.Utf8.length_encode]
      exact Nat.add_pos_left c.utf8Size_pos 0
    rw [← hbytes, Text.Utf8.encode_append, List.dropLast_append_of_ne_nil hlast]
    exact List.mem_append_left _ hfeed

/-! ## Bytes that are left -/

/-- Bytes that were delivered and not taken yet. -/
def bytesLeft : List Delivery → Nat
  | [] => 0
  | .bytes bs :: ds => bs.length + bytesLeft ds
  | _ :: ds => bytesLeft ds

theorem bytesLeft_buffered (bs : List UInt8) (ds : List Delivery) :
    bytesLeft (buffered bs ds) = bs.length + bytesLeft ds := by
  cases bs <;> simp [buffered, bytesLeft]

theorem hangUp_mem_buffered {bs : List UInt8} {ds : List Delivery} (h : .hangUp ∈ ds) :
    .hangUp ∈ buffered bs ds := by
  unfold buffered
  split_ifs
  · exact h
  · exact List.mem_cons_of_mem _ h

/-- A line ends at its first line feed or at the limit, and its bytes are those that were taken. -/
theorem readLine_line {line raw : List UInt8} {ds rest : List Delivery} (hline : newline ∉ line)
    (hlen : line.length < maxLine) (h : readLine line ds = (.line raw, rest)) :
    raw.length ≤ maxLine ∧ newline ∉ raw.dropLast ∧
      raw.length + bytesLeft rest = line.length + bytesLeft ds := by
  induction ds generalizing line with
  | nil => cases h
  | cons d ds ih =>
    cases d with
    | failure f => cases h
    | hangUp =>
      cases h
      exact ⟨Nat.le_of_lt hlen, fun hmem => hline (List.dropLast_subset _ hmem), rfl⟩
    | bytes bs =>
      unfold readLine at h
      dsimp only at h
      generalize hwindow : bs.take (maxLine - line.length) = window at h
      have hroom : window.length ≤ maxLine - line.length := hwindow ▸ List.length_take_le ..
      have hpiece : window.length ≤ bs.length := hwindow ▸ List.length_take_le' ..
      have hbefore : newline ∉ window.takeWhile (· != newline) := by
        intro hmem
        simpa using List.mem_takeWhile_imp hmem
      split_ifs at h with hfeed hfull
      · cases h
        refine ⟨?_, ?_, ?_⟩
        · simp only [List.length_append, List.length_singleton]
          omega
        · simp [hline, hbefore]
        · simp only [bytesLeft_buffered, bytesLeft, List.length_append, List.length_singleton,
            List.length_drop]
          omega
      all_goals
        have hall : window.takeWhile (· != newline) = window :=
          (List.takeWhile_prefix _).eq_of_length_le (Nat.not_lt.1 hfeed)
        rw [hall] at hbefore
        have hlonger : newline ∉ line ++ window := by simp [hline, hbefore]
      · cases h
        refine ⟨?_, fun hmem => hlonger (List.dropLast_subset _ hmem), ?_⟩
        · rw [List.length_append]
          omega
        · simp only [bytesLeft_buffered, bytesLeft, List.length_append, List.length_drop]
          omega
      · obtain ⟨-, hmax⟩ : window ≠ [] ∧ line.length + window.length ≠ maxLine := by
          simpa using hfull
        have hwhole : window.length = bs.length := by
          rw [← hwindow, List.length_take] at hmax ⊢
          omega
        obtain ⟨hraw, hend, htaken⟩ := ih hlonger (by rw [List.length_append]; omega) h
        refine ⟨hraw, hend, ?_⟩
        rw [List.length_append] at htaken
        simp only [bytesLeft]
        omega

theorem readLine_hangUp (line : List UInt8) {ds : List Delivery} (h : .hangUp ∈ ds) :
    (readLine line ds).1 ≠ .pending ∧ .hangUp ∈ (readLine line ds).2 := by
  induction ds generalizing line with
  | nil => cases h
  | cons d ds ih =>
    cases d with
    | hangUp => exact ⟨fun heq => LineRead.noConfusion heq, List.mem_cons_self⟩
    | failure f =>
      have hds : .hangUp ∈ ds := by simpa using h
      exact ⟨fun heq => LineRead.noConfusion heq, hds⟩
    | bytes bs =>
      have hds : .hangUp ∈ ds := by simpa using h
      unfold readLine
      dsimp only
      split_ifs
      · exact ⟨fun heq => LineRead.noConfusion heq, hangUp_mem_buffered hds⟩
      · exact ⟨fun heq => LineRead.noConfusion heq, hangUp_mem_buffered hds⟩
      · exact ih _ hds

/-! ## What is collected -/

/-- A telegram that has begun, or nothing. -/
structure Begun (collected : List Char) : Prop where
  slash : collected = [] ∨ collected.head? = some '/'
  size : size collected ≤ maxTelegram
  unmarked : Unmarked collected

/-- A text whose only trailer is its last line, behind what was collected. -/
structure IsComplete (collected text : List Char) : Prop where
  slash : text.head? = some '/'
  size : size text ≤ maxTelegram + maxLine
  last : ∃ line, text = collected ++ '!' :: line ∧ '\n' ∉ ('!' :: line).dropLast
  only : ∀ before after, text = before ++ '!' :: after → StartsLine before → before = collected

theorem begun_nil : Begun [] := ⟨Or.inl rfl, Nat.zero_le _, unmarked_nil⟩

/-- The text that a line completes. -/
def complete? (collected line : List Char) : Option (List Char) :=
  if startsWith '!' line && !collected.isEmpty then some (collected ++ line) else none

theorem complete?_eq_some {collected line text : List Char}
    (h : complete? collected line = some text) :
    line.head? = some '!' ∧ collected ≠ [] ∧ text = collected ++ line := by
  unfold complete? at h
  split_ifs at h with hmark
  simp only [startsWith, Bool.and_eq_true, Bool.not_eq_true', beq_iff_eq, List.isEmpty_eq_false_iff]
    at hmark
  exact ⟨hmark.1, hmark.2, (Option.some.inj h).symm⟩

theorem takeText_snd (collected line : List Char) :
    (takeText collected line).2 = (complete? collected line).map parse := by
  unfold takeText complete? startsWith
  dsimp only
  by_cases hslash : line.head? = some '/'
  · simp only [hslash]
    split_ifs <;> simp_all
  · cases collected <;> by_cases hmark : line.head? = some '!' <;> simp [hslash, hmark]
    split_ifs <;> rfl

theorem takeText_of_begun {collected line : List Char} (hne : collected ≠ [])
    (hslash : line.head? ≠ some '/') (hmark : line.head? ≠ some '!') :
    (takeText collected line).1 =
      if maxTelegram < size (collected ++ line) then [] else collected ++ line := by
  simp only [takeText, startsWith, beq_iff_eq, hslash, hmark, if_false]
  split_ifs <;> simp_all

theorem begun_takeText {collected line : List Char} (h : Begun collected) (hline : IsLine line)
    (hnone : complete? collected line = none) : Begun (takeText collected line).1 := by
  by_cases hslash : line.head? = some '/'
  · -- A header starts anew, and no line is longer than a telegram.
    have hsize : ¬ maxTelegram < size line :=
      Nat.not_lt.2 (Nat.le_trans hline.size (by decide))
    have hmark : line.head? ≠ some '!' := by simp [hslash]
    rw [takeText_of_header _ _ hslash, if_neg hsize]
    exact ⟨Or.inr hslash, Nat.not_lt.1 hsize, unmarked_nil.append hline.feed hmark⟩
  by_cases hne : collected = []
  · rw [hne, takeText_of_idle _ hslash]
    exact begun_nil
  have hmark : line.head? ≠ some '!' := by
    intro hmark
    simp [complete?, startsWith, hmark, hne] at hnone
  rw [takeText_of_begun hne hslash hmark]
  split_ifs with hsize
  · exact begun_nil
  · refine ⟨Or.inr ?_, Nat.not_lt.1 hsize, h.unmarked.append hline.feed hmark⟩
    rw [List.head?_append_of_ne_nil _ hne]
    exact h.slash.resolve_left hne

theorem isComplete_of_complete? {collected line text : List Char} (h : Begun collected)
    (hline : IsLine line) (hsome : complete? collected line = some text) :
    IsComplete collected text := by
  obtain ⟨hmark, hne, rfl⟩ := complete?_eq_some hsome
  obtain ⟨rest, rfl⟩ := List.head?_eq_some_iff.1 hmark
  refine ⟨?_, ?_, ⟨rest, rfl, hline.feed⟩, ?_⟩
  · rw [List.head?_append_of_ne_nil _ hne]
    exact h.slash.resolve_left hne
  · rw [Text.Utf8.size_append]
    exact Nat.add_le_add h.size hline.size
  · exact fun before after heq hstart => h.unmarked.eq_of_append hline.feed heq hstart

/-! ## Rounds -/

/-- What a round of a call comes to. -/
inductive Round where
  /-- The call goes on with what is collected then. -/
  | again (collected : List Char) (rest : List Delivery)
  /-- A text is complete and handed over to be parsed. -/
  | hands (text : List Char) (rest : List Delivery)
  | fails (f : IoFailure) (rest : List Delivery)
  /-- Nothing more has been delivered. -/
  | waits (rest : List Delivery)

/-- What a call hands on that ends with the round. -/
def Round.result? : Round → Option (Outcome × List Delivery)
  | hands text rest => some (outcomeOf (parse text), rest)
  | fails f rest => some (.failed f, rest)
  | again .. | waits .. => none

/-- One round of a call: a line is read and taken. -/
def round (collected : List Char) (ds : List Delivery) : Round :=
  match readLine [] ds with
  | (.pending, rest) => .waits rest
  | (.failed f, rest) => .fails f rest
  | (.line raw, rest) =>
    if raw = [] then .fails .endOfStream rest
    else match text? raw with
      | none => .again [] rest
      | some line =>
        match complete? collected line with
        | some text => .hands text rest
        | none => .again (takeText collected line).1 rest

theorem call_of_pending {collected : List Char} {ds rest : List Delivery}
    (h : readLine [] ds = (.pending, rest)) : call collected ds = (none, rest) := by
  rw [call]
  split <;> next heq => rw [h] at heq; cases heq <;> rfl

/-- A call is its first round, and the rounds after it. -/
theorem call_eq_round (collected : List Char) (ds : List Delivery) :
    call collected ds =
      match round collected ds with
      | .again collected' rest => call collected' rest
      | .hands text rest => (some (outcomeOf (parse text)), rest)
      | .fails f rest => (some (.failed f), rest)
      | .waits rest => (none, rest) := by
  unfold round
  rcases hread : readLine [] ds with ⟨raw | f | -, rest⟩
  · rw [call_of_line hread]
    dsimp only
    split_ifs with hraw
    · rfl
    unfold takeLine
    cases text? raw with
    | none => rfl
    | some line =>
      dsimp only
      rw [takeText_snd]
      cases complete? collected line <;> rfl
  · exact call_of_failed hread
  · exact call_of_pending hread

theorem call_of_result? {collected : List Char} {ds : List Delivery} {o : Outcome}
    {rest : List Delivery} (h : (round collected ds).result? = some (o, rest)) :
    call collected ds = (some o, rest) := by
  rw [call_eq_round]
  cases hround : round collected ds with
  | again c' rest' => rw [hround] at h; cases h
  | waits rest' => rw [hround] at h; cases h
  | hands text rest' =>
    rw [hround] at h
    cases h
    rfl
  | fails f rest' =>
    rw [hround] at h
    cases h
    rfl

/-- What a round does, by the line that it read. -/
inductive Takes (collected : List Char) (ds : List Delivery) : Round → Prop
  | dropped {rest : List Delivery} (taken : bytesLeft rest < bytesLeft ds) :
      Takes collected ds (.again [] rest)
  | kept {line : List Char} {rest : List Delivery} (taken : bytesLeft rest < bytesLeft ds)
      (isLine : IsLine line) (incomplete : complete? collected line = none) :
      Takes collected ds (.again (takeText collected line).1 rest)
  | completed {line text : List Char} {rest : List Delivery} (isLine : IsLine line)
      (complete : complete? collected line = some text) : Takes collected ds (.hands text rest)
  | failed {f : IoFailure} {rest : List Delivery} : Takes collected ds (.fails f rest)
  | waiting {rest : List Delivery} : Takes collected ds (.waits rest)

theorem takes_round (collected : List Char) (ds : List Delivery) :
    Takes collected ds (round collected ds) := by
  unfold round
  rcases hread : readLine [] ds with ⟨raw | f | -, rest⟩
  · dsimp only
    split_ifs with hraw
    · exact .failed
    obtain ⟨hlen, hfeed, htaken⟩ := readLine_line List.not_mem_nil (by decide) hread
    have hless : bytesLeft rest < bytesLeft ds := by
      have hpos := List.length_pos_iff.2 hraw
      rw [List.length_nil] at htaken
      omega
    cases htext : text? raw with
    | none => exact .dropped hless
    | some line =>
      have hline := isLine_of_text? hlen hfeed htext
      dsimp only
      cases hcomplete : complete? collected line with
      | none => exact .kept hless hline hcomplete
      | some text => exact .completed hline hcomplete
  · exact .failed
  · exact .waiting

theorem round_again {collected collected' : List Char} {ds rest : List Delivery}
    (h : round collected ds = .again collected' rest) :
    bytesLeft rest < bytesLeft ds ∧ (Begun collected → Begun collected') := by
  have htakes := h ▸ takes_round collected ds
  cases htakes with
  | dropped taken => exact ⟨taken, fun _ => begun_nil⟩
  | kept taken isLine incomplete =>
    exact ⟨taken, fun hbegun => begun_takeText hbegun isLine incomplete⟩

theorem round_hands {collected text : List Char} {ds rest : List Delivery}
    (h : round collected ds = .hands text rest) (hbegun : Begun collected) :
    IsComplete collected text := by
  have htakes := h ▸ takes_round collected ds
  cases htakes with
  | completed isLine hcomplete => exact isComplete_of_complete? hbegun isLine hcomplete

theorem round_hangUp (collected : List Char) {ds : List Delivery} (h : .hangUp ∈ ds) :
    (∃ collected' rest, round collected ds = .again collected' rest ∧ .hangUp ∈ rest) ∨
      (round collected ds).result?.isSome := by
  obtain ⟨hpending, hrest⟩ := readLine_hangUp [] h
  unfold round
  rcases hread : readLine [] ds with ⟨raw | f | -, rest⟩ <;> rw [hread] at hpending hrest
  · dsimp only
    split_ifs
    · exact Or.inr rfl
    cases text? raw with
    | none => exact Or.inl ⟨_, _, rfl, hrest⟩
    | some line =>
      dsimp only
      cases complete? collected line with
      | none => exact Or.inl ⟨_, _, rfl, hrest⟩
      | some text => exact Or.inr rfl
  · exact Or.inr rfl
  · exact absurd rfl hpending

/-- What a call has collected after some rounds, and what is left to it of a stream. -/
inductive Rounds (ds : List Delivery) : Nat → List Char → List Delivery → Prop
  | start : Rounds ds 0 [] ds
  | again {n : Nat} {c c' : List Char} {rest rest' : List Delivery} (before : Rounds ds n c rest)
      (eq : round c rest = .again c' rest') : Rounds ds (n + 1) c' rest'

namespace Rounds

variable {ds rest : List Delivery} {n : Nat} {c : List Char}

theorem begun (h : Rounds ds n c rest) : Begun c := by
  induction h with
  | start => exact begun_nil
  | again _ eq ih => exact (round_again eq).2 ih

theorem bytesLeft_le (h : Rounds ds n c rest) : n + bytesLeft rest ≤ bytesLeft ds := by
  induction h with
  | start => exact Nat.le_of_eq (Nat.zero_add _)
  | again _ eq ih =>
    have htaken := (round_again eq).1
    omega

theorem call_eq (h : Rounds ds n c rest) : call [] ds = call c rest := by
  induction h with
  | start => rfl
  | again _ eq ih => rw [ih, call_eq_round, eq]

theorem exists_result (h : Rounds ds n c rest) (hends : .hangUp ∈ rest) :
    ∃ n' c' rest' o rest'', Rounds ds n' c' rest' ∧
      (round c' rest').result? = some (o, rest'') ∧ call [] ds = (some o, rest'') := by
  induction hleft : bytesLeft rest using Nat.strong_induction_on generalizing n c rest with
  | _ k ih =>
    rcases round_hangUp c hends with ⟨c', rest', hagain, hends'⟩ | hresult
    · exact ih _ (hleft ▸ (round_again hagain).1) (h.again hagain) hends' rfl
    · obtain ⟨⟨o, rest''⟩, hresult⟩ := Option.isSome_iff_exists.1 hresult
      exact ⟨n, c, rest, o, rest'', h, hresult, h.call_eq.trans (call_of_result? hresult)⟩

end Rounds

/-- A call goes round with nothing collected, or a telegram that has begun. Every round that does
not end it takes a byte, so a stream that ends brings it to an end, and what it hands over is
complete. It hands on what the bytes and failures say, however they were delivered. -/
theorem rounds_bounded (ds : List Delivery) :
    (∀ c rest c' rest', round c rest = .again c' rest' → bytesLeft rest' < bytesLeft rest) ∧
    (∀ n c rest, Rounds ds n c rest →
      Begun c ∧ n + bytesLeft rest ≤ bytesLeft ds ∧ call [] ds = call c rest) ∧
    (∀ n c rest text rest', Rounds ds n c rest → round c rest = .hands text rest' →
      IsComplete c text) ∧
    (.hangUp ∈ ds → ∃ n c rest o rest', Rounds ds n c rest ∧
      (round c rest).result? = some (o, rest') ∧ call [] ds = (some o, rest')) ∧
    ∀ s, Cuts s ds → (call [] ds).1 = (fresh.all ds).head? := by
  refine ⟨fun _ _ _ _ hagain => (round_again hagain).1,
    fun _ _ _ h => ⟨h.begun, h.bytesLeft_le, h.call_eq⟩,
    fun _ _ _ _ _ h hhands => round_hands hhands h.begun,
    fun hends => Rounds.start.exists_result hends, fun s hcuts => ?_⟩
  have hcalls : Calls (fresh.outcomes s) (call [] ds) := calls_call hcuts []
  rw [all_eq_outcomes hcuts]
  generalize call [] ds = x at hcalls
  cases hcalls with
  | more _ eq => rw [eq, List.head?_cons]
  | ended eq => rw [eq, List.head?_cons]

end Reader

end HomeMetering.Telegram
