import HomeMetering.Proofs.Telegram.Checksum
import HomeMetering.Proofs.Text.Utf8

/-!
# No telegram is lost in the noise

A reader that starts a line has nothing of an earlier one, and a header line drops whatever was
collected before it. So a telegram that keeps to the limits is handed on whatever precedes it, and
what follows it is read as if it stood alone.
-/

namespace HomeMetering.Telegram

open Text.Utf8 (encode)

namespace Reader

/-! ## Calls -/

/-- What is left to be read. -/
def remaining : List Delivery → Nat
  | [] => 0
  | .bytes bs :: ds => bs.length + 1 + remaining ds
  | _ :: ds => 1 + remaining ds

theorem outcomeOf_ne_failed (result : Except TelegramError Telegram) (f : IoFailure) :
    outcomeOf result ≠ .failed f := by
  cases result <;> simp [outcomeOf]

theorem takeText_some {collected line : List Char} {result : Except TelegramError Telegram}
    (h : (takeText collected line).2 = some result) : (takeText collected line).1 = [] := by
  revert h
  unfold takeText
  dsimp only
  split_ifs <;> simp

theorem takeLine_line (collected : List Char) (raw : List UInt8) :
    (takeLine collected raw).1.line = [] := by
  unfold takeLine
  cases text? raw <;> rfl

theorem takeLine_some {collected : List Char} {raw : List UInt8} {o : Outcome}
    (h : (takeLine collected raw).2 = some o) :
    (takeLine collected raw).1 = fresh ∧ ∀ f, o ≠ .failed f := by
  unfold takeLine at h ⊢
  cases ht : text? raw with
  | none =>
    rw [ht] at h
    cases h
  | some line =>
    rw [ht] at h
    obtain ⟨result, hresult, rfl⟩ := Option.map_eq_some_iff.1 h
    refine ⟨?_, outcomeOf_ne_failed result⟩
    rw [fresh, ← takeText_some hresult]

theorem push_some {r : Reader} {b : UInt8} {o : Outcome} (h : (r.push b).2 = some o) :
    (r.push b).1 = fresh ∧ ∀ f, o ≠ .failed f := by
  unfold push at h ⊢
  dsimp only at h ⊢
  split_ifs at h ⊢
  exact takeLine_some h

theorem push_newline (r : Reader) :
    r.push newline = takeLine r.collected (r.line.reverse ++ [newline]) := by
  unfold push
  simp

theorem push_inside (r : Reader) {b : UInt8} (hb : b ≠ newline)
    (hlen : r.line.length + 1 < maxLine) : r.push b = ({ r with line := b :: r.line }, none) := by
  have hmax : r.line.length + 1 ≠ maxLine := by omega
  unfold push
  simp [hb, hmax]

theorem finish_of_line_nil {r : Reader} (h : r.line = []) :
    r.finish.2 = .failed .endOfStream := by
  unfold finish
  rw [h]
  rfl

theorem takeBytes_some {r r' : Reader} {bs rest : List UInt8} {o : Outcome}
    (h : r.takeBytes bs = (r', some (o, rest))) :
    rest.length < bs.length ∧ (∀ f, o ≠ .failed f) ∧
      r.allOfBytes bs = ((fresh.allOfBytes rest).1, o :: (fresh.allOfBytes rest).2) := by
  induction bs generalizing r with
  | nil => simp [takeBytes] at h
  | cons b bs ih =>
    unfold takeBytes at h
    cases hpush : r.push b with
    | mk r1 o1 =>
      rw [hpush] at h
      cases o1 with
      | none =>
        obtain ⟨hlt, hne, hall⟩ := ih h
        refine ⟨Nat.lt_succ_of_lt hlt, hne, ?_⟩
        simp only [allOfBytes, hpush, hall, Option.toList_none, List.nil_append]
      | some o' =>
        obtain ⟨rfl, hmore⟩ := Prod.mk.inj h
        obtain ⟨rfl, rfl⟩ := Prod.mk.inj (Option.some.inj hmore)
        have hsome := push_some (congrArg Prod.snd hpush)
        rw [hpush] at hsome
        obtain rfl : r1 = fresh := hsome.1
        refine ⟨Nat.lt_succ_self _, hsome.2, ?_⟩
        simp only [allOfBytes, hpush, Option.toList_some, List.singleton_append]

theorem takeBytes_none {r r' : Reader} {bs : List UInt8} (h : r.takeBytes bs = (r', none)) :
    r.allOfBytes bs = (r', []) ∧ r'.line.length ≤ r.line.length + bs.length := by
  induction bs generalizing r with
  | nil =>
    obtain ⟨rfl, -⟩ := Prod.mk.inj h
    exact ⟨rfl, Nat.le_refl _⟩
  | cons b bs ih =>
    unfold takeBytes at h
    cases hpush : r.push b with
    | mk r1 o1 =>
      rw [hpush] at h
      cases o1 with
      | some o => cases h
      | none =>
        obtain ⟨hall, hlen⟩ := ih h
        refine ⟨by simp only [allOfBytes, hpush, hall, Option.toList_none, List.nil_append], ?_⟩
        have hone : r1.line.length ≤ r.line.length + 1 := by
          have hr1 : r1 = (r.push b).1 := by rw [hpush]
          rw [hr1]
          unfold push
          dsimp only
          split_ifs
          · rw [takeLine_line]
            exact Nat.zero_le _
          · exact Nat.le_refl _
        rw [List.length_cons]
        omega

theorem remaining_next (r : Reader) (ds : List Delivery) {o : Outcome} {rest : List Delivery}
    (h : (r.next ds).2 = (some o, rest)) (ho : o ≠ .failed .endOfStream) :
    remaining rest < remaining ds + r.line.length := by
  induction ds generalizing r with
  | nil => cases h
  | cons d ds ih =>
    cases d with
    | failure f =>
      obtain ⟨-, rfl⟩ := Prod.mk.inj h
      simp only [remaining]
      omega
    | hangUp =>
      have hcall : (r.next (.hangUp :: ds)).2 = (some r.finish.2, .hangUp :: ds) := rfl
      rw [hcall] at h
      obtain ⟨hfinish, rfl⟩ := Prod.mk.inj h
      have hline : r.line ≠ [] := by
        intro hnil
        exact ho (Option.some.inj hfinish ▸ finish_of_line_nil hnil)
      have hpos := List.length_pos_iff.2 hline
      omega
    | bytes bs =>
      unfold next at h
      cases htake : r.takeBytes bs with
      | mk r' taken =>
        rw [htake] at h
        cases taken with
        | some t =>
          obtain ⟨-, rfl⟩ := Prod.mk.inj h
          have hlt := (takeBytes_some htake).1
          simp only [remaining]
          omega
        | none =>
          have hlen := (takeBytes_none htake).2
          have hrest := ih r' h
          simp only [remaining]
          omega

/-- What one call after another hands on, up to the one that reports the end of the stream. Each
starts with nothing collected. -/
def readAll (ds : List Delivery) : List Outcome :=
  match _h : (fresh.next ds).2 with
  | (none, _) => []
  | (some o, rest) => if _ho : o = .failed .endOfStream then [] else o :: readAll rest
termination_by remaining ds
decreasing_by exact remaining_next fresh ds _h _ho

/-- What the calls on a stream of some bytes hand on. -/
def results (bs : List UInt8) : List Outcome := readAll [.bytes bs, .hangUp]

/-- What an unfinished line still yields at the end of a stream. -/
def unfinished (r : Reader) : List Outcome :=
  if r.finish.2 = .failed .endOfStream then [] else [r.finish.2]

theorem readAll_hangUp : readAll [.hangUp] = [] := by
  unfold readAll
  rfl

theorem results_eq (bs : List UInt8) :
    results bs = (fresh.allOfBytes bs).2 ++ (fresh.allOfBytes bs).1.unfinished := by
  induction hn : bs.length using Nat.strong_induction_on generalizing bs with
  | _ n ih =>
    unfold results readAll
    cases htake : fresh.takeBytes bs with
    | mk r taken =>
      cases taken with
      | some t =>
        have hnext : fresh.next [.bytes bs, .hangUp] =
            (r, some t.1, [.bytes t.2, .hangUp]) := by
          unfold next
          rw [htake]
        obtain ⟨hlt, hne, hall⟩ := takeBytes_some htake
        rw [hnext, hall]
        dsimp only
        rw [dif_neg (hne _)]
        exact congrArg (t.1 :: ·) (ih _ (hn ▸ hlt) t.2 rfl)
      | none =>
        have hnext : fresh.next [.bytes bs, .hangUp] =
            (r.finish.1, some r.finish.2, [.hangUp]) := by
          unfold next
          rw [htake]
          rfl
        rw [hnext, (takeBytes_none htake).1]
        dsimp only
        unfold unfinished
        rw [readAll_hangUp]
        split_ifs <;> rfl

theorem results_append_end (bs : List UInt8) :
    results bs ++ [.failed .endOfStream] = fresh.all [.bytes bs] := by
  have hlast : ∀ r : Reader, r.unfinished ++ [.failed .endOfStream] = r.last := by
    intro r
    unfold unfinished last
    split_ifs with h
    · rw [h]
      rfl
    · split
      · next heq => exact absurd heq h
      · rfl
  rw [results_eq, List.append_assoc, hlast]
  rfl

/-! ## Lines -/

theorem allOfBytes_line (r : Reader) (raw : List UInt8) (hraw : newline ∉ raw)
    (hlen : r.line.length + raw.length < maxLine) :
    r.allOfBytes (raw ++ [newline]) =
      ((takeLine r.collected (r.line.reverse ++ raw ++ [newline])).1,
        (takeLine r.collected (r.line.reverse ++ raw ++ [newline])).2.toList) := by
  induction raw generalizing r with
  | nil =>
    rw [List.nil_append, allOfBytes, push_newline, List.append_nil]
    exact congrArg (Prod.mk _) (List.append_nil _)
  | cons b raw ih =>
    have hb : b ≠ newline := by
      rintro rfl
      exact hraw List.mem_cons_self
    have hpush := r.push_inside hb (by rw [List.length_cons] at hlen; omega)
    have hrest := ih { r with line := b :: r.line } (fun hmem => hraw (List.mem_cons_of_mem _ hmem))
      (by simp only [List.length_cons] at hlen ⊢; omega)
    rw [List.cons_append, allOfBytes, hpush]
    dsimp only
    rw [hrest]
    simp

theorem encode_line (l : List Char) : encode (l ++ ['\n']) = encode l ++ [newline] :=
  Text.Utf8.encode_append l ['\n']

theorem text?_line (l : List Char) : text? (encode l ++ [newline]) = some (l ++ ['\n']) := by
  have hlast : (encode l ++ [newline]).getLast? = some newline := List.getLast?_concat
  unfold text?
  rw [hlast, ← encode_line, Text.Utf8.decode?_encode]
  simp

theorem allOfBytes_text (collected l : List Char) (hl : '\n' ∉ l)
    (hlen : (encode (l ++ ['\n'])).length ≤ maxLine) :
    allOfBytes ⟨[], collected⟩ (encode (l ++ ['\n'])) =
      (⟨[], (takeText collected (l ++ ['\n'])).1⟩,
        ((takeText collected (l ++ ['\n'])).2.map outcomeOf).toList) := by
  have hraw : newline ∉ encode l := fun hmem => hl (Text.Utf8.newline_mem_encode hmem)
  have hshort : ([] : List UInt8).length + (encode l).length < maxLine := by
    rw [encode_line, List.length_append, List.length_singleton] at hlen
    rw [List.length_nil]
    omega
  have hline := allOfBytes_line ⟨[], collected⟩ (encode l) hraw hshort
  have htake : takeLine collected (encode l ++ [newline]) =
      (⟨[], (takeText collected (l ++ ['\n'])).1⟩,
        (takeText collected (l ++ ['\n'])).2.map outcomeOf) := by
    unfold takeLine
    rw [text?_line]
  rw [encode_line]
  refine Eq.trans hline ?_
  rw [List.reverse_nil, List.nil_append, htake]

theorem line_eq_nil (r : Reader) {bs : List UInt8} (h : bs.getLast? = some newline) :
    (r.allOfBytes bs).1.line = [] := by
  obtain ⟨init, rfl⟩ := List.getLast?_eq_some_iff.1 h
  rw [allOfBytes_append]
  show ((r.allOfBytes init).1.push newline).1.line = []
  rw [push_newline]
  exact takeLine_line _ _

end Reader

/-! ## Telegrams -/

namespace Body

/-- A text that ends within its stream and keeps to the limits: no line is too long, and neither is
what stands before the trailer. -/
structure Fits (b : Body) (t : Trailer) : Prop where
  ended : t.isEnded = true
  lines : ∀ l ∈ ('/' :: b.header) :: ('!' :: t.rest) :: b.inner,
    (encode (l ++ ['\n'])).length ≤ Reader.maxLine
  whole : (encode b.text).length ≤ Reader.maxTelegram

instance (b : Body) (t : Trailer) : Decidable (b.Fits t) :=
  decidable_of_iff (t.isEnded = true ∧
      (∀ l ∈ ('/' :: b.header) :: ('!' :: t.rest) :: b.inner,
        (encode (l ++ ['\n'])).length ≤ Reader.maxLine) ∧
      (encode b.text).length ≤ Reader.maxTelegram)
    ⟨fun ⟨h, h', h''⟩ => ⟨h, h', h''⟩, fun ⟨h, h', h''⟩ => ⟨h, h', h''⟩⟩

theorem allOfBytes_inner (b : Body) (ls : List (List Char))
    (hline : ∀ l ∈ ls, '\n' ∉ l ∧ l.head? ≠ some '/' ∧ l.head? ≠ some '!')
    (hlen : ∀ l ∈ ls, (encode (l ++ ['\n'])).length ≤ Reader.maxLine)
    (hwhole : (encode (b.text ++ ls.flatMap (· ++ ['\n']))).length ≤ Reader.maxTelegram) :
    Reader.allOfBytes ⟨[], b.text⟩ (encode (ls.flatMap (· ++ ['\n']))) =
      (⟨[], b.text ++ ls.flatMap (· ++ ['\n'])⟩, []) := by
  induction ls generalizing b with
  | nil => simp [encode, Reader.allOfBytes]
  | cons l ls ih =>
    have hl := hline l List.mem_cons_self
    -- What is collected with this line is a body again.
    have htext : (b.addLine l hl).text = b.text ++ (l ++ ['\n']) := b.text_addLine l hl
    rw [List.flatMap_cons, ← List.append_assoc, ← htext] at hwhole
    have hkept : Reader.takeText b.text (l ++ ['\n']) = ((b.addLine l hl).text, none) := by
      have hsize : Text.Utf8.size (b.addLine l hl).text ≤ Reader.maxTelegram := by
        rw [Text.Utf8.encode_append, List.length_append, Text.Utf8.length_encode] at hwhole
        omega
      rw [htext] at hsize ⊢
      rw [takeText_of_inner b _ (by rw [Ne, head_append_newline _ _ (by decide)]; exact hl.2.1)
        (by rw [Ne, head_append_newline _ _ (by decide)]; exact hl.2.2),
        if_neg (Nat.not_lt.2 hsize)]
    have hfirst := Reader.allOfBytes_text b.text l hl.1 (hlen l List.mem_cons_self)
    rw [hkept] at hfirst
    have hrest := ih (b.addLine l hl) (fun l' hl' => hline l' (List.mem_cons_of_mem _ hl'))
      (fun l' hl' => hlen l' (List.mem_cons_of_mem _ hl')) hwhole
    rw [List.flatMap_cons, Text.Utf8.encode_append, Reader.allOfBytes_append, hfirst, hrest, htext,
      List.append_assoc]
    rfl

theorem allOfBytes_body (b : Body) (t : Trailer) (h : b.Fits t) (collected : List Char) :
    Reader.allOfBytes ⟨[], collected⟩ (encode b.text) = (⟨[], b.text⟩, []) := by
  let first : Body := ⟨b.header, [], b.header_line, by simp⟩
  have hfirst : first.text = '/' :: b.header ++ ['\n'] := rfl
  have htext : b.text = first.text ++ b.inner.flatMap (· ++ ['\n']) := by
    rw [hfirst, List.append_assoc]
    rfl
  have hslash : '\n' ∉ '/' :: b.header := by
    intro hmem
    rcases List.mem_cons.1 hmem with heq | hmem
    · exact absurd heq (by decide)
    · exact b.header_line hmem
  have hlen : (encode first.text).length ≤ Reader.maxLine := h.lines _ List.mem_cons_self
  have hkept : Reader.takeText collected first.text = (first.text, none) := by
    have hsize : ¬ Reader.maxTelegram < Text.Utf8.size first.text := by
      rw [← Text.Utf8.length_encode]
      exact Nat.not_lt.2 (Nat.le_trans hlen (by decide))
    rw [takeText_of_header _ _ rfl, if_neg hsize]
  have hheader := Reader.allOfBytes_text collected _ hslash hlen
  rw [← hfirst, hkept] at hheader
  have hinner := allOfBytes_inner first b.inner b.inner_line
    (fun l hl => h.lines l (List.mem_cons_of_mem _ (List.mem_cons_of_mem _ hl)))
    (htext ▸ h.whole)
  rw [htext, Text.Utf8.encode_append, Reader.allOfBytes_append, hheader, hinner]
  rfl

/-- A telegram is handed on, whatever was collected before it, and nothing of it stays. -/
theorem allOfBytes_closedBy (b : Body) (t : Trailer) (h : b.Fits t) (collected : List Char) :
    Reader.allOfBytes ⟨[], collected⟩ (encode (b.closedBy t)) =
      (Reader.fresh, [Reader.outcomeOf (parse (b.closedBy t))]) := by
  have hclosed : b.closedBy t = b.text ++ ('!' :: t.rest ++ ['\n']) := by
    unfold closedBy Trailer.ending
    rw [h.ended]
    rfl
  have hmark : '\n' ∉ '!' :: t.rest := by
    intro hmem
    rcases List.mem_cons.1 hmem with heq | hmem
    · exact absurd heq (by decide)
    · exact t.rest_line hmem
  have htrailer := Reader.allOfBytes_text b.text _ hmark
    (h.lines _ (List.mem_cons_of_mem _ List.mem_cons_self))
  rw [takeText_of_trailer b _ rfl] at htrailer
  rw [hclosed, Text.Utf8.encode_append, Reader.allOfBytes_append, b.allOfBytes_body t h, htrailer]
  rfl

end Body

/-- Noise that ends with a line loses no telegram after it, and no telegram what follows it. -/
theorem Body.results_around (b : Body) (t : Trailer) (h : b.Fits t) (before after : List UInt8)
    (hline : before = [] ∨ before.getLast? = some Reader.newline) :
    Reader.results (before ++ encode (b.closedBy t) ++ after) =
      Reader.results before ++ [Reader.outcomeOf (parse (b.closedBy t))] ++
        Reader.results after := by
  have hstart : (Reader.fresh.allOfBytes before).1.line = [] := by
    rcases hline with rfl | hlast
    · rfl
    · exact Reader.fresh.line_eq_nil hlast
  -- At the start of a line only what was collected is left of the noise.
  have hreader : (Reader.fresh.allOfBytes before).1 =
      ⟨[], (Reader.fresh.allOfBytes before).1.collected⟩ := by
    rw [← hstart]
  have hnoise : Reader.results before = (Reader.fresh.allOfBytes before).2 := by
    rw [Reader.results_eq, Reader.unfinished, if_pos (Reader.finish_of_line_nil hstart),
      List.append_nil]
  have htelegram := b.allOfBytes_closedBy t h (Reader.fresh.allOfBytes before).1.collected
  rw [← hreader] at htelegram
  rw [hnoise, Reader.results_eq (_ ++ after), Reader.results_eq after, List.append_assoc before,
    Reader.allOfBytes_append, Reader.allOfBytes_append, htelegram]
  simp only [List.append_assoc]

/-- A header line, and a line that is no text. -/
def noise : List UInt8 := encode ['/', 'K', '\n'] ++ [0xFF, 0x21, Reader.newline]

/-- An object line that is cut off. -/
def cutOff : List UInt8 := encode ['1', '-', '0']

theorem Body.small_between_noise :
    Body.small.Fits Body.smallTrailer ∧ noise.getLast? = some Reader.newline ∧
      Reader.results (noise ++ encode (Body.small.closedBy Body.smallTrailer) ++ cutOff) =
        Reader.results noise ++
          [Reader.outcomeOf (parse (Body.small.closedBy Body.smallTrailer))] ++
          Reader.results cutOff :=
  ⟨by decide +kernel, by decide,
    Body.results_around _ _ (by decide +kernel) _ _ (Or.inr (by decide))⟩

end HomeMetering.Telegram
