import HomeMetering.Proofs.Telegram.Framing

/-!
# However the bytes arrive

A call takes one line after another out of a buffer that holds the rest of one piece: it looks for a
line feed in what is there, up to the limit of a line, and has the buffer filled again when it has
taken all of it. A border of two pieces may fall inside a line or a character, at the limit, or next
to a failed read: what the calls hand on is what the bytes and failures say.
-/

namespace HomeMetering.Telegram

open Text.Utf8 (encode)

/-- What a stream is made of. -/
inductive Arrival where
  | byte (b : UInt8)
  | failure (f : IoFailure)
  deriving Repr, DecidableEq

/-- Deliveries that cut a stream up to its end into pieces, none of which is empty. -/
inductive Cuts : List Arrival → List Delivery → Prop
  | hangUp : Cuts [] [.hangUp]
  | bytes {bs : List UInt8} {s : List Arrival} {ds : List Delivery} (filled : bs ≠ [])
      (rest : Cuts s ds) : Cuts (bs.map .byte ++ s) (.bytes bs :: ds)
  | failure {f : IoFailure} {s : List Arrival} {ds : List Delivery} (rest : Cuts s ds) :
      Cuts (.failure f :: s) (.failure f :: ds)

namespace Reader

/-! ## Outcomes of a stream -/

/-- Every outcome of a stream, byte by byte. -/
def outcomes (r : Reader) : List Arrival → List Outcome
  | [] => r.last
  | .failure f :: s => .failed f :: outcomes fresh s
  | .byte b :: s => (r.push b).2.toList ++ outcomes (r.push b).1 s

theorem outcomes_bytes (r : Reader) (bs : List UInt8) (s : List Arrival) :
    r.outcomes (bs.map .byte ++ s) = (r.allOfBytes bs).2 ++ (r.allOfBytes bs).1.outcomes s := by
  induction bs generalizing r with
  | nil => rfl
  | cons b bs ih =>
    simp only [List.map_cons, List.cons_append, outcomes, allOfBytes, ih, List.append_assoc]

theorem all_eq_outcomes {s : List Arrival} {ds : List Delivery} (h : Cuts s ds) (r : Reader) :
    r.all ds = r.outcomes s := by
  induction h generalizing r with
  | hangUp => rfl
  | bytes _ _ ih => rw [outcomes_bytes, ← ih]; rfl
  | failure _ ih => exact congrArg _ (ih fresh)

theorem allOfBytes_inside (line : List UInt8) (c : List Char) {bs : List UInt8}
    (hbs : newline ∉ bs) (hlen : line.length + bs.length < maxLine) :
    allOfBytes ⟨line.reverse, c⟩ bs = (⟨(line ++ bs).reverse, c⟩, []) := by
  induction bs generalizing line with
  | nil => rw [List.append_nil]; rfl
  | cons b bs ih =>
    obtain ⟨hb, hbs⟩ := List.ne_and_not_mem_of_not_mem_cons hbs
    rw [List.length_cons] at hlen
    have hpush := push_inside ⟨line.reverse, c⟩ (Ne.symm hb)
      (by rw [List.length_reverse]; omega)
    have hrest := ih (line ++ [b]) hbs
      (by rw [List.length_append, List.length_singleton]; omega)
    rw [List.reverse_append, List.append_assoc] at hrest
    rw [allOfBytes, hpush]
    exact congrArg (fun x : Reader × List Outcome => (x.1, [] ++ x.2)) hrest

theorem last_of_line_nil (c : List Char) : last ⟨[], c⟩ = [.failed .endOfStream] := rfl

theorem last_of_line (c : List Char) {raw : List UInt8} (h : raw ≠ []) :
    last ⟨raw.reverse, c⟩ = (takeLine c raw).2.toList ++ (takeLine c raw).1.outcomes [] := by
  have hafter : (takeLine c raw).1.outcomes [] = [.failed .endOfStream] := by
    rw [← last_of_line_nil (takeLine c raw).1.collected, ← takeLine_line c raw]
    rfl
  have hfinish : (finish ⟨raw.reverse, c⟩).2 = (takeLine c raw).2.getD (.failed .endOfStream) := by
    unfold finish
    rw [if_neg (by simpa using h), List.reverse_reverse]
    rcases takeLine c raw with ⟨r, _ | o⟩ <;> rfl
  rw [hafter, last, hfinish]
  cases htake : (takeLine c raw).2 with
  | none => rfl
  | some o =>
    have hne := (takeLine_some htake).2 .endOfStream
    cases o with
    | failed f => cases f <;> first | rfl | exact absurd rfl hne
    | telegram t => rfl
    | rejected e => rfl

theorem push_complete (line : List UInt8) (c : List Char) {b : UInt8}
    (h : b = newline ∨ line.length + 1 = maxLine) :
    push ⟨line.reverse, c⟩ b = takeLine c (line ++ [b]) := by
  unfold push
  dsimp only
  rw [if_pos (by simpa using h), List.reverse_cons, List.reverse_reverse]

/-! ## Lines from a buffer -/

/-- What comes of reading a line. -/
inductive LineRead where
  /-- The bytes up to a line feed, the limit or the end of the stream. -/
  | line (raw : List UInt8)
  | failed (f : IoFailure)
  /-- Nothing more has been delivered. -/
  | pending
  deriving Repr, DecidableEq

/-- What is to be read when the buffer holds the rest of a piece; an empty one is filled again. -/
def buffered (bs : List UInt8) (ds : List Delivery) : List Delivery :=
  if bs.isEmpty then ds else .bytes bs :: ds

/-- Reads on in a line of which some bytes were taken from earlier pieces. -/
def readLine (line : List UInt8) : List Delivery → LineRead × List Delivery
  | [] => (.pending, [])
  | .failure f :: ds => (.failed f, ds)
  | .hangUp :: ds => (.line line, .hangUp :: ds)
  | .bytes bs :: ds =>
    let window := bs.take (maxLine - line.length)
    let before := window.takeWhile (· != newline)
    if before.length < window.length then
      (.line (line ++ before ++ [newline]), buffered (bs.drop (before.length + 1)) ds)
    else if window.isEmpty || (line ++ window).length = maxLine then
      (.line (line ++ window), buffered (bs.drop window.length) ds)
    else readLine (line ++ window) ds

/-- What reading a line that has begun comes to, and what is left of the stream then. -/
inductive ReadsLine (c : List Char) (line : List UInt8) (s : List Arrival) :
    LineRead × List Delivery → Prop
  | whole {raw : List UInt8} {s' : List Arrival} {ds : List Delivery} (filled : raw ≠ [])
      (cuts : Cuts s' ds)
      (eq : outcomes ⟨line.reverse, c⟩ s =
        (takeLine c raw).2.toList ++ (takeLine c raw).1.outcomes s') :
      ReadsLine c line s (.line raw, ds)
  | ended (eq : outcomes ⟨line.reverse, c⟩ s = [.failed .endOfStream]) :
      ReadsLine c line s (.line [], [.hangUp])
  | failed {f : IoFailure} {s' : List Arrival} {ds : List Delivery} (cuts : Cuts s' ds)
      (eq : outcomes ⟨line.reverse, c⟩ s = .failed f :: fresh.outcomes s') :
      ReadsLine c line s (.failed f, ds)

theorem ReadsLine.of_eq {c : List Char} {line line' : List UInt8} {s s' : List Arrival}
    {x : LineRead × List Delivery} (h : ReadsLine c line s x)
    (heq : outcomes ⟨line'.reverse, c⟩ s' = outcomes ⟨line.reverse, c⟩ s) :
    ReadsLine c line' s' x := by
  cases h with
  | whole filled cuts eq => exact .whole filled cuts (heq.trans eq)
  | ended eq => exact .ended (heq.trans eq)
  | failed cuts eq => exact .failed cuts (heq.trans eq)

theorem cuts_buffered {s : List Arrival} {ds : List Delivery} (h : Cuts s ds) (bs : List UInt8) :
    Cuts (bs.map .byte ++ s) (buffered bs ds) := by
  cases bs with
  | nil => exact h
  | cons b bs => exact .bytes (List.cons_ne_nil b bs) h

theorem outcomes_window {line bs : List UInt8} (c : List Char) (s : List Arrival) {ws : List UInt8}
    {b : UInt8} {rest : List UInt8} (hbs : bs = ws ++ b :: rest) (hws : newline ∉ ws)
    (hlen : line.length + ws.length < maxLine)
    (hb : b = newline ∨ line.length + ws.length + 1 = maxLine) :
    outcomes ⟨line.reverse, c⟩ (bs.map .byte ++ s) =
      (takeLine c (line ++ ws ++ [b])).2.toList ++
        (takeLine c (line ++ ws ++ [b])).1.outcomes (rest.map .byte ++ s) := by
  have hpush := push_complete (line ++ ws) c (b := b) (by rwa [List.length_append])
  rw [hbs, List.map_append, List.append_assoc, outcomes_bytes, allOfBytes_inside line c hws hlen]
  simp only [List.nil_append, List.map_cons, List.cons_append, outcomes, hpush]

theorem exists_of_length_takeWhile_lt {α : Type} {p : α → Bool} {l : List α}
    (h : (l.takeWhile p).length < l.length) :
    ∃ a r, l = l.takeWhile p ++ a :: r ∧ p a = false := by
  induction l with
  | nil => exact absurd h (Nat.lt_irrefl _)
  | cons a l ih =>
    cases hp : p a with
    | false => exact ⟨a, l, by rw [List.takeWhile_cons, hp]; rfl, hp⟩
    | true =>
      rw [List.takeWhile_cons, hp] at h ⊢
      obtain ⟨b, r, hl, hb⟩ := ih (Nat.lt_of_succ_lt_succ h)
      exact ⟨b, r, congrArg (a :: ·) hl, hb⟩

theorem readsLine {s : List Arrival} {ds : List Delivery} (h : Cuts s ds) (c : List Char)
    (line : List UInt8) (hlen : line.length < maxLine) :
    ReadsLine c line s (readLine line ds) := by
  induction h generalizing line with
  | hangUp =>
    by_cases hline : line = []
    · subst hline
      exact .ended rfl
    · exact .whole hline .hangUp (last_of_line c hline)
  | failure rest _ => exact .failed rest rfl
  | @bytes bs s ds filled rest ih =>
    unfold readLine
    dsimp only
    generalize hwindow : bs.take (maxLine - line.length) = window
    have hsplit : bs = window ++ bs.drop (maxLine - line.length) := by
      rw [← hwindow, List.take_append_drop]
    have hroom : window.length ≤ maxLine - line.length := hwindow ▸ List.length_take_le ..
    have hbefore : newline ∉ window.takeWhile (· != newline) := by
      intro hmem
      simpa using List.mem_takeWhile_imp hmem
    split_ifs with hfeed hfull
    · -- The line ends in this piece.
      obtain ⟨b, after, hline, hb⟩ := exists_of_length_takeWhile_lt hfeed
      generalize window.takeWhile (· != newline) = before at hfeed hbefore hline
      obtain rfl : b = newline := by simpa using hb
      have hbs : bs = before ++ newline :: (after ++ bs.drop (maxLine - line.length)) := by
        rw [← List.cons_append, ← List.append_assoc, ← hline]
        exact hsplit
      have hdrop : bs.drop (before.length + 1) = after ++ bs.drop (maxLine - line.length) := by
        conv_lhs => rw [hbs]
        rw [List.drop_length_add_append]
        rfl
      rw [hdrop]
      exact .whole (by simp) (cuts_buffered rest _)
        (outcomes_window c s hbs hbefore (by omega) (.inl rfl))
    all_goals
      have hall : window.takeWhile (· != newline) = window :=
        (List.takeWhile_prefix _).eq_of_length_le (Nat.not_lt.1 hfeed)
      rw [hall] at hbefore
    · -- The limit falls into this piece.
      have hfilled : window ≠ [] := by
        intro hnil
        rw [hnil, List.take_eq_nil_iff] at hwindow
        exact hwindow.elim (by omega) filled
      have hmax : (line ++ window).length = maxLine := by simpa [hfilled] using hfull
      have hlast := List.dropLast_concat_getLast hfilled
      generalize window.dropLast = ws, window.getLast hfilled = b at hlast
      subst hlast
      rw [← List.append_assoc, List.length_append, List.length_append,
        List.length_singleton] at hmax
      have hbs : bs = ws ++ b :: bs.drop (ws ++ [b]).length := by
        have hk : (ws ++ [b]).length = maxLine - line.length := by
          rw [List.length_append, List.length_singleton]
          omega
        rw [hk, ← List.singleton_append, ← List.append_assoc]
        exact hsplit
      rw [← List.append_assoc]
      exact .whole (by simp) (cuts_buffered rest _)
        (outcomes_window c s hbs (fun hmem => hbefore (List.mem_append_left _ hmem)) (by omega)
          (.inr hmax))
    · -- All of the piece belongs to the line.
      obtain ⟨-, hmax⟩ : window ≠ [] ∧ line.length + window.length ≠ maxLine := by
        simpa using hfull
      obtain rfl : window = bs := by
        rw [← hwindow]
        refine List.take_of_length_le ?_
        have := congrArg List.length hwindow
        rw [List.length_take] at this
        omega
      refine (ih (line ++ window) (by rw [List.length_append]; omega)).of_eq ?_
      rw [outcomes_bytes, allOfBytes_inside line c hbefore (by omega)]
      rfl

/-! ## Calls on a buffer -/

theorem remaining_buffered (bs : List UInt8) (ds : List Delivery) {n : Nat} (h : n ≤ bs.length) :
    n + remaining (buffered (bs.drop n) ds) ≤ remaining (.bytes bs :: ds) := by
  unfold buffered
  split_ifs <;> simp only [remaining, List.length_drop] <;> omega

theorem remaining_readLine {line raw : List UInt8} {ds rest : List Delivery}
    (h : readLine line ds = (.line raw, rest)) :
    raw.length + remaining rest ≤ line.length + remaining ds := by
  induction ds generalizing line with
  | nil => cases h
  | cons d ds ih =>
    cases d with
    | failure f => cases h
    | hangUp =>
      cases h
      exact Nat.le_refl _
    | bytes bs =>
      have hwindow := List.length_take_le' (maxLine - line.length) bs
      unfold readLine at h
      dsimp only at h
      split_ifs at h with hfeed hfull
      · cases h
        have := remaining_buffered bs ds (n := _ + 1) (Nat.le_trans hfeed hwindow)
        simp only [List.length_append, List.length_singleton]
        omega
      · cases h
        have := remaining_buffered bs ds hwindow
        rw [List.length_append]
        omega
      · have := ih h
        rw [List.length_append] at this
        simp only [remaining]
        omega

/-- A call with the text that is collected so far: lines are read until one of them, a failure or
the end of the stream has an outcome. -/
def call (collected : List Char) (ds : List Delivery) : Option Outcome × List Delivery :=
  match _h : readLine [] ds with
  | (.pending, rest) => (none, rest)
  | (.failed f, rest) => (some (.failed f), rest)
  | (.line raw, rest) =>
    if _hraw : raw = [] then (some (.failed .endOfStream), rest)
    else match takeLine collected raw with
      | (_, some o) => (some o, rest)
      | (r, none) => call r.collected rest
termination_by remaining ds
decreasing_by
  have hpos := List.length_pos_iff.2 _hraw
  have hle := remaining_readLine _h
  rw [List.length_nil] at hle
  omega

/-- What some calls on a stream hand on, one after the other. -/
def calls : Nat → List Delivery → List Outcome
  | 0, _ => []
  | n + 1, ds =>
    match call [] ds with
    | (some o, rest) => o :: calls n rest
    | (none, _) => []

/-- What a call comes to: it hands on the first outcome, and what is left has the others. -/
inductive Calls (os : List Outcome) : Option Outcome × List Delivery → Prop
  | more {o : Outcome} {s : List Arrival} {ds : List Delivery} (cuts : Cuts s ds)
      (eq : os = o :: fresh.outcomes s) : Calls os (some o, ds)
  | ended (eq : os = [.failed .endOfStream]) : Calls os (some (.failed .endOfStream), [.hangUp])

theorem call_of_line {c : List Char} {ds rest : List Delivery} {raw : List UInt8}
    (h : readLine [] ds = (.line raw, rest)) :
    call c ds =
      if raw = [] then (some (.failed .endOfStream), rest)
      else match (takeLine c raw).2 with
        | some o => (some o, rest)
        | none => call (takeLine c raw).1.collected rest := by
  rw [call]
  split
  · next heq => rw [h] at heq; cases heq
  · next heq => rw [h] at heq; cases heq
  · next heq =>
    rw [h] at heq
    cases heq
    rcases takeLine c raw with ⟨r, _ | o⟩ <;> split_ifs <;> rfl

theorem call_of_failed {c : List Char} {ds rest : List Delivery} {f : IoFailure}
    (h : readLine [] ds = (.failed f, rest)) : call c ds = (some (.failed f), rest) := by
  rw [call]
  split <;> next heq => rw [h] at heq; cases heq <;> rfl

theorem calls_call {s : List Arrival} {ds : List Delivery} (h : Cuts s ds) (c : List Char) :
    Calls (outcomes ⟨[], c⟩ s) (call c ds) := by
  induction hn : remaining ds using Nat.strong_induction_on generalizing s ds c with
  | _ n ih =>
    have hread := readsLine h c [] (by decide)
    generalize hx : readLine [] ds = x at hread
    cases hread with
    | failed cuts eq =>
      rw [call_of_failed hx]
      exact .more cuts eq
    | ended eq =>
      rw [call_of_line hx, if_pos rfl]
      exact .ended eq
    | @whole raw s' rest filled cuts eq =>
      rw [call_of_line hx, if_neg filled]
      have hreader : (takeLine c raw).1 = ⟨[], (takeLine c raw).1.collected⟩ := by
        rw [← takeLine_line c raw]
      rw [hreader] at eq
      cases htake : (takeLine c raw).2 with
      | some o =>
        rw [← hreader, (takeLine_some htake).1, htake] at eq
        exact .more cuts eq
      | none =>
        have hlt : remaining rest < n := by
          have hpos := List.length_pos_iff.2 filled
          have hle := remaining_readLine hx
          rw [List.length_nil] at hle
          omega
        rw [htake] at eq
        rw [List.reverse_nil, Option.toList_none, List.nil_append] at eq
        exact eq ▸ ih _ hlt cuts _ rfl

/-- What a stream hands on and, from then on, that it has ended. -/
def endless (os : List Outcome) (n : Nat) : List Outcome :=
  (os ++ List.replicate n (Outcome.failed .endOfStream)).take n

theorem endless_cons (o : Outcome) (os : List Outcome) (n : Nat) :
    endless (o :: os) (n + 1) = o :: endless os n := by
  unfold endless
  rw [List.cons_append, List.take_succ_cons, List.replicate_succ', ← List.append_assoc,
    List.take_append_of_le_length (by simp)]

theorem endless_end (os : List Outcome) (n : Nat) :
    endless (os ++ [.failed .endOfStream]) n = endless os n := by
  unfold endless
  rw [List.append_assoc, List.singleton_append, ← List.replicate_succ, List.replicate_succ',
    ← List.append_assoc, List.take_append_of_le_length (by simp)]

/-- One call after another hands on every outcome of the stream, and then always its end. -/
theorem calls_eq {s : List Arrival} {ds : List Delivery} (h : Cuts s ds) (n : Nat) :
    calls n ds = endless (fresh.outcomes s) n := by
  induction n generalizing s ds with
  | zero => rfl
  | succ n ih =>
    have hcall : Calls (fresh.outcomes s) (call [] ds) := calls_call h []
    unfold calls
    generalize call [] ds = x at hcall
    cases hcall with
    | more cuts eq => rw [eq, endless_cons, ← ih cuts]
    | ended eq =>
      rw [eq, endless_cons]
      exact congrArg _ ((ih .hangUp).trans (endless_end [] n))

/-- Neither what a stream hands on as a whole nor what any number of calls on it do depends on the
pieces in which it arrives. -/
theorem outcomes_of_cuts {s : List Arrival} {ds ds' : List Delivery} (h : Cuts s ds)
    (h' : Cuts s ds') :
    fresh.all ds = fresh.all ds' ∧
      ∀ n, calls n ds = calls n ds' ∧ calls n ds = endless (fresh.all ds) n := by
  rw [all_eq_outcomes h, all_eq_outcomes h']
  exact ⟨rfl, fun n => ⟨(calls_eq h n).trans (calls_eq h' n).symm, calls_eq h n⟩⟩

end Reader

/-! ## A telegram, a failed read and the same telegram again -/

theorem cuts_singly (bs : List UInt8) {s : List Arrival} {ds : List Delivery} (h : Cuts s ds) :
    Cuts (bs.map .byte ++ s) (bs.map (fun b => .bytes [b]) ++ ds) := by
  induction bs with
  | nil => exact h
  | cons b bs ih => exact .bytes (List.cons_ne_nil b []) ih

def smallBytes : List UInt8 := encode (Body.small.closedBy Body.smallTrailer)

/-- A read fails in the middle of a header line. -/
def interrupted : List Arrival :=
  smallBytes.map .byte ++ ((smallBytes.take 5).map .byte ++
    .failure (.other "framing") :: (smallBytes.map .byte ++ []))

/-- The same with the bytes before and after the failure in pieces. -/
def interruptedIn (cut : List UInt8 → List Delivery) : List Delivery :=
  cut smallBytes ++ (cut (smallBytes.take 5) ++
    .failure (.other "framing") :: (cut smallBytes ++ [.hangUp]))

theorem interrupted_in_pieces :
    let whole := interruptedIn fun bs => [.bytes bs]
    let singly := interruptedIn fun bs => bs.map fun b => .bytes [b]
    let telegram := Reader.outcomeOf (parse (Body.small.closedBy Body.smallTrailer))
    Cuts interrupted whole ∧ Cuts interrupted singly ∧
      Reader.fresh.all whole = Reader.fresh.all singly ∧
      Reader.calls 4 whole = Reader.calls 4 singly ∧
      Reader.fresh.all whole =
        [telegram, .failed (.other "framing"), telegram, .failed .endOfStream] := by
  intro whole singly telegram
  have hwhole : Cuts interrupted whole :=
    .bytes (by decide) (.bytes (by decide) (.failure (.bytes (by decide) .hangUp)))
  have hsingly : Cuts interrupted singly :=
    cuts_singly _ (cuts_singly _ (.failure (cuts_singly _ .hangUp)))
  have hsame := Reader.outcomes_of_cuts hwhole hsingly
  exact ⟨hwhole, hsingly, hsame.1, (hsame.2 4).1, by decide +kernel⟩

end HomeMetering.Telegram
