import HomeMetering.Proofs.Meter.Keeping

/-!
# What a round asks for

The registers that a job reads of a block are those that it asks for and is answered in full. A job
that ends early or goes another way asks for less, and a block that nobody asked for was not read.
-/

namespace HomeMetering

open Modbus Site Site.Job

namespace Site.Job

variable {α β : Type}

/-- The requests of a job, in order. -/
def asked (answer : (q : Request) → q.Answer) : Job α → List Request
  | done _ => []
  | ask q next => q :: (next (answer q)).asked answer

theorem asked_seq (answer : (q : Request) → q.Answer) (x : Job α) (f : α → Job β) :
    (x >>= f).asked answer = x.asked answer ++ (f (x.outcome answer)).asked answer := by
  induction x with
  | done a => rfl
  | ask q next ih => exact congrArg (q :: ·) (ih (answer q))

end Site.Job

namespace Meter.Round

variable {α β : Type} (c : Round) (link : Link) (block : Block)

/-- The registers of a block, from a request that asks for them. -/
def registers? : Request → Option (List UInt16)
  | .read client b => if client = link.client ∧ b = block then c.read? link block else none
  | _ => none

/-- The registers of a block that a job reads in a round. -/
def reads (job : Job α) : List (List UInt16) :=
  (job.asked c.answer).filterMap (c.registers? link block)

theorem reads_pure (a : α) : c.reads link block (pure a : Job α) = [] := rfl

theorem reads_seq (x : Job α) (f : α → Job β) :
    c.reads link block (x >>= f) =
      c.reads link block x ++ c.reads link block (f (x.outcome c.answer)) := by
  unfold reads
  rw [asked_seq, List.filterMap_append]

theorem reads_map (x : Job α) (f : α → β) :
    c.reads link block (do return f (← x)) = c.reads link block x := by
  rw [reads_seq, reads_pure, List.append_nil]

theorem reads_read (b : Block) :
    c.reads link block (link.read b) = if b = block then (c.read? link block).toList else [] := by
  have hasked : (link.read b).asked c.answer =
      [.lock link.client, .select link.client link.unit, .read link.client b,
        .unlock link.client] := rfl
  unfold reads
  rw [hasked]
  by_cases hb : b = block
  · cases hread : c.read? link block <;> simp [List.filterMap_cons, registers?, hb, hread]
  · simp [List.filterMap_cons, registers?, hb]

theorem reads_of_ne {b : Block} (h : b ≠ block) : c.reads link block (link.read b) = [] := by
  rw [reads_read, if_neg h]

theorem reads_self : c.reads link block (link.read block) = (c.read? link block).toList := by
  rw [reads_read, if_pos rfl]

/-- A round in which some blocks are answered and no others. -/
def answering (blocks : List (Block × List UInt16)) : Round where
  now := ⟨0⟩
  answer
    | .read _ block => ((blocks.lookup block).map .ok).getD (.error .timeout)
    | q => ((Site.new [] [] ⟨fun _ => .timeout, .endOfStream⟩).answer q).1

variable {K : Type}

theorem reads_pollState (setup : Setup) (cache : Cache K)
    (instant : Job (Except BusError Electricity.State)) :
    c.reads link block (pollState setup cache instant) =
      if setup.has .state then c.reads link block instant else [] := by
  unfold pollState
  split_ifs
  · rw [reads_seq]
    cases instant.outcome c.answer <;> exact List.append_nil _
  · rfl

theorem reads_pollUsage (setup : Setup) (cache : Cache K)
    (totals : Job (Except BusError (Electricity.Usage K))) :
    c.reads link block (pollUsage setup c.now cache totals) =
      if setup.has .usage ∧ cache.gate.last ≠ some c.minute then c.reads link block totals
      else [] := by
  unfold pollUsage MinuteGate.due minute
  by_cases hhas : setup.has .usage
  · by_cases hsame : cache.gate.last = some c.now.minuteOfHour
    · simp only [hhas, hsame, if_true, ne_eq, not_true_eq_false, and_false, if_false]
      exact reads_pure ..
    · simp only [hhas, hsame, if_true, if_false, ne_eq, not_false_eq_true, and_self]
      rw [reads_seq]
      cases totals.outcome c.answer <;> exact List.append_nil _
  · simp only [hhas, Bool.false_eq_true, false_and, if_false]
    exact reads_pure ..

theorem reads_poll (setup : Setup) (cache : Cache K)
    (instant : Job (Except BusError Electricity.State))
    (totals : Job (Except BusError (Electricity.Usage K))) :
    c.reads link block (poll setup c.now cache instant totals) =
      (if setup.has .state then c.reads link block instant else []) ++
        if setup.has .usage ∧ cache.gate.last ≠ some c.minute then c.reads link block totals
        else [] := by
  unfold poll
  rw [reads_seq, reads_pollState, outcome_pollState]
  dsimp only
  rw [reads_map, reads_pollUsage]

end Meter.Round

/-! ## Meters of a GX -/

namespace Meter.Victron

variable {K : Type} [Quantity K]

/-- One poll of fresh readings. -/
def polled (m : Victron K) (c : Round) : Bool × Readings K × Victron K :=
  (m.update c.now .zero).outcome c.answer

/-- The meter after some rounds. -/
def after (m : Victron K) (rounds : List Round) : Victron K :=
  rounds.foldl (fun m c => (m.polled c).2.2) m

/-- The readings of a round that follows some others. -/
def shown (m : Victron K) (rounds : List Round) (c : Round) : Readings K :=
  ((m.after rounds).polled c).2.1

/-- The registers of a block that one poll reads. -/
def readIn (m : Victron K) (c : Round) (block : Block) : List (List UInt16) :=
  c.reads m.link block (m.update c.now .zero)

/-- The registers of a block that some rounds read. -/
def readAfter (m : Victron K) (block : Block) : List Round → List (List UInt16)
  | [] => []
  | c :: rounds => m.readIn c block ++ (m.polled c).2.2.readAfter block rounds

theorem after_cons (m : Victron K) (c : Round) (rounds : List Round) :
    m.after (c :: rounds) = (m.polled c).2.2.after rounds := rfl

theorem after_snoc (m : Victron K) (rounds : List Round) (c : Round) :
    m.after (rounds ++ [c]) = ((m.after rounds).polled c).2.2 := by
  unfold after
  rw [List.foldl_append, List.foldl_cons, List.foldl_nil]

/-- The registers of a block that were read last. -/
def latest? (m : Victron K) (block : Block) (rounds : List Round) : Option (List UInt16) :=
  (m.readAfter block rounds).getLast?

theorem readAfter_snoc (m : Victron K) (block : Block) (rounds : List Round) (c : Round) :
    m.readAfter block (rounds ++ [c]) =
      m.readAfter block rounds ++ (m.after rounds).readIn c block := by
  induction rounds generalizing m with
  | nil => exact List.append_nil _
  | cons d rounds ih =>
    rw [List.cons_append, readAfter, ih, readAfter, after_cons, List.append_assoc]

theorem latest?_snoc (m : Victron K) (block : Block) (rounds : List Round) (c : Round) :
    m.latest? block (rounds ++ [c]) =
      ((m.after rounds).readIn c block).getLast?.or (m.latest? block rounds) := by
  unfold latest?
  rw [readAfter_snoc, List.getLast?_append]

theorem after_induction {P : Victron K → Prop} (hstep : ∀ m c, P m → P (m.polled c).2.2)
    {m : Victron K} (h : P m) (rounds : List Round) : P (m.after rounds) := by
  induction rounds using List.reverseRecOn with
  | nil => exact h
  | append_singleton rounds c ih =>
    rw [after_snoc]
    exact hstep _ _ ih

end Meter.Victron

end HomeMetering
