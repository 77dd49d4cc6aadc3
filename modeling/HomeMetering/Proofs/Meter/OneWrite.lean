import HomeMetering.Proofs.Meter.Errands

/-!
# The one register that is written

However many errands run at once and whatever the buses answer, a write goes to the unit of a slot
that is probed, to switch an EM24 that was just identified there.
-/

namespace HomeMetering

open Modbus Site Site.Job Meter.CarloGavazzi

variable {K : Type}

namespace Site

theorem journal_firstTelegram (s : Site) (i : PortId) (timeout : Nat) :
    (s.firstTelegram i timeout).2.journal = s.journal := by
  unfold firstTelegram
  split
  · rfl
  · split <;> rfl

theorem journal_write {s : Site} {i : ClientId} {client : Client} (h : s.clients[i]? = some client)
    (address value : UInt16) :
    (s.write i address value).2.journal = .wrote i client.unit address value :: s.journal := by
  unfold write
  rw [h]
  dsimp only
  split
  · rfl
  · split <;> rfl

theorem write_of_journal {s : Site} {q : Request} {c : ClientId} {unit : UInt8}
    {address value : UInt16}
    (h : (s.answer q).2.journal = .wrote c unit address value :: s.journal) :
    q = .write c address value ∧ ∃ client, s.clients[c]? = some client ∧ client.unit = unit := by
  cases q with
  | write i a v =>
    change (s.write i a v).2.journal = _ at h
    cases hi : s.clients[i]? with
    | none =>
      unfold write at h
      rw [hi] at h
      exact absurd h.symm (List.cons_ne_self _ _)
    | some client =>
      rw [journal_write hi] at h
      obtain ⟨hentry, -⟩ := List.cons.inj h
      cases hentry
      exact ⟨rfl, client, hi, rfl⟩
  | connect url baud =>
    change (s.connect url baud).2.journal = _ at h
    unfold connect at h
    split at h
    · cases (List.cons.inj h).1
    · split at h <;> cases (List.cons.inj h).1
  | close i =>
    change (s.close i).2.journal = _ at h
    unfold close at h
    split at h
    · exact absurd h.symm (List.cons_ne_self _ _)
    · cases (List.cons.inj h).1
  | read i block =>
    change (s.read i block).2.journal = _ at h
    unfold read at h
    split at h
    · exact absurd h.symm (List.cons_ne_self _ _)
    · cases (List.cons.inj h).1
  | openPort device baud =>
    change (s.openPort device baud).2.journal = _ at h
    unfold openPort at h
    dsimp only at h
    split at h <;> cases (List.cons.inj h).1
  | firstTelegram port timeout =>
    change (s.firstTelegram port timeout).2.journal = _ at h
    rw [journal_firstTelegram] at h
    exact absurd h.symm (List.cons_ne_self _ _)
  | _ => exact absurd h.symm (List.cons_ne_self _ _)

namespace Pool

variable [Quantity K]

/-- A move of a process that runs errands, any number of them at once. -/
def RunsErrands (p : Pool (Option (Meter K))) : Move (Option (Meter K)) → Prop
  | .step _ => True
  | .spawn job => Errand (fun m => .done (some m) ∈ p.jobs) job
  | .resume _ _ => False
  | .drift _ => True

/-- Every job is what is left of an errand, and drives clients in turn with the others. -/
structure OnErrands (start : Pool (Option (Meter K))) (ms : List (Move (Option (Meter K))))
    (p : Pool (Option (Meter K))) : Prop where
  guarded : p.Guarded fun i => dialogue i start ms
  length : (begun ms).length = p.jobs.length
  unheard : ∀ i, p.jobs.length ≤ i → dialogue i start ms = []
  jobs : ∀ (i : Nat) (job : Job (Option (Meter K))), p.jobs[i]? = some job →
    ∃ (n : Nat) (errand : Job (Option (Meter K))), n ≤ p.site.clients.length ∧
    (begun ms)[i]? = some errand ∧
    job.Since (Request.Due n (MaySwitch (ProbedUnit errand))) (EndsWith n) (dialogue i start ms)

variable {start p q : Pool (Option (Meter K))} {ms : List (Move (Option (Meter K)))}

theorem OnErrands.lt_of_returned (h : OnErrands start ms p) {m : Meter K}
    (hm : .done (some m) ∈ p.jobs) {c : ClientId} (hc : m.Drives c) :
    c < p.site.clients.length := by
  obtain ⟨i, hi⟩ := List.getElem?_of_mem hm
  obtain ⟨n, errand, hn, -, -, hknown⟩ := h.jobs i _ hi
  exact h.guarded.knows hn (hknown m rfl c hc)

theorem OnErrands.step (h : OnErrands start ms p) (hp : start.course? ms = some p) {i : Nat}
    (hq : p.step? i = some q) : OnErrands start (ms ++ [.step i]) q := by
  obtain ⟨request, next, hjob, hadmits, rfl⟩ := step?_eq_some hq
  obtain ⟨n, errand, hn, herrand, hdue, hnext⟩ := h.jobs i _ hjob
  have hi : dialogue i start (ms ++ [.step i]) =
      ⟨request, (p.site.answer request).1⟩ :: dialogue i start ms := by
    rw [dialogue_snoc i _ hp, told_step hjob]
    rfl
  have hothers : ∀ j, j ≠ i → dialogue j start (ms ++ [.step i]) = dialogue j start ms := by
    intro j hj
    rw [dialogue_snoc j _ hp, told_step_of_ne (Ne.symm hj)]
    rfl
  have hbegun : begun (ms ++ [.step i]) = begun ms := by simp [begun]
  have hgrown : p.site.clients.length ≤ (p.site.answer request).2.clients.length :=
    length_clients_answer ..
  refine ⟨h.guarded.step hn hadmits hdue hi hothers _, ?_, ?_, ?_⟩
  · rw [hbegun, List.length_set]
    exact h.length
  · intro j hj
    rw [List.length_set] at hj
    have hne : j ≠ i := by
      rintro rfl
      rw [List.getElem?_eq_none hj] at hjob
      cases hjob
    rw [hothers j hne]
    exact h.unheard j hj
  · intro j job hj
    rw [hbegun]
    by_cases hji : j = i
    · subst hji
      obtain ⟨hlt, -⟩ := List.getElem?_eq_some_iff.1 hjob
      rw [List.getElem?_set_self hlt] at hj
      obtain rfl := Option.some.inj hj
      exact ⟨n, errand, Nat.le_trans hn hgrown, herrand, hi ▸ hnext _⟩
    · rw [List.getElem?_set_ne (Ne.symm hji)] at hj
      obtain ⟨k, other, hk, hother, hsince⟩ := h.jobs j job hj
      exact ⟨k, other, Nat.le_trans hk hgrown, hother, hothers j hji ▸ hsince⟩

theorem OnErrands.spawn (h : OnErrands start ms p) (hp : start.course? ms = some p)
    {job : Job (Option (Meter K))} (herrand : Errand (fun m => .done (some m) ∈ p.jobs) job) :
    OnErrands start (ms ++ [.spawn job]) (p.spawn job) := by
  have hsame : ∀ j, dialogue j start (ms ++ [.spawn job]) = dialogue j start ms := by
    intro j
    rw [dialogue_snoc j _ hp]
    rfl
  have hbegun : begun (ms ++ [.spawn job]) = begun ms ++ [job] := by simp [begun]
  refine ⟨?_, ?_, ?_, ?_⟩
  · rw [funext hsame]
    exact h.guarded.of_clients rfl rfl
  · rw [hbegun]
    simp [Pool.spawn, h.length]
  · intro j hj
    have hlength : (p.spawn job).jobs.length = p.jobs.length + 1 := by simp [Pool.spawn]
    rw [hsame]
    exact h.unheard j (by omega)
  · intro j job' hj
    rw [hsame, hbegun]
    change (p.jobs ++ [job])[j]? = some job' at hj
    by_cases hlt : j < p.jobs.length
    · rw [List.getElem?_append_left hlt] at hj
      rw [List.getElem?_append_left (h.length ▸ hlt)]
      exact h.jobs j job' hj
    · obtain ⟨hj', -⟩ := List.getElem?_eq_some_iff.1 hj
      rw [List.length_append, List.length_singleton] at hj'
      obtain rfl : j = p.jobs.length := by omega
      rw [List.getElem?_concat_length] at hj
      obtain rfl := Option.some.inj hj
      refine ⟨p.site.clients.length, job, Nat.le_refl _, ?_, ?_⟩
      · rw [← h.length, List.getElem?_concat_length]
      · rw [h.unheard _ (Nat.le_refl _)]
        exact herrand.since fun m hm c hc => h.lt_of_returned hm hc

theorem OnErrands.drift (h : OnErrands start ms p) (hp : start.course? ms = some p)
    (other : Site) :
    OnErrands start (ms ++ [.drift other]) { p with site := p.site.withHardware other } := by
  have hsame : ∀ j, dialogue j start (ms ++ [.drift other]) = dialogue j start ms := by
    intro j
    rw [dialogue_snoc j _ hp]
    rfl
  have hbegun : begun (ms ++ [.drift other]) = begun ms := by simp [begun]
  refine ⟨?_, ?_, ?_, ?_⟩
  · rw [funext hsame]
    exact h.guarded.of_clients rfl rfl
  · rw [hbegun]
    exact h.length
  · intro j hj
    rw [hsame]
    exact h.unheard j hj
  · intro j job hj
    rw [hsame, hbegun]
    exact h.jobs j job hj

theorem onErrands_of_course {buses : List (String × Segment)}
    {streams : List (String × List (Nat × List Telegram.Delivery))} {absence : Absence}
    (hms : ∀ before m after p, ms = before ++ m :: after →
      (new (Site.new buses streams absence)).course? before = some p → p.RunsErrands m)
    (hp : (new (Site.new buses streams absence)).course? ms = some p) :
    OnErrands (new (Site.new buses streams absence)) ms p := by
  refine induction_of_course (OnErrands _) hp ?_ ?_
  · exact ⟨guarded_new .., rfl, fun _ _ => rfl, nofun⟩
  · intro before m after hsplit a b ha herrands hb
    have hm := hms before m after a hsplit ha
    cases m with
    | step i => exact herrands.step ha hb
    | spawn job =>
      obtain rfl := Option.some.inj hb
      exact herrands.spawn ha hm
    | resume i next => exact hm.elim
    | drift other =>
      obtain rfl := Option.some.inj hb
      exact herrands.drift ha other

/-- Whatever probes, polls and shutdowns run side by side, and whatever the buses answer: a write
sets register `0x1101` to 7, in the unit of the slot that its job probes, at the end of an
identification that found an EM24 there, in another application and not locked. An identification
writes at most once, and finds no meter when that fails. -/
theorem writes_switch {buses : List (String × Segment)}
    {streams : List (String × List (Nat × List Telegram.Delivery))} {absence : Absence}
    (hms : ∀ before m after p, ms = before ++ m :: after →
      (new (Site.new buses streams absence)).course? before = some p → p.RunsErrands m)
    (hp : (new (Site.new buses streams absence)).course? ms = some p) :
    (∀ m q c unit address value, p.move? m = some q →
      q.site.journal = .wrote c unit address value :: p.site.journal →
        address = 0x1101 ∧ value = 7 ∧
        ∃ (i : Nat) (slot : Slot) (timeout : Nat) (d earlier : Dialogue), m = .step i ∧
          (begun ms)[i]? = some (slot.probe timeout) ∧ slot.unit = unit ∧
          dialogue i (new (Site.new buses streams absence)) ms = d ++ earlier ∧
          FindsSwitchable c unit d) ∧
    ∀ link setup d (rest : Job (Except MeterError (Meter.CarloGavazzi K))),
      (Meter.CarloGavazzi.probe link setup).Talks d rest →
        writes d ≤ 1 ∧ ∀ client address value e result,
          ⟨.write client address value, .error e⟩ ∈ d → rest = pure result →
            result = .error (.notSwitched e) := by
  have herrands := onErrands_of_course hms hp
  refine ⟨?_, ?_⟩
  · intro m q c unit address value hq hjournal
    cases m with
    | step i =>
      obtain ⟨request, next, hjob, -, rfl⟩ := step?_eq_some hq
      obtain ⟨rfl, client, hclient, hunit⟩ := write_of_journal hjournal
      obtain ⟨n, errand, -, herrand, ⟨hgrip, haddress, hvalue, unit', d, earlier, hprobed, hd,
        hfinds⟩, -⟩ := herrands.jobs i _ hjob
      -- The job has set the unit and kept the client since, so the write goes there.
      obtain ⟨d', hselect⟩ := hfinds.select
      obtain ⟨-, client', hclient', hunit'⟩ := herrands.guarded.selected i c unit' (d' ++ earlier)
        (by rw [hd, hselect, List.cons_append])
      rw [hclient] at hclient'
      obtain rfl := Option.some.inj hclient'
      obtain rfl : unit' = unit := hunit'.symm.trans hunit
      obtain ⟨slot, timeout, rfl, hslot⟩ := hprobed
      exact ⟨haddress, hvalue, i, slot, timeout, d, earlier, rfl, herrand, hslot, hd, hfinds⟩
    | spawn job =>
      obtain rfl := Option.some.inj hq
      exact absurd hjournal.symm (List.cons_ne_self _ _)
    | resume i next =>
      obtain ⟨a, -, rfl⟩ := resume?_eq_some hq
      exact absurd hjournal.symm (List.cons_ne_self _ _)
    | drift other =>
      obtain rfl := Option.some.inj hq
      exact absurd hjournal.symm (List.cons_ne_self _ _)
  · intro link setup d rest htalks
    refine ⟨writes_le_one htalks, ?_⟩
    rintro client address value e result he rfl
    exact tellsFailure_of_talks htalks client address value e he

/-- A gateway with an EM24 behind it that runs another application and is not locked. -/
def workshop : Site :=
  let registers := ((Registers.empty.put 0x000B [1650]).put 0x5000 (.replicate 7 0)).put 0x1101 [2]
  let device := { Device.new with holding := registers.put 0x0304 [0] }
  .new [("tcp://gw", { Segment.new with devices := [(1, device)] })] []
    ⟨fun _ => .timeout, .notFound⟩

/-- A probe of its slot, up to the write. -/
def identification : List (Move (Option (Meter Rat))) :=
  .spawn ((houseSlot 1).probe 0) :: List.replicate 21 (.step 0)

theorem workshop_is_switched :
    ∃ p q, (new workshop).course? identification = some p ∧ p.move? (.step 0) = some q ∧
      q.site.journal = .wrote 0 1 0x1101 7 :: p.site.journal ∧
      ∃ d earlier, dialogue 0 (new workshop) identification = d ++ earlier ∧
        FindsSwitchable 0 1 d := by
  have hms : ∀ before m after p, identification = before ++ m :: after →
      (new workshop).course? before = some p → p.RunsErrands m := by
    intro before m after p hsplit _
    have hm : m ∈ identification := by simp [hsplit]
    rcases List.mem_cons.1 hm with rfl | hstep
    · exact .probe (houseSlot 1) 0
    · rw [List.eq_of_mem_replicate hstep]
      trivial
  obtain ⟨p, q, hp, hq, hjournal⟩ : ∃ p q, (new workshop).course? identification = some p ∧
      p.move? (.step 0) = some q ∧ q.site.journal = .wrote 0 1 0x1101 7 :: p.site.journal :=
    ⟨_, _, rfl, rfl, rfl⟩
  obtain ⟨-, -, i, slot, timeout, d, earlier, hi, -, -, hd, hfinds⟩ :=
    (writes_switch hms hp).1 _ _ _ _ _ _ hq hjournal
  obtain rfl : i = 0 := (Move.step.inj hi).symm
  exact ⟨p, q, hp, hq, hjournal, d, earlier, hd, hfinds⟩

end Pool

end Site

end HomeMetering
