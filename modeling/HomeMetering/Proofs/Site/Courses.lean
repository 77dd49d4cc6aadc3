import HomeMetering.Proofs.Site.Dialogues

/-!
# What is left of jobs

In a course in which no job is taken up again after its end, every job is what is left of one that
was there at the start or began on the way, after all that it has heard. What it has heard it does
not forget, and once it has ended it stays as it is.
-/

namespace HomeMetering.Site

namespace Job

variable {α : Type} {P : Request → Prop} {Q : α → Prop} {x y : Job α} {d : Dialogue}

theorem All.talks (hx : x.All P Q) (h : x.Talks d y) : y.All P Q ∧ ∀ e ∈ d, P e.request := by
  induction h with
  | start => exact ⟨hx, nofun⟩
  | hear answer _ ih =>
    obtain ⟨⟨hq, hnext⟩, hpast⟩ := ih
    exact ⟨hnext answer, List.forall_mem_cons.2 ⟨hq, hpast⟩⟩

theorem Since.talks_nil {P : Dialogue → Request → Prop} {Q : Dialogue → α → Prop}
    (hx : x.Since P Q []) (h : x.Talks d y) : y.Since P Q d := by
  have hy := hx.talks h
  rwa [List.append_nil] at hy

end Job

/-- A move that takes up no job that has ended. -/
def Move.LeavesEnded {α : Type} : Move α → Prop
  | .resume _ _ => False
  | _ => True

namespace Pool

variable {α : Type} {start p q : Pool α} {ms ms' : List (Move α)} {i : Nat}

theorem dialogue_append (i : Nat) (h : p.course? ms = some q) (ms' : List (Move α)) :
    dialogue i p (ms ++ ms') = dialogue i q ms' ++ dialogue i p ms := by
  induction ms generalizing p with
  | nil =>
    obtain rfl := Option.some.inj h
    exact (List.append_nil _).symm
  | cons m ms ih =>
    obtain ⟨r, hr, hq⟩ := Option.bind_eq_some_iff.1 h
    simp only [List.cons_append, dialogue, hr, Option.map_some, Option.getD_some, ih hq,
      List.append_assoc]

theorem begun_append (ms ms' : List (Move α)) : begun (ms ++ ms') = begun ms ++ begun ms' :=
  List.filterMap_append

theorem done_of_course (hms : ∀ m ∈ ms, m.LeavesEnded) (h : p.course? ms = some q) {a : α}
    (hdone : p.jobs[i]? = some (.done a)) : q.jobs[i]? = some (.done a) := by
  refine invariant_of_course (fun r => r.jobs[i]? = some (.done a)) h hdone ?_
  rintro before m after rfl r s - hr hs
  have hm : m.LeavesEnded := hms m (by simp)
  cases m with
  | step j =>
    obtain ⟨request, next, hjob, -, rfl⟩ := step?_eq_some hs
    have hne : j ≠ i := by
      rintro rfl
      rw [hr] at hjob
      cases hjob
    exact (List.getElem?_set_ne hne).trans hr
  | spawn job =>
    obtain rfl := Option.some.inj hs
    obtain ⟨hi, -⟩ := List.getElem?_eq_some_iff.1 hr
    exact (List.getElem?_append_left hi).trans hr
  | resume j next => exact hm.elim
  | drift other =>
    obtain rfl := Option.some.inj hs
    exact hr

/-- Every job is what is left of one that was there or began, after what it has heard. -/
structure Follows (start : Pool α) (ms : List (Move α)) (p : Pool α) : Prop where
  length : p.jobs.length = (start.jobs ++ begun ms).length
  unheard : ∀ i, p.jobs.length ≤ i → dialogue i start ms = []
  talks : ∀ i job, p.jobs[i]? = some job →
    ∃ x : Job α, (start.jobs ++ begun ms)[i]? = some x ∧ x.Talks (dialogue i start ms) job

theorem follows_refl (start : Pool α) : Follows start [] start := by
  refine ⟨?_, fun _ _ => rfl, fun i job hjob => ⟨job, ?_, .start⟩⟩
  · rw [begun, List.filterMap_nil, List.append_nil]
  · rw [begun, List.filterMap_nil, List.append_nil]
    exact hjob

theorem Follows.step (h : Follows start ms p) (hp : start.course? ms = some p)
    (hq : p.step? i = some q) : Follows start (ms ++ [.step i]) q := by
  obtain ⟨request, next, hjob, -, rfl⟩ := step?_eq_some hq
  have hbegun : begun (ms ++ [.step i]) = begun ms := by simp [begun]
  have hothers : ∀ j, j ≠ i → dialogue j start (ms ++ [.step i]) = dialogue j start ms :=
    fun j hj => dialogue_of_silent hp (told_step_of_ne (Ne.symm hj))
  obtain ⟨hi, -⟩ := List.getElem?_eq_some_iff.1 hjob
  refine ⟨?_, fun j hj => ?_, fun j job hj => ?_⟩
  · rw [hbegun, List.length_set]
    exact h.length
  · rw [List.length_set] at hj
    rw [hothers j (by omega)]
    exact h.unheard j hj
  · rw [hbegun]
    by_cases hji : j = i
    · subst hji
      rw [List.getElem?_set_self hi] at hj
      obtain rfl := Option.some.inj hj
      obtain ⟨x, hx, htalks⟩ := h.talks j _ hjob
      rw [dialogue_step hp hjob]
      exact ⟨x, hx, .hear _ htalks⟩
    · rw [List.getElem?_set_ne (Ne.symm hji)] at hj
      rw [hothers j hji]
      exact h.talks j job hj

theorem Follows.spawn (h : Follows start ms p) (hp : start.course? ms = some p) (job : Job α) :
    Follows start (ms ++ [.spawn job]) (p.spawn job) := by
  have hsame : ∀ j, dialogue j start (ms ++ [.spawn job]) = dialogue j start ms :=
    fun _ => dialogue_of_silent hp rfl
  have hbegun : start.jobs ++ begun (ms ++ [.spawn job]) = start.jobs ++ begun ms ++ [job] := by
    rw [begun_append, List.append_assoc]
    rfl
  have hlength : (p.spawn job).jobs.length = p.jobs.length + 1 := List.length_append
  refine ⟨?_, fun j hj => ?_, fun j job' hj => ?_⟩
  · simp only [hbegun, hlength, h.length, List.length_append, List.length_singleton]
  · rw [hsame]
    exact h.unheard j (by omega)
  · rw [hsame, hbegun]
    change (p.jobs ++ [job])[j]? = some job' at hj
    by_cases hlt : j < p.jobs.length
    · rw [List.getElem?_append_left hlt] at hj
      rw [List.getElem?_append_left (h.length ▸ hlt)]
      exact h.talks j job' hj
    · obtain ⟨hj', -⟩ := List.getElem?_eq_some_iff.1 hj
      rw [List.length_append, List.length_singleton] at hj'
      obtain rfl : j = p.jobs.length := by omega
      rw [List.getElem?_concat_length] at hj
      obtain rfl := Option.some.inj hj
      refine ⟨job, ?_, ?_⟩
      · rw [h.length, List.getElem?_concat_length]
      · rw [h.unheard _ (Nat.le_refl _)]
        exact .start

theorem Follows.drift (h : Follows start ms p) (hp : start.course? ms = some p) (other : Site) :
    Follows start (ms ++ [.drift other]) { p with site := p.site.withHardware other } := by
  have hsame : ∀ j, dialogue j start (ms ++ [.drift other]) = dialogue j start ms :=
    fun _ => dialogue_of_silent hp rfl
  have hbegun : begun (ms ++ [.drift other]) = begun ms := by simp [begun]
  refine ⟨?_, fun j hj => ?_, fun j job hj => ?_⟩
  · rw [hbegun]
    exact h.length
  · rw [hsame]
    exact h.unheard j hj
  · rw [hsame, hbegun]
    exact h.talks j job hj

theorem follows_of_course (hms : ∀ m ∈ ms, m.LeavesEnded) (hp : start.course? ms = some p) :
    Follows start ms p := by
  refine induction_of_course (Follows start) hp (follows_refl start) ?_
  rintro before m after rfl a b ha hfollows hb
  have hm : m.LeavesEnded := hms m (by simp)
  cases m with
  | step i => exact hfollows.step ha hb
  | spawn job =>
    obtain rfl := Option.some.inj hb
    exact hfollows.spawn ha job
  | resume i next => exact hm.elim
  | drift other =>
    obtain rfl := Option.some.inj hb
    exact hfollows.drift ha other

theorem mem_dialogue_of_step {early late : List (Move α)} {a b : Pool α}
    (hsplit : ms = early ++ .step i :: late) (ha : start.course? early = some a)
    (hb : a.step? i = some b) :
    ∃ request : Request, ⟨request, (a.site.answer request).1⟩ ∈ dialogue i start ms ∧
      b.site = (a.site.answer request).2 := by
  obtain ⟨request, next, hjob, -, rfl⟩ := step?_eq_some hb
  refine ⟨request, ?_, rfl⟩
  rw [hsplit, dialogue_append i ha, dialogue, told_step hjob]
  simp

theorem Follows.exists_begun {early late : List (Move α)} {job : Job α}
    (h : Follows start early p) (hsplit : ms = early ++ late) (hjob : p.jobs[i]? = some job) :
    ∃ x : Job α, (start.jobs ++ begun ms)[i]? = some x ∧ x.Talks (dialogue i start early) job := by
  obtain ⟨x, hx, htalks⟩ := h.talks i job hjob
  refine ⟨x, ?_, htalks⟩
  obtain ⟨hi, -⟩ := List.getElem?_eq_some_iff.1 hx
  rw [hsplit, begun_append, ← List.append_assoc, List.getElem?_append_left hi]
  exact hx

theorem told_cases (p : Pool α) (i : Nat) (m : Move α) :
    p.told i m = [] ∨ ∃ e, m = .step i ∧ p.told i m = [e] := by
  cases m with
  | step j =>
    by_cases hj : j = i
    · subst hj
      simp only [told, if_true]
      split
      · exact Or.inr ⟨_, trivial, rfl⟩
      · exact Or.inl rfl
    · exact Or.inl (told_step_of_ne hj)
  | spawn job | resume j next | drift other => exact Or.inl rfl

theorem exists_step_of_dialogue {d later : Dialogue} {e : Exchange} (hp : start.course? ms = some p)
    (hd : dialogue i start ms = later ++ e :: d) :
    ∃ early late a b, ms = early ++ .step i :: late ∧ start.course? early = some a ∧
      a.step? i = some b ∧ dialogue i start early = d ∧ a.told i (.step i) = [e] := by
  induction ms using List.reverseRecOn generalizing p later with
  | nil => simp [dialogue] at hd
  | append_singleton ms m ih =>
    rw [course?_append] at hp
    obtain ⟨q, hq, hlast⟩ := Option.bind_eq_some_iff.1 hp
    obtain ⟨r, hr, -⟩ := Option.bind_eq_some_iff.1 hlast
    rw [dialogue_snoc i m hq] at hd
    have hbefore : ∀ later, dialogue i start ms = later ++ e :: d →
        ∃ early late a b, ms ++ [m] = early ++ .step i :: late ∧ start.course? early = some a ∧
          a.step? i = some b ∧ dialogue i start early = d ∧ a.told i (.step i) = [e] := by
      intro later hms
      obtain ⟨early, late, a, b, rfl, hrest⟩ := ih hq hms
      exact ⟨early, late ++ [m], a, b, by simp, hrest⟩
    -- The last move told the job nothing, the exchange that is looked for, or a later one.
    rcases told_cases q i m with hnone | ⟨e', rfl, htold⟩
    · rw [hnone] at hd
      exact hbefore later hd
    · rw [htold, List.singleton_append] at hd
      cases later with
      | nil =>
        obtain ⟨rfl, rfl⟩ := List.cons.inj hd
        exact ⟨ms, [], q, r, rfl, hq, hr, rfl, htold⟩
      | cons e'' later => exact hbefore later (List.cons.inj hd).2

theorem length_dialogue_lt {early late : List (Move α)} {a b : Pool α}
    (hsplit : ms = early ++ .step i :: late) (ha : start.course? early = some a)
    (hb : a.step? i = some b) :
    (dialogue i start early).length < (dialogue i start ms).length := by
  obtain ⟨request, next, hjob, -, -⟩ := step?_eq_some hb
  rw [hsplit, dialogue_append i ha, dialogue, told_step hjob, List.length_append,
    List.length_append, List.length_singleton]
  omega

/-- How much a job has heard tells which of its steps comes next. -/
theorem split_unique {early early' late late' : List (Move α)} {a a' b b' : Pool α}
    (hsplit : early ++ .step i :: late = early' ++ .step i :: late')
    (ha : start.course? early = some a) (hb : a.step? i = some b)
    (ha' : start.course? early' = some a') (hb' : a'.step? i = some b')
    (hlength : (dialogue i start early).length = (dialogue i start early').length) :
    early = early' := by
  -- Of two different beginnings, the longer one has the step in which the shorter one ends.
  rcases List.append_eq_append_iff.1 hsplit with ⟨mid, rfl, hmid⟩ | ⟨mid, rfl, hmid⟩
  · cases mid with
    | nil => exact (List.append_nil early).symm
    | cons m mid =>
      obtain rfl := (List.cons.inj hmid).1
      exact absurd hlength (Nat.ne_of_lt (length_dialogue_lt rfl ha hb))
  · cases mid with
    | nil => exact List.append_nil early'
    | cons m mid =>
      obtain rfl := (List.cons.inj hmid).1
      exact absurd hlength (Nat.ne_of_gt (length_dialogue_lt rfl ha' hb'))

end Pool

end HomeMetering.Site
