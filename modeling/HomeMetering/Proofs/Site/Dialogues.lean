import HomeMetering.Proofs.Site.Jobs
import Mathlib.Data.List.Induction

/-!
# What a job has heard

The dialogue of a job is what it asked for and how that was answered, the latest exchange first. A
property of a request that depends on the dialogue before it holds of two jobs in a row when it
holds of each of them, from where it starts. In a pool every job has a dialogue of its own.
-/

namespace HomeMetering.Site

/-- A request with its answer. -/
structure Exchange where
  request : Request
  answer : request.Answer

/-- The latest exchange comes first. -/
abbrev Dialogue := List Exchange

namespace Job

variable {α β : Type} {P P' : Dialogue → Request → Prop} {Q Q' : Dialogue → α → Prop}
  {R : Dialogue → β → Prop} {past : Dialogue}

/-- Every request of a job that starts after a dialogue is of one kind, and so is what it ends with,
whatever the answers are. -/
def Since (P : Dialogue → Request → Prop) (Q : Dialogue → α → Prop) : Dialogue → Job α → Prop
  | past, done a => Q past a
  | past, ask q next => P past q ∧ ∀ answer, Since P Q (⟨q, answer⟩ :: past) (next answer)

theorem Since.done {a : α} (h : Q past a) : (pure a : Job α).Since P Q past := h

theorem Since.bind {x : Job α} {f : α → Job β} (hx : x.Since P Q past)
    (hf : ∀ d a, Q d a → (f a).Since P R d) : (x >>= f).Since P R past := by
  induction x generalizing past with
  | done a => exact hf past a hx
  | ask q next ih => exact ⟨hx.1, fun answer => ih answer (hx.2 answer)⟩

theorem Since.imp {x : Job α} (hx : x.Since P Q past) (hP : ∀ d q, P d q → P' d q)
    (hQ : ∀ d a, Q d a → Q' d a) : x.Since P' Q' past := by
  induction x generalizing past with
  | done a => exact hQ past a hx
  | ask q next ih => exact ⟨hP past q hx.1, fun answer => ih answer (hx.2 answer)⟩

theorem Since.and_all {x : Job α} {S : Request → Prop} {T : α → Prop} (hx : x.Since P Q past)
    (hall : x.All S T) : x.Since P (fun d a => Q d a ∧ T a) past := by
  induction x generalizing past with
  | done a => exact ⟨hx, hall⟩
  | ask q next ih => exact ⟨hx.1, fun answer => ih answer (hx.2 answer) (hall.2 answer)⟩

theorem Since.suffix {x : Job α} (hx : x.Since P Q past) :
    x.Since P (fun d a => Q d a ∧ past <:+ d) past := by
  induction x generalizing past with
  | done a => exact ⟨hx, List.suffix_refl past⟩
  | ask q next ih =>
    refine ⟨hx.1, fun answer => (ih answer (hx.2 answer)).imp (fun _ _ h => h) ?_⟩
    rintro d a ⟨hd, hsuffix⟩
    exact ⟨hd, (List.suffix_cons _ past).trans hsuffix⟩

/-- A job that has had a dialogue, and what is left of it. -/
inductive Talks (x : Job α) : Dialogue → Job α → Prop
  | start : x.Talks [] x
  | hear {d : Dialogue} {q : Request} {next : q.Answer → Job α} (answer : q.Answer)
      (earlier : x.Talks d (ask q next)) : x.Talks (⟨q, answer⟩ :: d) (next answer)

theorem Since.talks {x y : Job α} {d : Dialogue} (hx : x.Since P Q past) (h : x.Talks d y) :
    y.Since P Q (d ++ past) := by
  induction h with
  | start => exact hx
  | hear answer _ ih => exact ih.2 answer

end Job

/-! ## Dialogues in a pool -/

namespace Pool

variable {α : Type}

/-- What a move tells a job. -/
def told (p : Pool α) (i : Nat) : Move α → Dialogue
  | .step j =>
    if j = i then match p.jobs[i]? with
      | some (.ask q _) => [⟨q, (p.site.answer q).1⟩]
      | _ => []
    else []
  | _ => []

/-- What a job has heard in a course. -/
def dialogue (i : Nat) : Pool α → List (Move α) → Dialogue
  | _, [] => []
  | p, m :: ms => ((p.move? m).map fun q => dialogue i q ms).getD [] ++ p.told i m

/-- The jobs that began in a course, by number. -/
def begun (ms : List (Move α)) : List (Job α) :=
  ms.filterMap fun
    | .spawn job => some job
    | _ => none

variable {p q : Pool α} {ms : List (Move α)}

theorem dialogue_snoc (i : Nat) (m : Move α) (h : p.course? ms = some q) :
    dialogue i p (ms ++ [m]) = q.told i m ++ dialogue i p ms := by
  induction ms generalizing p with
  | nil =>
    obtain rfl := Option.some.inj h
    show ((p.move? m).map fun _ => []).getD [] ++ p.told i m = p.told i m ++ []
    cases p.move? m <;> simp
  | cons n ms ih =>
    obtain ⟨r, hr, hq⟩ := Option.bind_eq_some_iff.1 h
    simp only [List.cons_append, dialogue, hr, Option.map_some, Option.getD_some, ih hq,
      List.append_assoc]

theorem told_step {i : Nat} {request : Request} {next : request.Answer → Job α}
    (hjob : p.jobs[i]? = some (.ask request next)) :
    p.told i (.step i) = [⟨request, (p.site.answer request).1⟩] := by
  show (if i = i then _ else _) = _
  rw [if_pos rfl, hjob]

theorem told_step_of_ne {i j : Nat} (h : j ≠ i) : p.told i (.step j) = [] := if_neg h

theorem dialogue_step {i : Nat} {request : Request} {next : request.Answer → Job α}
    (h : p.course? ms = some q) (hjob : q.jobs[i]? = some (.ask request next)) :
    dialogue i p (ms ++ [.step i]) =
      ⟨request, (q.site.answer request).1⟩ :: dialogue i p ms := by
  rw [dialogue_snoc i _ h, told_step hjob]
  rfl

theorem dialogue_of_silent {i : Nat} {m : Move α} (h : p.course? ms = some q)
    (htold : q.told i m = []) : dialogue i p (ms ++ [m]) = dialogue i p ms := by
  rw [dialogue_snoc i _ h, htold]
  rfl

/-- What every move of a course keeps of the moves so far and the pool they lead to. -/
theorem induction_of_course (Inv : List (Move α) → Pool α → Prop) (h : p.course? ms = some q)
    (start : Inv [] p)
    (move : ∀ before m after, ms = before ++ m :: after → ∀ a b, p.course? before = some a →
      Inv before a → a.move? m = some b → Inv (before ++ [m]) b) : Inv ms q := by
  induction ms using List.reverseRecOn generalizing q with
  | nil => exact Option.some.inj h ▸ start
  | append_singleton ms m ih =>
    rw [course?_append] at h
    obtain ⟨r, hr, hlast⟩ := Option.bind_eq_some_iff.1 h
    obtain ⟨s, hs, hq⟩ := Option.bind_eq_some_iff.1 hlast
    obtain rfl := Option.some.inj hq
    refine move ms m [] (by simp) r s hr (ih hr ?_) hs
    intro before m' after hms a b ha
    exact move before m' (after ++ [m]) (by simp [hms]) a b ha

end Pool

end HomeMetering.Site
