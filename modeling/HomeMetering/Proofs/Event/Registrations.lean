import HomeMetering.Event.Bus
import HomeMetering.Proofs.Lookup
import Mathlib.Data.List.Induction

/-!
# Registrations over a run

What a bus holds after any run of calls is what stands in the history of these calls: for each
listener the last registration that succeeded, unless it was taken back since. An event goes once to
each of them whose filter lets it through.
-/

namespace HomeMetering.Bus

variable {ι ε : Type}

/-! ## Calls -/

inductive Call (ι ε : Type) where
  | register (i : ι) (filter : Option (Filter ε))
  | deregister (i : ι)
  | trigger (e : ε)

inductive Reply (ι ε : Type) where
  | registered
  | refused (error : AlreadyRegistered)
  | deregistered (found : Bool)
  | triggered (started : Nat) (out : List (ι × ε))
  deriving DecidableEq

/-- Calls and what was replied to them. -/
abbrev History (ι ε : Type) := List (Call ι ε × Reply ι ε)

variable [DecidableEq ι]

def call (b : Bus ι ε) : Call ι ε → Reply ι ε × Bus ι ε
  | .register i filter =>
    match b.register i filter with
    | .ok b => (.registered, b)
    | .error e => (.refused e, b)
  | .deregister i => (.deregistered (b.deregister i).1, (b.deregister i).2)
  | .trigger e => (.triggered (b.trigger e).1 (b.trigger e).2, b)

def after (b : Bus ι ε) (calls : List (Call ι ε)) : Bus ι ε :=
  calls.foldl (fun b c => (b.call c).2) b

def history (b : Bus ι ε) : List (Call ι ε) → History ι ε
  | [] => []
  | c :: calls => (c, (b.call c).1) :: (b.call c).2.history calls

theorem after_snoc (b : Bus ι ε) (calls : List (Call ι ε)) (c : Call ι ε) :
    b.after (calls ++ [c]) = ((b.after calls).call c).2 := by
  simp [after]

theorem history_snoc (b : Bus ι ε) (calls : List (Call ι ε)) (c : Call ι ε) :
    b.history (calls ++ [c]) = b.history calls ++ [(c, ((b.after calls).call c).1)] := by
  induction calls generalizing b with
  | nil => rfl
  | cons d calls ih => simp [history, ih, after]

/-! ## One call -/

omit [DecidableEq ι] in
theorem trigger_eq (b : Bus ι ε) (e : ε) :
    b.trigger e = ((b.registrations.filter fun r => accepts r.2 e).length,
      (b.registrations.filter fun r => accepts r.2 e).map fun r => (r.1, e)) := by
  unfold trigger
  induction b.registrations using List.reverseRecOn with
  | nil => rfl
  | append_singleton rs r ih =>
    rw [List.foldl_concat, ih]
    by_cases hr : accepts r.2 e = true <;> simp [hr]

theorem isRegistered_iff {b : Bus ι ε} {i : ι} :
    b.isRegistered i = true ↔ ∃ filter, (i, filter) ∈ b.registrations := by
  simp [isRegistered]

theorem call_register (b : Bus ι ε) (i : ι) (filter : Option (Filter ε)) :
    b.call (.register i filter) =
      if b.isRegistered i then (.refused ⟨⟩, b)
      else (.registered, { b with registrations := b.registrations ++ [(i, filter)] }) := by
  unfold call register
  by_cases hi : b.isRegistered i = true <;> simp [hi]

/-- A call adds the registration it succeeds with, and takes away those of the listener it
deregisters. -/
theorem mem_registrations_call (b : Bus ι ε) (c : Call ι ε) (i : ι) (filter : Option (Filter ε)) :
    (i, filter) ∈ (b.call c).2.registrations ↔
      (c = .register i filter ∧ (b.call c).1 = .registered) ∨
        (i, filter) ∈ b.registrations ∧ c ≠ .deregister i ∧
          ∀ f, ¬ (c = .register i f ∧ (b.call c).1 = .registered) := by
  cases c with
  | register j g =>
    rw [call_register]
    by_cases hj : b.isRegistered j = true
    · simp [hj]
    · have hnew : ∀ f, (j, f) ∉ b.registrations := by simpa [isRegistered_iff] using hj
      by_cases hi : j = i
      · subst hi
        simp [hj, hnew, eq_comm]
      · simp [hj, hi, Ne.symm hi]
  | deregister j => simp [call, deregister, @eq_comm _ i j]
  | trigger e => simp [call]

theorem nodup_registrations_call {b : Bus ι ε} (h : (b.registrations.map Prod.fst).Nodup)
    (c : Call ι ε) : ((b.call c).2.registrations.map Prod.fst).Nodup := by
  cases c with
  | register i filter =>
    rw [call_register]
    split
    · exact h
    · rename_i hi
      have hnew : ∀ f, (i, f) ∉ b.registrations := by simpa [isRegistered_iff] using hi
      refine nodup_keys_concat filter h ?_
      rintro ⟨j, f⟩ hj rfl
      exact hnew f hj
  | deregister i => exact h.sublist (List.filter_sublist.map _)
  | trigger e => exact h

/-! ## What stands -/

/-- The last registration of a listener that succeeded had this filter, and was not taken back. -/
def Stands (past : History ι ε) (i : ι) (filter : Option (Filter ε)) : Prop :=
  ∃ earlier later, past = earlier ++ (.register i filter, .registered) :: later ∧
    (∀ reply, (.deregister i, reply) ∉ later) ∧ ∀ f, (.register i f, .registered) ∉ later

omit [DecidableEq ι] in
theorem stands_snoc {past : History ι ε} {c : Call ι ε} {reply : Reply ι ε} {i : ι}
    {filter : Option (Filter ε)} :
    Stands (past ++ [(c, reply)]) i filter ↔
      (c = .register i filter ∧ reply = .registered) ∨
        Stands past i filter ∧ c ≠ .deregister i ∧
          ∀ f, ¬ (c = .register i f ∧ reply = .registered) := by
  constructor
  · rintro ⟨earlier, later, hpast, hkept, hlast⟩
    rcases List.eq_nil_or_concat' later with rfl | ⟨later, entry, rfl⟩
    · obtain ⟨-, hentry⟩ := List.append_inj' hpast rfl
      simp only [List.cons.injEq, Prod.mk.injEq, and_true] at hentry
      exact Or.inl hentry
    · rw [← List.cons_append, ← List.append_assoc] at hpast
      obtain ⟨rfl, hentry⟩ := List.append_inj' hpast rfl
      cases List.singleton_inj.1 hentry
      simp only [List.mem_append, List.mem_singleton, Prod.mk.injEq, not_or] at hkept hlast
      refine Or.inr ⟨⟨earlier, later, rfl, fun r => (hkept r).1, fun f => (hlast f).1⟩, ?_, ?_⟩
      · rintro rfl
        exact (hkept reply).2 ⟨rfl, rfl⟩
      · rintro f ⟨rfl, rfl⟩
        exact (hlast f).2 ⟨rfl, rfl⟩
  · rintro (⟨rfl, rfl⟩ | ⟨⟨earlier, later, rfl, hkept, hlast⟩, hc, hreg⟩)
    · exact ⟨past, [], rfl, by simp, by simp⟩
    · refine ⟨earlier, later ++ [(c, reply)], by simp, ?_, ?_⟩
      · simp [hkept, hc.symm]
      · intro f hmem
        rcases List.mem_append.1 hmem with hmem | hmem
        · exact hlast f hmem
        · cases List.mem_singleton.1 hmem
          exact hreg f ⟨rfl, rfl⟩

theorem mem_registrations_iff (name : String) (calls : List (Call ι ε)) (i : ι)
    (filter : Option (Filter ε)) :
    (i, filter) ∈ ((new name).after calls).registrations ↔
      Stands ((new name).history calls) i filter := by
  induction calls using List.reverseRecOn with
  | nil => simp [new, after, history, Stands]
  | append_singleton calls c ih =>
    rw [after_snoc, history_snoc, mem_registrations_call, stands_snoc, ih]

theorem nodup_registrations (name : String) (calls : List (Call ι ε)) :
    (((new name : Bus ι ε).after calls).registrations.map Prod.fst).Nodup := by
  induction calls using List.reverseRecOn with
  | nil => exact List.nodup_nil
  | append_singleton calls c ih =>
    rw [after_snoc]
    exact nodup_registrations_call ih c

/-- After any run of calls, an event is delivered once to every listener whose registration stands
and whose filter lets it through, and to nobody else. A registration is refused if one stands, and
then changes nothing; one can be taken back if it stands. -/
theorem replies_of_standing (name : String) (calls : List (Call ι ε)) :
    let bus : Bus ι ε := (new name).after calls
    let past : History ι ε := (new name).history calls
    (∀ e, ∃ out, bus.call (.trigger e) = (.triggered out.length out, bus) ∧
      (out.map Prod.fst).Nodup ∧
      ∀ i d, (i, d) ∈ out ↔ d = e ∧ ∃ filter, Stands past i filter ∧ accepts filter e = true) ∧
    (∀ i filter,
      (bus.call (.register i filter) = (.refused ⟨⟩, bus) ↔ ∃ f, Stands past i f) ∧
      ((bus.call (.register i filter)).1 = .registered ↔ ¬ ∃ f, Stands past i f)) ∧
    ∀ i, ∃ found, (bus.call (.deregister i)).1 = .deregistered found ∧
      (found = true ↔ ∃ f, Stands past i f) := by
  intro bus past
  have hstands : ∀ i f, (i, f) ∈ bus.registrations ↔ Stands past i f :=
    mem_registrations_iff name calls
  have hregistered : ∀ i, bus.isRegistered i = true ↔ ∃ f, Stands past i f := fun i =>
    isRegistered_iff.trans (exists_congr (hstands i))
  refine ⟨fun e => ⟨(bus.trigger e).2, ?_, ?_, ?_⟩, fun i filter => ?_, fun i => ?_⟩
  · simp [call, trigger_eq]
  · rw [trigger_eq, List.map_map]
    exact (nodup_registrations name calls).sublist (List.filter_sublist.map _)
  · intro i d
    simp only [trigger_eq, List.mem_map, List.mem_filter, Prod.mk.injEq, ← hstands]
    constructor
    · rintro ⟨⟨j, filter⟩, ⟨hmem, haccepts⟩, rfl, rfl⟩
      exact ⟨rfl, filter, hmem, haccepts⟩
    · rintro ⟨rfl, filter, hmem, haccepts⟩
      exact ⟨(i, filter), ⟨hmem, haccepts⟩, rfl, rfl⟩
  · rw [call_register, ← hregistered]
    by_cases hi : bus.isRegistered i = true <;> simp [hi]
  · exact ⟨bus.isRegistered i, rfl, hregistered i⟩

/-- The filter of the first registration counts until it is taken back. -/
example : ((new "gas-meter" : Bus Nat Nat).history
    [.register 0 (some fun e => e < 5), .register 0 none, .trigger 7, .deregister 0,
      .register 0 none, .trigger 7]).map Prod.snd =
    [.registered, .refused ⟨⟩, .triggered 0 [], .deregistered true, .registered,
      .triggered 1 [(0, 7)]] := by
  decide

end HomeMetering.Bus
