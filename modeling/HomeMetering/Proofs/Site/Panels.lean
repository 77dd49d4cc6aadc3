import HomeMetering.Proofs.Site.Reading

/-!
# What the devices show

A panel is what stands in the registers at some time. Reads may fail in any pattern and the hardware
may change between any two requests: as long as every site on the way shows the panel, whatever is
read in full is what the panel says.
-/

namespace HomeMetering

open Modbus Site

/-- What stands in the registers of the units behind clients. -/
abbrev Panel := ClientId → UInt8 → Block → List UInt16

namespace Site

/-- Whatever is read in full is what a panel says; any read may fail. -/
def Shows (p : Panel) (s : Site) : Prop :=
  ∀ client unit block registers,
    block.accept (s.registersOf client unit block) = .ok registers → registers = p client unit block

theorem Shows.of_sameDevices {p : Panel} {s t : Site} (h : s.Shows p) (hsame : s.SameDevices t) :
    t.Shows p := by
  intro client unit block registers hread
  rw [hsame.registers] at hread
  exact h client unit block registers hread

/-! ## Runs on sites of a kind -/

namespace Job

variable {α β : Type} {P : Site → Prop}

/-- What a job that runs alone can end with, and the site it can leave behind, when the hardware may
change between any two of its requests and every site on the way is of a kind. -/
def RunsAmid (P : Site → Prop) : Job α → Site → α → Site → Prop
  | done a, s, b, t => b = a ∧ t = s
  | ask q next, s, b, t => ∃ other, P (s.withHardware other) ∧
    (next ((s.withHardware other).answer q).1).RunsAmid P ((s.withHardware other).answer q).2 b t

theorem runsAmid_pure {a b : α} {s t : Site} :
    (pure a : Job α).RunsAmid P s b t ↔ b = a ∧ t = s := Iff.rfl

theorem runsAmid_request {q : Request} {s t : Site} {answer : q.Answer} :
    (request q).RunsAmid P s answer t ↔
      ∃ other, P (s.withHardware other) ∧ answer = ((s.withHardware other).answer q).1 ∧
        t = ((s.withHardware other).answer q).2 := Iff.rfl

theorem runsAmid_iff {x : Job α} {s t : Site} {a : α} :
    x.RunsAmid P s a t ↔ x.RunsUnder (fun s _ => P s) s a t := by
  induction x generalizing s with
  | done b => exact Iff.rfl
  | ask q next ih => exact exists_congr fun other => and_congr Iff.rfl (ih _)

theorem runsAmid_bind {x : Job α} {f : α → Job β} {s t : Site} {b : β} :
    (x >>= f).RunsAmid P s b t ↔ ∃ a u, x.RunsAmid P s a u ∧ (f a).RunsAmid P u b t := by
  simp only [runsAmid_iff]
  exact runsUnder_bind

theorem All.runsAmid {x : Job α} {R : Request → Prop} {Q : α → Prop} (hx : x.All R Q) {s t : Site}
    {a : α} (h : x.RunsAmid P s a t) : Q a :=
  hx.runs (runsAmid_iff.1 h).runs

/-- A read that succeeds gives what the panel says. -/
theorem eq_panel_of_runsAmid {p : Panel} {client : ClientId} {unit : UInt8} {block : Block}
    {s t : Site} {registers : List UInt16}
    (h : (readBlock client unit block).RunsAmid (Shows p) s (.ok registers) t) :
    registers = p client unit block := by
  unfold readBlock at h
  obtain ⟨_, u1, -, h⟩ := runsAmid_bind.1 h
  obtain ⟨_, u2, hselect, h⟩ := runsAmid_bind.1 h
  obtain ⟨answer, u3, hread, h⟩ := runsAmid_bind.1 h
  obtain ⟨_, u4, -, h⟩ := runsAmid_bind.1 h
  obtain ⟨haccept, -⟩ := runsAmid_pure.1 h
  obtain ⟨before, -, -, rfl⟩ := runsAmid_request.1 hselect
  obtain ⟨other, hshows, rfl, -⟩ := runsAmid_request.1 hread
  -- The unit is still the one that was selected, whatever the hardware is now.
  have hunit := unit_select (u1.withHardware before) client unit
  have hanswer := (Site.read_eq
    (((u1.withHardware before).answer (.select client unit)).2.withHardware other) block hunit).1
  refine hshows client unit block registers ?_
  rw [← hanswer]
  exact haccept.symm

end Job

/-! ## Undisturbed runs -/

/-- A request that changes no device. -/
def Request.IsReading : Request → Prop
  | lock _ | unlock _ | select _ _ | read _ _ | latest _ => True
  | _ => False

theorem sameDevices_answer (s : Site) {q : Request} (h : q.IsReading) :
    s.SameDevices (s.answer q).2 := by
  cases q with
  | lock client | unlock client | select client unit =>
    exact sameDevices_changeClient _ _ fun _ => ⟨rfl, rfl, rfl⟩
  | read client block =>
    unfold answer read
    dsimp only
    split
    · exact .refl s
    · exact sameDevices_record ..
  | latest port => exact .refl s
  | _ => exact h.elim

namespace Job

variable {α : Type} {p : Panel} {s : Site}

theorem Reads.all {x : Job α} (hx : x.Reads) : x.All Request.IsReading fun _ => True := by
  induction hx with
  | done a => exact .done trivial
  | registers client unit block f _ ih =>
    refine All.bind (Q := fun _ => True) ?_ fun answer _ => ih answer
    exact .bind (.request trivial) fun _ _ => .bind (.request trivial) fun _ _ =>
      .bind (.request trivial) fun _ _ => .bind (.request trivial) fun _ _ => .done trivial
  | telegram port f _ ih => exact .bind (.request trivial) fun latest _ => ih latest

theorem runsAmid_run {x : Job α} {Q : α → Prop} (hx : x.All Request.IsReading Q) (h : s.Shows p) :
    x.RunsAmid (Shows p) s (x.run s).1 (x.run s).2 := by
  induction x generalizing s with
  | done a => exact ⟨rfl, rfl⟩
  | ask q next ih =>
    refine ⟨s, h, ih _ (hx.2 _) ?_⟩
    exact h.of_sameDevices (sameDevices_answer s hx.1)

end Job

end Site

end HomeMetering
