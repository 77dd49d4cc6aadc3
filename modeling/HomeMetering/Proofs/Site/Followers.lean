import HomeMetering.Proofs.Site.Reading
import HomeMetering.Proofs.Telegram.Framing

/-!
# What followers do

A follower of a port reads one outcome after the other, and wakes after a pause. Whatever else is
asked of a site leaves it as it is.
-/

namespace HomeMetering

open Modbus Site Telegram

/-! ## The follower -/

namespace Telegram.Reader

theorem takeLine_ne_failed {collected : List Char} {raw : List UInt8} {o : Outcome}
    (h : (takeLine collected raw).2 = some o) (e : IoFailure) : o ≠ .failed e := by
  unfold takeLine at h
  cases htext : text? raw with
  | none => simp [htext] at h
  | some line =>
    rw [htext] at h
    obtain ⟨result, -, rfl⟩ := Option.map_eq_some_iff.1 h
    exact outcomeOf_ne_failed result e

theorem push_ne_failed {r : Reader} {b : UInt8} {o : Outcome} (h : (r.push b).2 = some o)
    (e : IoFailure) : o ≠ .failed e := by
  unfold push at h
  dsimp only at h
  split_ifs at h
  exact takeLine_ne_failed h e

theorem allOfBytes_ne_failed (r : Reader) (bs : List UInt8) :
    ∀ o ∈ (r.allOfBytes bs).2, ∀ e, o ≠ .failed e := by
  induction bs generalizing r with
  | nil => exact nofun
  | cons b bs ih =>
    intro o ho e
    rcases List.mem_append.1 ho with hfirst | hrest
    · exact push_ne_failed (Option.mem_toList.1 hfirst) e
    · exact ih _ o hrest e

theorem finish_eq_or (r : Reader) :
    r.finish.2 = .failed .endOfStream ∨ ∀ e, r.finish.2 ≠ .failed e := by
  unfold finish
  split_ifs
  · exact .inl rfl
  · cases htake : takeLine r.collected r.line.reverse with
    | mk collected result =>
      cases result with
      | none => exact .inl rfl
      | some o => exact .inr fun e => takeLine_ne_failed (congrArg Prod.snd htake) e

theorem exists_last_eq (r : Reader) :
    ∃ os : List Outcome, r.last = os ++ [.failed .endOfStream] ∧ ∀ o ∈ os, ∀ e, o ≠ .failed e := by
  unfold last
  rcases r.finish_eq_or with hend | hother
  · rw [hend]
    exact ⟨[], rfl, nofun⟩
  · split
    · exact absurd ‹_› (hother _)
    · refine ⟨[r.finish.2], rfl, fun o ho => ?_⟩
      rw [List.mem_singleton.1 ho]
      exact hother

end Telegram.Reader

namespace Site

def follower? (s : Site) (port : PortId) : Option Follower := s.ports[port]?.bind Port.follower

theorem latestOf_eq (s : Site) (port : PortId) :
    s.latestOf port = (s.follower? port).map fun f => (f.count, f.latest) := by
  unfold latestOf follower?
  rw [Option.map_bind]
  rfl

namespace Follower

/-- A step of a follower, with what it reads. -/
inductive Step : Follower → Option Outcome → Follower → Prop
  | reads {f : Follower} (now : Nat) (o : Outcome) (h : f.phase = .reading) :
    Step f (some o) (f.take now o)
  | wakes {f : Follower} {wake : Nat} (h : f.phase = .pausing wake) :
    Step f none { f with phase := .reading }
  | stops (f : Follower) : Step f none { f with phase := .stopped }

inductive Steps : Follower → List (Option Outcome) → Follower → Prop
  | nil (f : Follower) : Steps f [] f
  | cons {f g h : Follower} {o : Option Outcome} {os : List (Option Outcome)} (first : Step f o g)
    (rest : Steps g os h) : Steps f (o :: os) h

theorem Steps.append {f g h : Follower} {os ps : List (Option Outcome)} (hf : Steps f os g)
    (hg : Steps g ps h) : Steps f (os ++ ps) h := by
  induction hf with
  | nil f => exact hg
  | cons first _ ih => exact .cons first (ih hg)

theorem phase_take {f : Follower} (h : f.phase = .reading) (now : Nat) {o : Outcome}
    (ho : ∀ e, o ≠ .failed e) : (f.take now o).phase = .reading := by
  cases o with
  | telegram t => exact h
  | rejected e => exact h
  | failed e => exact absurd rfl (ho e)

theorem steps_foldl {f : Follower} (h : f.phase = .reading) (now : Nat) {os : List Outcome}
    (hos : ∀ o ∈ os, ∀ e, o ≠ .failed e) :
    Steps f (os.map some) (os.foldl (fun f o => f.take now o) f) ∧
      (os.foldl (fun f o => f.take now o) f).phase = .reading := by
  induction os generalizing f with
  | nil => exact ⟨.nil f, h⟩
  | cons o os ih =>
    obtain ⟨ho, hos⟩ := List.forall_mem_cons.1 hos
    obtain ⟨hsteps, hphase⟩ := ih (phase_take h now ho) hos
    exact ⟨.cons (.reads now o h) hsteps, hphase⟩

end Follower

namespace Port

open Follower

theorem drain_steps {f : Follower} (h : f.phase = .reading) (limit now : Nat) (r : Reader)
    (ds : List Delivery) : ∃ os, Steps f os (drain f limit now r ds).1 := by
  -- Only a follower that is reading takes the rest: after a pause it has woken first.
  induction ds generalizing f now r with
  | nil => exact ⟨[], .nil f⟩
  | cons d ds ih =>
    cases d with
    | bytes bs =>
      obtain ⟨hsteps, hphase⟩ := steps_foldl h now (r.allOfBytes_ne_failed bs)
      obtain ⟨os, hrest⟩ := ih hphase now (r.allOfBytes bs).1
      exact ⟨_, hsteps.append hrest⟩
    | failure e =>
      have hstep : Step f (some (.failed e)) (f.take now (.failed e)) := .reads now _ h
      unfold drain
      dsimp only
      cases hphase : (f.take now (.failed e)).phase with
      | pausing wake =>
        dsimp only
        split_ifs
        · obtain ⟨os, hrest⟩ :=
            ih (f := { f.take now (.failed e) with phase := .reading }) rfl wake .fresh
          exact ⟨_, .cons hstep (.cons (.wakes hphase) hrest)⟩
        · exact ⟨_, .cons hstep (.nil _)⟩
      | reading => exact ⟨_, .cons hstep (.nil _)⟩
      | stopped => exact ⟨_, .cons hstep (.nil _)⟩
    | hangUp =>
      obtain ⟨os, hlast, hos⟩ := r.exists_last_eq
      obtain ⟨hsteps, hphase⟩ := steps_foldl h now hos
      have hend : Steps (os.foldl (fun f o => f.take now o) f) [some (.failed .endOfStream)]
          ((os.foldl (fun f o => f.take now o) f).take now (.failed .endOfStream)) :=
        .cons (.reads now _ hphase) (.nil _)
      unfold drain
      rw [hlast, List.foldl_append]
      exact ⟨_, hsteps.append hend⟩

theorem advance_steps {p : Port} {f : Follower} (h : p.follower = some f) (now limit : Nat) :
    ∃ os g, Steps f os g ∧ (p.advance now limit).follower = some g := by
  unfold advance
  rw [h]
  dsimp only
  cases hphase : f.phase with
  | reading =>
    obtain ⟨os, hsteps⟩ := drain_steps hphase limit now p.reader p.pending
    exact ⟨os, _, hsteps, rfl⟩
  | pausing wake =>
    dsimp only
    split_ifs
    · obtain ⟨os, hsteps⟩ :=
        drain_steps (f := { f with phase := .reading }) rfl limit wake p.reader p.pending
      exact ⟨none :: os, _, .cons (.wakes hphase) hsteps, rfl⟩
    · exact ⟨[], f, .nil f, h⟩
  | stopped => exact ⟨[], f, .nil f, h⟩

end Port

/-! ## Followers of a site -/

theorem follower?_put {s : Site} {port : PortId} {p : Port} (h : s.ports[port]? = some p)
    (f : Follower) :
    (s.changePort port fun p => { p with follower := some f }).follower? port = some f := by
  unfold follower? changePort
  rw [List.getElem?_modify_eq, h]
  rfl

theorem follower?_changePort_ne (s : Site) {port i : PortId} (h : i ≠ port)
    (change : Port → Port) : (s.changePort i change).follower? port = s.follower? port := by
  unfold follower? changePort
  rw [List.getElem?_modify]
  simp [h]

theorem follower?_changePort_keep (s : Site) (port i : PortId) {change : Port → Port}
    (h : ∀ p, s.ports[i]? = some p → (change p).follower = p.follower) :
    (s.changePort i change).follower? port = s.follower? port := by
  unfold follower? changePort
  rw [List.getElem?_modify]
  cases hp : s.ports[port]? with
  | none => rfl
  | some p =>
    simp only [Option.map_eq_map, Option.map_some, Option.bind_some]
    split_ifs with heq
    · exact h p (heq ▸ hp)
    · rfl

theorem getElem?_firstTelegram {s t : Site} {port : PortId} {timeout : Nat} {o : Outcome}
    (h : s.firstTelegram port timeout = (some o, t)) : ∃ p, t.ports[port]? = some p := by
  unfold firstTelegram at h
  cases hport : s.ports[port]? with
  | none => simp [hport] at h
  | some p =>
    rw [hport] at h
    dsimp only at h
    rcases hfirst : p.first with ⟨outcome, q⟩
    cases outcome with
    | none => simp [hfirst] at h
    | some outcome =>
      rw [hfirst] at h
      obtain rfl := congrArg Prod.snd h
      exact ⟨q, by simp [changePort, hport]⟩

theorem pass_steps {s : Site} {port : PortId} {f : Follower} (h : s.follower? port = some f)
    (millis : Nat) :
    ∃ os g, f.Steps os g ∧ (s.pass millis).follower? port = some g := by
  obtain ⟨p, hp, hfollower⟩ := Option.bind_eq_some_iff.1 h
  obtain ⟨os, g, hsteps, hg⟩ := Port.advance_steps hfollower s.time (s.time + millis)
  refine ⟨os, g, hsteps, ?_⟩
  show ((s.ports.map _)[port]?).bind Port.follower = _
  rw [List.getElem?_map, hp]
  exact hg

theorem ports_connect (s : Site) (url : String) (baud : Nat) :
    (s.connect url baud).2.ports = s.ports := by
  unfold connect
  split
  · rfl
  · split_ifs <;> rfl

theorem ports_close (s : Site) (client : ClientId) : (s.close client).2.ports = s.ports := by
  unfold close
  split <;> rfl

theorem ports_read (s : Site) (client : ClientId) (block : Block) :
    (s.read client block).2.ports = s.ports := by
  unfold read
  split <;> rfl

theorem ports_write (s : Site) (client : ClientId) (address value : UInt16) :
    (s.write client address value).2.ports = s.ports := by
  unfold write
  split
  · rfl
  · dsimp only
    split
    · rfl
    · split <;> rfl

theorem follower?_of_ports_eq {s t : Site} (h : t.ports = s.ports) (port : PortId) :
    t.follower? port = s.follower? port := by
  unfold follower?
  rw [h]

theorem steps_none {f : Follower} {s : Site} {port : PortId} (h : s.follower? port = some f) :
    ∃ os g, f.Steps os g ∧ s.follower? port = some g :=
  ⟨[], f, .nil f, h⟩

/-- Whatever is asked of a site, a follower takes steps or stays as it is. -/
theorem answer_steps {s : Site} {port : PortId} {f : Follower} (h : s.follower? port = some f)
    (q : Request) (hq : ∀ first, q ≠ .follow port first) :
    ∃ os g, f.Steps os g ∧ (s.answer q).2.follower? port = some g := by
  obtain ⟨p, hp, hfollower⟩ := Option.bind_eq_some_iff.1 h
  cases q with
  | connect url baud =>
    exact steps_none ((follower?_of_ports_eq (s.ports_connect url baud) port).trans h)
  | close client => exact steps_none ((follower?_of_ports_eq (s.ports_close client) port).trans h)
  | read client block =>
    exact steps_none ((follower?_of_ports_eq (s.ports_read client block) port).trans h)
  | write client address value =>
    exact steps_none ((follower?_of_ports_eq (s.ports_write client address value) port).trans h)
  | openPort device baud =>
    refine steps_none ?_
    show (s.openPort device baud).2.follower? port = some f
    unfold openPort
    dsimp only
    split
    · exact h
    · show ((s.ports ++ [_])[port]?).bind Port.follower = some f
      rw [List.getElem?_append_left (List.getElem?_eq_some_iff.1 hp).1]
      exact h
  | firstTelegram i timeout =>
    show ∃ os g, f.Steps os g ∧ (s.firstTelegram i timeout).2.follower? port = some g
    unfold firstTelegram
    cases hi : s.ports[i]? with
    | none => exact steps_none h
    | some r =>
      have hkeep : (s.changePort i fun _ => r.first.2).follower? port = some f := by
        rw [follower?_changePort_keep, h]
        intro p' hp'
        rw [Option.some.inj (hp'.symm.trans hi)]
        rfl
      dsimp only
      split
      · rename_i hfirst
        rw [hfirst] at hkeep
        exact steps_none hkeep
      · rename_i hfirst
        rw [hfirst] at hkeep
        exact pass_steps hkeep timeout
  | follow i first =>
    refine steps_none ?_
    have hne : i ≠ port := fun heq => hq first (heq ▸ rfl)
    exact (s.follower?_changePort_ne hne _).trans h
  | unfollow i =>
    by_cases heq : i = port
    · refine ⟨[none], { f with phase := .stopped }, .cons (.stops f) (.nil _), ?_⟩
      show ((s.ports.modify i stopFollower)[port]?).bind Port.follower = _
      rw [heq, List.getElem?_modify_eq, hp]
      show p.follower.map _ = _
      rw [hfollower]
      rfl
    · exact steps_none ((s.follower?_changePort_ne heq stopFollower).trans h)
  | _ => exact steps_none h

end Site

end HomeMetering
