import HomeMetering.Proofs.Site.Jobs

/-!
# The books of a site

The journal tells how often every client was opened and closed. Only a few requests are entered in
these books or change the registry; reading, writing and waiting leave both as they are.
-/

namespace HomeMetering

open Modbus Site

def Site.Entry.opens (client : ClientId) : Entry → Bool
  | .opened _ _ i => i == client
  | _ => false

namespace Site

def openings (s : Site) (client : ClientId) : Nat := s.journal.countP (Entry.opens client)

def closings (s : Site) (client : ClientId) : Nat := s.journal.count (.closed client)

/-- Two sites have the same registry, and the same clients were opened and closed there. -/
structure SameBooks (s t : Site) : Prop where
  registry : t.registry = s.registry
  clients : t.clients.length = s.clients.length
  openings : ∀ client, t.openings client = s.openings client
  closings : ∀ client, t.closings client = s.closings client

theorem SameBooks.refl (s : Site) : s.SameBooks s := ⟨rfl, rfl, fun _ => rfl, fun _ => rfl⟩

theorem sameBooks_withHardware (s other : Site) : s.SameBooks (s.withHardware other) :=
  ⟨rfl, rfl, fun _ => rfl, fun _ => rfl⟩

theorem sameBooks_changeClient (s : Site) (i : ClientId) (f : Client → Client) :
    s.SameBooks (s.changeClient i f) :=
  ⟨rfl, List.length_modify .., fun _ => rfl, fun _ => rfl⟩

theorem sameBooks_record (s : Site) (e : Entry) (hopen : ∀ c, e.opens c = false)
    (hclose : ∀ c, e ≠ .closed c) : s.SameBooks (s.record e) :=
  ⟨rfl, rfl, fun c => List.countP_cons_of_neg (by simp [hopen c]),
    fun c => List.count_cons_of_ne (hclose c)⟩

theorem sameBooks_write (s : Site) (i : ClientId) (address value : UInt16) :
    s.SameBooks (s.write i address value).2 := by
  unfold write
  cases s.clients[i]? with
  | none => exact .refl s
  | some c =>
    have hnoted : s.SameBooks (s.record (.wrote i c.unit address value)) :=
      sameBooks_record _ _ (fun _ => rfl) (by simp)
    dsimp only
    split
    · exact hnoted
    · split
      · exact hnoted
      · exact ⟨hnoted.registry, hnoted.clients, hnoted.openings, hnoted.closings⟩

theorem sameBooks_openPort (s : Site) (device : String) (baud : Nat) :
    s.SameBooks (s.openPort device baud).2 := by
  have hnoted : s.SameBooks (s.record (.portOpened device baud)) :=
    sameBooks_record _ _ (fun _ => rfl) (by simp)
  unfold openPort
  dsimp only
  split
  · exact hnoted
  · exact ⟨hnoted.registry, hnoted.clients, hnoted.openings, hnoted.closings⟩

theorem sameBooks_firstTelegram (s : Site) (i : PortId) (timeout : Nat) :
    s.SameBooks (s.firstTelegram i timeout).2 := by
  unfold firstTelegram
  split
  · exact .refl s
  · split <;> exact ⟨rfl, rfl, fun _ => rfl, fun _ => rfl⟩

theorem sameBooks_answer (s : Site) (q : Request) (h : q.IsUse) : s.SameBooks (s.answer q).2 := by
  cases q with
  | cached url => exact .refl s
  | lock client | unlock client | select client unit => exact sameBooks_changeClient ..
  | read client block =>
    unfold answer read
    dsimp only
    split
    · exact .refl s
    · exact sameBooks_record _ _ (fun _ => rfl) (by simp)
  | write client address value => exact sameBooks_write ..
  | rate client => exact .refl s
  | openPort device baud => exact sameBooks_openPort ..
  | firstTelegram port timeout => exact sameBooks_firstTelegram ..
  | follow port first | unfollow port | latest port | note severity text =>
    exact ⟨rfl, rfl, fun _ => rfl, fun _ => rfl⟩
  | connect url baud | adopt url client | evict url | lease url | giveBack url | close client =>
    exact h.elim

theorem connect_cases (s : Site) (url : String) (baud : Nat) :
    (∃ e t, s.connect url baud = (.error e, t) ∧ s.SameBooks t) ∨
      (∃ t, s.connect url baud = (.ok s.clients.length, t) ∧ t.registry = s.registry ∧
        t.clients.length = s.clients.length + 1 ∧ (∀ c, t.closings c = s.closings c) ∧
        ∀ c, t.openings c = s.openings c + if s.clients.length = c then 1 else 0) := by
  have hfailed : s.SameBooks (s.record (.openFailed url baud)) :=
    sameBooks_record _ _ (fun _ => rfl) (by simp)
  unfold connect
  cases s.buses.lookup url with
  | none => exact Or.inl ⟨_, _, rfl, hfailed⟩
  | some bus =>
    dsimp only
    split
    · exact Or.inl ⟨_, _, rfl, hfailed⟩
    · refine Or.inr ⟨_, rfl, rfl, by simp, fun c => ?_, fun c => ?_⟩
      · exact List.count_cons_of_ne (by simp)
      · exact (List.countP_cons).trans (by simp [openings, Entry.opens])

theorem close_of_lt (s : Site) {i : ClientId} (h : i < s.clients.length) :
    ((s.close i).2).registry = s.registry ∧
      ((s.close i).2).clients.length = s.clients.length ∧
      (∀ c, ((s.close i).2).openings c = s.openings c) ∧
      ∀ c, ((s.close i).2).closings c = s.closings c + if i = c then 1 else 0 := by
  unfold close
  rw [List.getElem?_eq_getElem h]
  refine ⟨rfl, List.length_modify .., fun c => ?_, fun c => ?_⟩
  · exact List.countP_cons_of_neg (by simp [Entry.opens])
  · exact (List.count_cons).trans (by simp [closings, changeClient])

theorem registry_close (s : Site) (i : ClientId) : ((s.close i).2).registry = s.registry := by
  unfold close
  split <;> rfl

theorem registry_answer (s : Site) (q : Request) (h : q.LeavesRegistry) :
    (s.answer q).2.registry = s.registry := by
  have huse : q.IsUse → (s.answer q).2.registry = s.registry := fun hq =>
    (s.sameBooks_answer q hq).registry
  cases q with
  | connect url baud =>
    rcases s.connect_cases url baud with ⟨e, t, ht, hbooks⟩ | ⟨t, ht, hreg, -⟩
    · exact (congrArg (·.2.registry) ht).trans hbooks.registry
    · exact (congrArg (·.2.registry) ht).trans hreg
  | close client => exact registry_close s client
  | adopt url client | evict url | lease url | giveBack url => exact h.elim
  | _ => exact huse trivial

theorem registry_of_runs {α : Type} {x : Job α} {Q : α → Prop} {s t : Site} {a : α}
    (hx : x.All Request.LeavesRegistry Q) (h : x.Runs s a t) : t.registry = s.registry ∧ Q a := by
  refine ⟨h.keeps hx (I := fun u => u.registry = s.registry) (fun u other q hq hu => ?_) rfl,
    hx.runs h⟩
  exact (registry_answer _ q hq).trans hu

theorem registry_of_uses {α : Type} {x : Job α} {Q : α → Prop} {s t : Site} {a : α}
    (hx : x.All Request.IsUse Q) (h : x.Runs s a t) : t.registry = s.registry ∧ Q a :=
  registry_of_runs (hx.imp (fun _ => Request.IsUse.leavesRegistry) fun _ ha => ha) h

end Site

end HomeMetering
