import HomeMetering.Modbus.Link
import HomeMetering.Proofs.Modbus.Registry
import HomeMetering.Proofs.Site.Books
import HomeMetering.Proofs.Site.Dialogues
import Mathlib.Tactic.SplitIfs

/-!
# One job at a time

A client serves one job at a time. Whoever drives it keeps others from it, sets a unit, asks, and
lets others go on. So the unit that a job has set is still set when its next request comes, whatever
other jobs do meanwhile.
-/

namespace HomeMetering

open Modbus Site Site.Job

namespace Site

/-! ## What a dialogue tells -/

/-- The client that an exchange hands to a job. -/
def Exchange.client? : Exchange → Option ClientId
  | ⟨.cached _, client⟩ => client
  | ⟨.adopt _ _, client⟩ => client
  | ⟨.evict _, client⟩ => client
  | ⟨.giveBack _, client⟩ => client
  | ⟨.connect _ _, opened⟩ => opened.toOption
  | _ => none

namespace Dialogue

/-- The client that a job keeps others from. -/
def grip : Dialogue → Option ClientId
  | [] => none
  | ⟨.lock client, _⟩ :: _ => some client
  | ⟨.unlock _, _⟩ :: _ => none
  | _ :: d => grip d

/-- Some clients were there before; a job hears of others. -/
def Knows (d : Dialogue) (before : Nat) (client : ClientId) : Prop :=
  client < before ∨ ∃ e ∈ d, e.client? = some client

theorem Knows.mono {d d' : Dialogue} {n : Nat} {c : ClientId} (h : d.Knows n c) (hd : d <:+ d') :
    d'.Knows n c := by
  rcases h with hold | ⟨e, he, hc⟩
  · exact Or.inl hold
  · exact Or.inr ⟨e, hd.subset he, hc⟩

theorem knows_cons {d : Dialogue} {n : Nat} {c : ClientId} {e : Exchange}
    (h : e.client? = some c) : Knows (e :: d) n c :=
  Or.inr ⟨e, List.mem_cons_self, h⟩

theorem grip_cons {q : Request} {answer : q.Answer} {d : Dialogue} {c : ClientId}
    (h : grip (⟨q, answer⟩ :: d) = some c) :
    q = .lock c ∨ (grip d = some c ∧ ∀ i, q ≠ .unlock i) := by
  cases q with
  | lock client => exact Or.inl (congrArg Request.lock (Option.some.inj h))
  | unlock client => cases h
  | _ => exact Or.inr ⟨h, nofun⟩

end Dialogue

/-- When a request is due: clients are driven by whoever keeps others from them, one client at a
time. When registers may be written depends on what was said before. -/
def Request.Due (before : Nat) (mayWrite : Dialogue → ClientId → UInt16 → UInt16 → Prop)
    (d : Dialogue) : Request → Prop
  | .lock client => d.grip = none ∧ d.Knows before client
  | .adopt _ client => d.Knows before client
  | .unlock client | .select client _ | .read client _ | .rate client | .close client =>
    d.grip = some client
  | .write client address value => d.grip = some client ∧ mayWrite d client address value
  | _ => True

theorem Request.Due.imp {n : Nat} {W W' : Dialogue → ClientId → UInt16 → UInt16 → Prop}
    {d : Dialogue} {q : Request} (h : q.Due n W d)
    (hW : ∀ client address value, W d client address value → W' d client address value) :
    q.Due n W' d := by
  cases q with
  | write client address value => exact ⟨h.1, hW _ _ _ h.2⟩
  | _ => exact h

namespace Job

variable {α β : Type} {n : Nat} {W : Dialogue → ClientId → UInt16 → UInt16 → Prop}
  {S : ClientId → Prop} {past : Dialogue}

/-- A job that drives some clients, and those that are handed to it, one at a time. -/
def Polite (n : Nat) (W : Dialogue → ClientId → UInt16 → UInt16 → Prop) (S : ClientId → Prop)
    (x : Job α) : Prop :=
  ∀ past : Dialogue, past.grip = none → (∀ c, S c → past.Knows n c) →
    x.Since (Request.Due n W) (fun d _ => d.grip = none) past

theorem Polite.done (a : α) : (pure a : Job α).Polite n W S := fun _ hgrip _ => hgrip

theorem Polite.bind_of_all {x : Job α} {f : α → Job β} {T : Request → Prop} {Q : α → Prop}
    (hx : x.Polite n W S) (hall : x.All T Q) (hf : ∀ a, Q a → (f a).Polite n W S) :
    (x >>= f).Polite n W S := by
  intro past hgrip hknown
  refine ((hx past hgrip hknown).and_all hall).suffix.bind ?_
  rintro d a ⟨⟨hd, ha⟩, hsuffix⟩
  exact hf a ha d hd fun c hc => (hknown c hc).mono hsuffix

theorem Polite.bind {x : Job α} {f : α → Job β} (hx : x.Polite n W S)
    (hf : ∀ a, (f a).Polite n W S) : (x >>= f).Polite n W S :=
  hx.bind_of_all (.any x) fun a _ => hf a

/-! ## Connections in use -/

theorem polite_readBlock {client : ClientId} (hclient : S client) (unit : UInt8) (block : Block) :
    (readBlock client unit block).Polite n W S := by
  intro past hgrip hknown
  exact ⟨⟨hgrip, hknown client hclient⟩, fun _ => ⟨rfl, fun _ => ⟨rfl, fun _ => ⟨rfl, fun _ =>
    rfl⟩⟩⟩⟩

theorem since_closeClient {client : ClientId} (hgrip : past.grip = none)
    (hknown : past.Knows n client) :
    (closeClient client).Since (Request.Due n W) (fun d _ => d.grip = none) past :=
  ⟨⟨hgrip, hknown⟩, fun _ => ⟨rfl, fun _ => ⟨rfl, fun _ => rfl⟩⟩⟩

theorem since_closeTaken {taken : Option ClientId} (hgrip : past.grip = none)
    (hknown : ∀ client ∈ taken, past.Knows n client) :
    (closeTaken taken).Since (Request.Due n W) (fun d _ => d.grip = none) past := by
  cases taken with
  | none => exact hgrip
  | some client => exact (since_closeClient hgrip (hknown client rfl)).bind fun _ _ hd => hd

theorem polite_removeUnused (url : String) : (removeUnused url).Polite n W S := by
  intro past hgrip _
  refine ⟨trivial, fun taken => since_closeTaken hgrip ?_⟩
  intro client hclient
  exact Dialogue.knows_cons hclient

theorem polite_release (url : String) : (Modbus.release url).Polite n W S := by
  intro past hgrip _
  refine ⟨trivial, fun taken => since_closeTaken hgrip ?_⟩
  intro client hclient
  exact Dialogue.knows_cons hclient

theorem since_getOrOpen (hgrip : past.grip = none) (url : String) (baud : Nat) :
    (getOrOpen url baud).Since (Request.Due n W)
      (fun d r => d.grip = none ∧ ∀ client wasOpen, r = .ok (client, wasOpen) → d.Knows n client)
      past := by
  refine ⟨trivial, fun cached => ?_⟩
  cases cached with
  | some client =>
    refine .done ⟨hgrip, ?_⟩
    rintro _ _ ⟨⟩
    exact Dialogue.knows_cons rfl
  | none =>
    refine ⟨trivial, fun opened => ?_⟩
    cases opened with
    | error e => exact .done ⟨hgrip, nofun⟩
    | ok client =>
      refine ⟨Dialogue.knows_cons rfl, fun winner => ?_⟩
      have hopened : ∀ e, Dialogue.Knows
          (⟨.adopt url client, e⟩ :: ⟨.connect url baud, .ok client⟩ :: ⟨.cached url, none⟩ :: past)
          n client :=
        fun e => (Dialogue.knows_cons rfl).mono (List.suffix_cons ..)
      cases winner with
      | none =>
        refine .done ⟨hgrip, ?_⟩
        rintro _ _ ⟨⟩
        exact hopened none
      | some winner =>
        have hclose : (closeClient client).Since (Request.Due n W) (fun d _ => d.grip = none)
            (⟨.adopt url client, some winner⟩ :: ⟨.connect url baud, .ok client⟩ ::
              ⟨.cached url, none⟩ :: past) :=
          since_closeClient hgrip (hopened (some winner))
        refine hclose.suffix.bind ?_
        rintro d _ ⟨hd, hsuffix⟩
        refine .done ⟨hd, ?_⟩
        rintro _ _ ⟨⟩
        exact (Dialogue.knows_cons rfl).mono hsuffix

end Job

/-! ## Clients after a request -/

/-- What a request makes of a client. -/
def Request.change (i : ClientId) : Request → Client → Client
  | .lock c, client => if c = i then { client with isLocked := true } else client
  | .unlock c, client => if c = i then { client with isLocked := false } else client
  | .select c unit, client => if c = i then { client with unit } else client
  | .close c, client => if c = i then { client with isOpen := false } else client
  | _, client => client

theorem getElem?_changeClient (s : Site) (i c : ClientId) (f : Client → Client) :
    (s.changeClient i f).clients[c]? = (s.clients[c]?).map fun k => if i = c then f k else k := by
  unfold changeClient
  rw [List.getElem?_modify]
  split_ifs <;> simp

theorem clients_write (s : Site) (i : ClientId) (address value : UInt16) :
    (s.write i address value).2.clients = s.clients := by
  unfold write
  cases s.clients[i]? with
  | none => rfl
  | some c =>
    dsimp only
    split
    · rfl
    · split <;> rfl

theorem clients_openPort (s : Site) (device : String) (baud : Nat) :
    (s.openPort device baud).2.clients = s.clients := by
  unfold openPort
  dsimp only
  split <;> rfl

theorem clients_firstTelegram (s : Site) (i : PortId) (timeout : Nat) :
    (s.firstTelegram i timeout).2.clients = s.clients := by
  unfold firstTelegram
  split
  · rfl
  · split <;> rfl

theorem clients_read (s : Site) (i : ClientId) (block : Block) :
    (s.read i block).2.clients = s.clients := by
  unfold read
  split <;> rfl

theorem getElem?_answer {s : Site} {i : ClientId} {client : Client}
    (h : s.clients[i]? = some client)
    (q : Request) : (s.answer q).2.clients[i]? = some (q.change i client) := by
  cases q with
  | lock c | unlock c | select c unit =>
    show (s.changeClient c _).clients[i]? = _
    rw [getElem?_changeClient, h]
    rfl
  | close c =>
    show (s.close c).2.clients[i]? = _
    unfold close
    cases hc : s.clients[c]? with
    | none =>
      have hne : c ≠ i := by
        rintro rfl
        rw [h] at hc
        cases hc
      rw [Request.change, if_neg hne]
      exact h
    | some _ =>
      show (s.changeClient c _).clients[i]? = _
      rw [getElem?_changeClient, h]
      rfl
  | connect url baud =>
    obtain ⟨hlt, -⟩ := List.getElem?_eq_some_iff.1 h
    show (s.connect url baud).2.clients[i]? = _
    unfold connect
    split
    · exact h
    · split
      · exact h
      · show (s.clients ++ [_])[i]? = _
        rw [List.getElem?_append_left hlt]
        exact h
  | read c block =>
    show (s.read c block).2.clients[i]? = _
    rw [clients_read]
    exact h
  | write c address value =>
    show (s.write c address value).2.clients[i]? = _
    rw [clients_write]
    exact h
  | openPort device baud =>
    show (s.openPort device baud).2.clients[i]? = _
    rw [clients_openPort]
    exact h
  | firstTelegram port timeout =>
    show (s.firstTelegram port timeout).2.clients[i]? = _
    rw [clients_firstTelegram]
    exact h
  | _ => exact h

theorem length_clients_answer (s : Site) (q : Request) :
    s.clients.length ≤ (s.answer q).2.clients.length := by
  by_contra hlt
  have hsome := getElem?_answer (List.getElem?_eq_getElem (Nat.lt_of_not_le hlt)) q
  rw [List.getElem?_eq_none (Nat.le_refl _)] at hsome
  cases hsome

theorem cached?_of_answer {s : Site} {q : Request} {url : String} {c : ClientId}
    (h : (s.answer q).2.registry.cached? url = some c) :
    s.registry.cached? url = some c ∨ q = .adopt url c := by
  have hsame : q.LeavesRegistry → s.registry.cached? url = some c := fun hq => by
    rw [← registry_answer s q hq]
    exact h
  have herase : ∀ u, (s.registry.erase u).cached? url = some c →
      s.registry.cached? url = some c := by
    intro u hu
    rw [Registry.cached?, Registry.find?_erase] at hu
    split at hu
    · cases hu
    · exact hu
  cases q with
  | adopt u client =>
    change (s.registry.adopt u client).2.cached? url = some c at h
    rcases s.registry.adopt_cases u client with ⟨winner, hadopt⟩ | ⟨-, hadopt⟩
    · rw [hadopt] at h
      exact Or.inl h
    · rw [hadopt, Registry.cached?, Registry.find?_put] at h
      split at h
      · subst u
        obtain rfl := Option.some.inj h
        exact Or.inr rfl
      · exact Or.inl h
  | evict u =>
    change (s.registry.evict u).2.cached? url = some c at h
    rcases s.registry.evict_cases u with ⟨client, -, hevict⟩ | ⟨-, hevict⟩
    · rw [hevict] at h
      exact Or.inl (herase u h)
    · rw [hevict] at h
      exact Or.inl h
  | lease u =>
    change (s.registry.lease u).cached? url = some c at h
    rw [Registry.cached?_lease] at h
    exact Or.inl h
  | giveBack u =>
    change (s.registry.giveBack u).2.cached? url = some c at h
    rcases s.registry.giveBack_cases u with ⟨client, users, -, -, hgive⟩ |
      ⟨client, users, hfind, -, hgive⟩ | ⟨-, hgive⟩
    · rw [hgive] at h
      exact Or.inl (herase u h)
    · rw [hgive, Registry.cached?, Registry.find?_put] at h
      split at h
      · subst u
        rw [Registry.cached?, hfind]
        exact Or.inl h
      · exact Or.inl h
    · rw [hgive] at h
      exact Or.inl h
  | _ => exact Or.inl (hsame trivial)

theorem cached?_of_told {s : Site} {q : Request} {c : ClientId}
    (hc : Exchange.client? ⟨q, (s.answer q).1⟩ = some c) :
    (∃ url, s.registry.cached? url = some c) ∨ c < (s.answer q).2.clients.length := by
  have hfound : ∀ url shared, s.registry.find? url = some shared →
      s.registry.cached? url = some shared.client := by
    intro url shared hfind
    rw [Registry.cached?, hfind]
    rfl
  cases q with
  | cached url => exact Or.inl ⟨url, hc⟩
  | adopt url client =>
    change (s.registry.adopt url client).1 = some c at hc
    unfold Registry.adopt at hc
    split at hc
    · obtain rfl := Option.some.inj hc
      exact Or.inl ⟨url, hfound url _ ‹_›⟩
    · cases hc
  | evict url =>
    change (s.registry.evict url).1 = some c at hc
    rcases s.registry.evict_cases url with ⟨client, hfind, hevict⟩ | ⟨-, hevict⟩
    · rw [hevict] at hc
      obtain rfl := Option.some.inj hc
      exact Or.inl ⟨url, hfound url _ hfind⟩
    · rw [hevict] at hc
      cases hc
  | giveBack url =>
    change (s.registry.giveBack url).1 = some c at hc
    rcases s.registry.giveBack_cases url with ⟨client, users, hfind, -, hgive⟩ |
      ⟨client, users, hfind, -, hgive⟩ | ⟨-, hgive⟩
    · rw [hgive] at hc
      obtain rfl := Option.some.inj hc
      exact Or.inl ⟨url, hfound url _ hfind⟩
    · rw [hgive] at hc
      cases hc
    · rw [hgive] at hc
      cases hc
  | connect url baud =>
    change (s.connect url baud).1.toOption = some c at hc
    refine Or.inr ?_
    show c < (s.connect url baud).2.clients.length
    rcases s.connect_cases url baud with ⟨e, t, ht, -⟩ | ⟨t, ht, -, hlen, -⟩
    · rw [ht] at hc
      cases hc
    · rw [ht] at hc ⊢
      obtain rfl := Option.some.inj hc
      show s.clients.length < t.clients.length
      omega
  | _ => cases hc

/-! ## A pool of polite jobs -/

namespace Pool

variable {α : Type} {p q : Pool α} {past past' : Nat → Dialogue}

/-- Clients that are shared or that jobs heard of are there; a client that one of them keeps to
itself is locked, and no other job has it; and a unit that was just set is still set. -/
structure Guarded (past : Nat → Dialogue) (p : Pool α) : Prop where
  shared : ∀ url c, p.site.registry.cached? url = some c → c < p.site.clients.length
  there : ∀ i c, (∃ e ∈ past i, e.client? = some c) → c < p.site.clients.length
  locked : ∀ i c, (past i).grip = some c →
    ∃ client, p.site.clients[c]? = some client ∧ client.isLocked = true
  alone : ∀ i j c, (past i).grip = some c → (past j).grip = some c → i = j
  selected : ∀ i c unit d, past i = ⟨.select c unit, ()⟩ :: d →
    Dialogue.grip d = some c ∧ ∃ client, p.site.clients[c]? = some client ∧ client.unit = unit

theorem guarded_new (buses : List (String × Segment))
    (streams : List (String × List (Nat × List Telegram.Delivery))) (absence : Absence) :
    (new (Site.new buses streams absence) : Pool α).Guarded fun _ => [] where
  shared := nofun
  there := by rintro i c ⟨e, ⟨⟩, -⟩
  locked := nofun
  alone := nofun
  selected := nofun

theorem Guarded.knows {n i : Nat} {c : ClientId} (h : p.Guarded past)
    (hn : n ≤ p.site.clients.length) (hc : (past i).Knows n c) : c < p.site.clients.length := by
  rcases hc with hlt | htold
  · exact Nat.lt_of_lt_of_le hlt hn
  · exact h.there i c htold

section Step

variable {i n : Nat} {request : Request} {next : request.Answer → Job α}
  {W : Dialogue → ClientId → UInt16 → UInt16 → Prop}

theorem Guarded.not_locks (h : p.Guarded past) (hadmits : p.site.admits request) {j : Nat}
    {c : ClientId} (hgrip : (past j).grip = some c) : request ≠ .lock c := by
  rintro rfl
  obtain ⟨client, hc, hlocked⟩ := h.locked j c hgrip
  change (!((p.site.clients[c]?.map Client.isLocked).getD false)) = true at hadmits
  rw [hc, Option.map_some, Option.getD_some, hlocked] at hadmits
  cases hadmits

theorem Guarded.change_eq (h : p.Guarded past) (hadmits : p.site.admits request)
    (hdue : request.Due n W (past i)) {j : Nat} {c : ClientId} (hj : j ≠ i)
    (hgrip : (past j).grip = some c) (client : Client) : request.change c client = client := by
  have hnot : (past i).grip ≠ some c := fun hi => hj (h.alone j i c hgrip hi)
  cases request with
  | lock c' =>
    have hne : c' ≠ c := fun heq => h.not_locks hadmits hgrip (congrArg Request.lock heq)
    exact if_neg hne
  | unlock c' | select c' _ | close c' =>
    have hne : c' ≠ c := fun heq => hnot (heq ▸ hdue)
    exact if_neg hne
  | _ => rfl

theorem isLocked_change {c : ClientId} {client : Client} (hnot : ∀ i, request ≠ .unlock i)
    (h : client.isLocked = true) : (request.change c client).isLocked = true := by
  cases request with
  | unlock i => exact absurd rfl (hnot i)
  | lock i | select i _ | close i =>
    dsimp only [Request.change]
    split_ifs <;> simp [h]
  | _ => exact h

/-- A request that is due keeps every client to the job that has it. -/
theorem Guarded.step (h : p.Guarded past)
    (hn : n ≤ p.site.clients.length) (hadmits : p.site.admits request)
    (hdue : request.Due n W (past i))
    (hi : past' i = ⟨request, (p.site.answer request).1⟩ :: past i)
    (hothers : ∀ j, j ≠ i → past' j = past j) (jobs : List (Job α)) :
    (⟨(p.site.answer request).2, jobs⟩ : Pool α).Guarded past' := by
  have hgrip : ∀ c, (past' i).grip = some c →
      request = .lock c ∨ ((past i).grip = some c ∧ ∀ k, request ≠ .unlock k) := by
    intro c hc
    rw [hi] at hc
    exact Dialogue.grip_cons hc
  refine ⟨?_, ?_, ?_, ?_, ?_⟩
  · intro url c hc
    refine Nat.lt_of_lt_of_le ?_ (length_clients_answer ..)
    rcases cached?_of_answer hc with hold | rfl
    · exact h.shared url c hold
    · exact h.knows hn hdue
  · intro j c ⟨e, he, hc⟩
    by_cases hj : j = i
    · subst hj
      rw [hi] at he
      rcases List.mem_cons.1 he with rfl | hold
      · rcases cached?_of_told hc with ⟨url, hurl⟩ | hlt
        · exact Nat.lt_of_lt_of_le (h.shared url c hurl) (length_clients_answer ..)
        · exact hlt
      · exact Nat.lt_of_lt_of_le (h.there j c ⟨e, hold, hc⟩) (length_clients_answer ..)
    · rw [hothers j hj] at he
      exact Nat.lt_of_lt_of_le (h.there j c ⟨e, he, hc⟩) (length_clients_answer ..)
  · intro j c hc
    by_cases hj : j = i
    · subst hj
      rcases hgrip c hc with rfl | ⟨hold, hnot⟩
      · have hlt := h.knows hn hdue.2
        exact ⟨_, getElem?_answer (List.getElem?_eq_getElem hlt) _, by simp [Request.change]⟩
      · obtain ⟨client, hclient, hlocked⟩ := h.locked j c hold
        exact ⟨_, getElem?_answer hclient _, isLocked_change hnot hlocked⟩
    · rw [hothers j hj] at hc
      obtain ⟨client, hclient, hlocked⟩ := h.locked j c hc
      refine ⟨_, getElem?_answer hclient _, ?_⟩
      rw [h.change_eq hadmits hdue hj hc]
      exact hlocked
  · -- A client that is just taken was free, so no other job has it.
    have hone : ∀ j c, j ≠ i → (past j).grip = some c → (past' i).grip ≠ some c := by
      intro j c hj hother hc
      rcases hgrip c hc with hlock | ⟨hold, -⟩
      · exact h.not_locks hadmits hother hlock
      · exact hj (h.alone j i c hother hold)
    intro j k c hc hc'
    by_cases hj : j = i
    · by_cases hk : k = i
      · exact hj.trans hk.symm
      · rw [hothers k hk] at hc'
        exact absurd (hj ▸ hc) (hone k c hk hc')
    · rw [hothers j hj] at hc
      by_cases hk : k = i
      · exact absurd (hk ▸ hc') (hone j c hj hc)
      · rw [hothers k hk] at hc'
        exact h.alone j k c hc hc'
  · intro j c unit d hd
    by_cases hj : j = i
    · subst hj
      obtain ⟨hexchange, rfl⟩ := List.cons.inj (hi.symm.trans hd)
      obtain rfl : request = .select c unit := congrArg Exchange.request hexchange
      obtain ⟨client, hclient, -⟩ := h.locked j c hdue
      exact ⟨hdue, _, getElem?_answer hclient _, by simp [Request.change]⟩
    · rw [hothers j hj] at hd
      obtain ⟨hkept, client, hclient, hunit⟩ := h.selected j c unit d hd
      have hc : (past j).grip = some c := by
        rw [hd]
        exact hkept
      refine ⟨hkept, _, getElem?_answer hclient _, ?_⟩
      rw [h.change_eq hadmits hdue hj hc]
      exact hunit

end Step

theorem Guarded.of_clients (h : p.Guarded past) (hsame : q.site.clients = p.site.clients)
    (hregistry : q.site.registry = p.site.registry) : q.Guarded past :=
  ⟨hsame ▸ hregistry ▸ h.shared, hsame ▸ h.there, hsame ▸ h.locked, h.alone, hsame ▸ h.selected⟩

end Pool

end Site

end HomeMetering
