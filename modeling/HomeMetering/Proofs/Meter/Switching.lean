import HomeMetering.Meter.CarloGavazzi
import HomeMetering.Proofs.Modbus.Exclusive
import HomeMetering.Proofs.Site.Reading

/-!
# Only an EM24 is ever written to

Autodetection asks every unit for the registers of several brands, so a stray write would change the
setup of somebody else's device. The only write switches an EM24 over to application H, after the
device was identified, runs another application and is not locked.
-/

namespace HomeMetering

open Electricity Modbus Site Site.Job

variable {K : Type}

/-! ## Reads -/

namespace Modbus

/-- What is said when a block of a unit is read, the latest exchange first. -/
def asked (client : ClientId) (unit : UInt8) (block : Block)
    (answer : Except BusError (List UInt16)) : Dialogue :=
  [⟨.unlock client, ()⟩, ⟨.read client block, answer⟩, ⟨.select client unit, ()⟩,
    ⟨.lock client, ()⟩]

/-- What is said when a register of a unit is written. -/
def told (client : ClientId) (unit : UInt8) (address value : UInt16)
    (answer : Except BusError Unit) : Dialogue :=
  [⟨.unlock client, ()⟩, ⟨.write client address value, answer⟩, ⟨.select client unit, ()⟩,
    ⟨.lock client, ()⟩]

def Exchange.isWrite : Exchange → Bool
  | ⟨.write _ _ _, _⟩ => true
  | _ => false

def writes (d : Dialogue) : Nat := d.countP Exchange.isWrite

section

variable {α β : Type} {n : Nat} {W : Dialogue → ClientId → UInt16 → UInt16 → Prop}
  {R : Dialogue → β → Prop} {past : Dialogue} {client : ClientId}

theorem since_read (hgrip : past.grip = none) (hknown : past.Knows n client) (unit : UInt8)
    (block : Block) {f : Except BusError (List UInt16) → Job β}
    (hf : ∀ answer, (f (block.accept answer)).Since (Request.Due n W) R
      (asked client unit block answer ++ past)) :
    (readBlock client unit block >>= f).Since (Request.Due n W) R past :=
  ⟨⟨hgrip, hknown⟩, fun _ => ⟨rfl, fun _ => ⟨rfl, fun answer => ⟨rfl, fun _ => hf answer⟩⟩⟩⟩

theorem since_write (hgrip : past.grip = none) (hknown : past.Knows n client) (unit : UInt8)
    {address value : UInt16}
    (hmay : W ([⟨.select client unit, ()⟩, ⟨.lock client, ()⟩] ++ past) client address value)
    {f : Except BusError Unit → Job β}
    (hf : ∀ answer, (f answer).Since (Request.Due n W) R
      (told client unit address value answer ++ past)) :
    (writeRegister client unit address value >>= f).Since (Request.Due n W) R past :=
  ⟨⟨hgrip, hknown⟩, fun _ => ⟨rfl, fun _ => ⟨⟨rfl, hmay⟩, fun answer => ⟨rfl, fun _ =>
    hf answer⟩⟩⟩⟩

theorem grip_asked (unit : UInt8) (block : Block) (answer : Except BusError (List UInt16))
    (d : Dialogue) : Dialogue.grip (asked client unit block answer ++ d) = none := rfl

theorem knows_asked (hknown : past.Knows n client) (d : Dialogue) :
    Dialogue.Knows (d ++ past) n client :=
  hknown.mono (List.suffix_append d past)

theorem accept_cases (block : Block) (hblock : block.quantity = 1)
    (answer : Except BusError (List UInt16)) :
    (∃ e, block.accept answer = .error e) ∨
      ∃ r rs, answer = .ok (r :: rs) ∧ block.accept answer = .ok (r :: rs) := by
  unfold Block.accept
  rw [hblock]
  cases answer with
  | error e => exact Or.inl ⟨e, rfl⟩
  | ok registers =>
    cases registers with
    | nil => exact Or.inl ⟨_, rfl⟩
    | cons r rs =>
      refine Or.inr ⟨r, rs, rfl, ?_⟩
      show (if (r :: rs).length < 1 then Except.error (.shortResponse 1 (r :: rs).length) else
        .ok (r :: rs)) = _
      exact if_neg (by simp)

end

end Modbus

/-! ## Identifying an analyzer -/

namespace Meter.CarloGavazzi

def applicationBlock : Block := .holding applicationAddress 1

def selectorBlock : Block := .holding selectorAddress 1

/-- What has been said when an EM24 runs another application and is not locked, up to setting its
unit once more. -/
def FindsUnlocked (client : ClientId) (unit : UInt8) (d : Dialogue) : Prop :=
  ∃ (application selector : UInt16) (applications selectors : List UInt16),
    application ≠ 7 ∧ selector ≠ 3 ∧
      d = [⟨.select client unit, ()⟩, ⟨.lock client, ()⟩] ++
        (asked client unit selectorBlock (.ok (selector :: selectors)) ++
          asked client unit applicationBlock (.ok (application :: applications)))

/-- What an identification has said when it may switch the device: it is an EM24, runs another
application and is not locked. -/
def FindsSwitchable (client : ClientId) (unit : UInt8) (d : Dialogue) : Prop :=
  ∃ (id : UInt16) (ids : List UInt16) (serial : Except BusError (List UInt16)) (d' : Dialogue),
    (1648 ≤ id.toNat ∧ id.toNat ≤ 1653) ∧ FindsUnlocked client unit d' ∧
      d = d' ++ (asked client unit serialBlock serial ++
        asked client unit modelBlock (.ok (id :: ids)))

/-- When a register may be written: at the end of such an identification of a unit. -/
def MaySwitch (units : UInt8 → Prop) (d : Dialogue) (client : ClientId) (address value : UInt16) :
    Prop :=
  address = 0x1101 ∧ value = 7 ∧ ∃ unit d' earlier, units unit ∧ d = d' ++ earlier ∧
    FindsSwitchable client unit d'

/-- Writes that fail decide the result. -/
def TellsFailure {α : Type} (d : Dialogue) (result : Except MeterError α) : Prop :=
  ∀ client address value e, ⟨.write client address value, .error e⟩ ∈ d →
    result = .error (.notSwitched e)

theorem tellsFailure_of_writes {α : Type} {d : Dialogue} (h : writes d = 0)
    (result : Except MeterError α) : TellsFailure d result := by
  intro client address value e he
  exact absurd rfl (List.countP_eq_zero.1 h _ he)

theorem tellsFailure_told {d : Dialogue} (h : writes d = 0) (client : ClientId) (unit : UInt8)
    (address value : UInt16) (answer : Except BusError Unit) :
    TellsFailure (told client unit address value answer ++ d) (answer.mapError .notSwitched) := by
  intro c a v e he
  rcases List.mem_append.1 he with hsaid | hd
  · -- The only write said here is the one that was answered.
    rcases hsaid with _ | ⟨_, hsaid⟩
    rcases hsaid with _ | ⟨_, hsaid⟩
    · rfl
    · rcases hsaid with _ | ⟨_, _ | ⟨_, ⟨⟩⟩⟩
  · exact absurd rfl (List.countP_eq_zero.1 h _ hd)

theorem TellsFailure.append {α : Type} {d d' : Dialogue} {result : Except MeterError α}
    (h : TellsFailure d result) (hd' : writes d' = 0) : TellsFailure (d ++ d') result := by
  intro client address value e he
  rcases List.mem_append.1 he with hd | hlater
  · exact h client address value e hd
  · exact absurd rfl (List.countP_eq_zero.1 hd' _ hlater)

theorem TellsFailure.map {α β : Type} {d : Dialogue} {result : Except MeterError α}
    (h : TellsFailure d result) (f : α → β) : TellsFailure d (result.map f) := by
  intro client address value e he
  rw [h client address value e he]
  rfl

theorem family_em24 {id : Nat} (h : Family.ofModelId? id = some .em24) :
    1648 ≤ id ∧ id ≤ 1653 := by
  unfold Family.ofModelId? at h
  split at h
  · assumption
  · split at h
    · cases h
    · split at h <;> cases h

section

variable {n : Nat} {past : Dialogue} {link : Link}

theorem since_readOne {β : Type} {W : Dialogue → ClientId → UInt16 → UInt16 → Prop}
    {R : Dialogue → β → Prop} (hgrip : past.grip = none) (hknown : past.Knows n link.client)
    (address : UInt16) {f : Except BusError UInt16 → Job β}
    (herror : ∀ e answer, (f (.error e)).Since (Request.Due n W) R
      (asked link.client link.unit (.holding address 1) answer ++ past))
    (hok : ∀ r rs, (f (.ok r)).Since (Request.Due n W) R
      (asked link.client link.unit (.holding address 1) (.ok (r :: rs)) ++ past)) :
    (readOne link address >>= f).Since (Request.Due n W) R past := by
  unfold readOne
  rw [LawfulMonad.bind_assoc]
  refine since_read hgrip hknown _ _ fun answer => ?_
  rcases accept_cases (.holding address 1) rfl answer with ⟨e, haccept⟩ | ⟨r, rs, rfl, haccept⟩
  · rw [haccept]
    exact herror e answer
  · rw [haccept]
    exact hok r rs

theorem since_ensureApplicationH (hgrip : past.grip = none) (hknown : past.Knows n link.client) :
    (ensureApplicationH link).Since
      (Request.Due n fun d client address value => client = link.client ∧ address = 0x1101 ∧
        value = 7 ∧ ∃ d', d = d' ++ past ∧ FindsUnlocked client link.unit d')
      (fun d result => d.grip = none ∧ ∃ d', d = d' ++ past ∧ TellsFailure d' result) past := by
  refine since_readOne hgrip hknown _ (fun e answer => ?_) fun application applications => ?_
  · exact .done ⟨rfl, _, rfl, tellsFailure_of_writes rfl _⟩
  dsimp only
  split
  · exact .done ⟨rfl, _, rfl, tellsFailure_of_writes rfl _⟩
  rename_i hother
  refine since_readOne (grip_asked ..) (knows_asked hknown _) _ (fun e answer => ?_)
    fun selector selectors => ?_
  · exact .done ⟨rfl, _, (List.append_assoc ..).symm, tellsFailure_of_writes rfl _⟩
  dsimp only
  split
  · exact .done ⟨rfl, _, (List.append_assoc ..).symm, tellsFailure_of_writes rfl _⟩
  rename_i hunlocked
  have hfinds : FindsUnlocked link.client link.unit _ :=
    ⟨application, selector, applications, selectors, hother, hunlocked, rfl⟩
  refine since_write (grip_asked ..) (knows_asked (knows_asked hknown _) _) _
    ⟨rfl, rfl, rfl, _, rfl, hfinds⟩ fun written => ?_
  exact .done ⟨rfl, told link.client link.unit applicationAddress applicationH written ++
    (asked link.client link.unit selectorBlock _ ++ asked link.client link.unit applicationBlock _),
    rfl, tellsFailure_told rfl _ _ _ _ _⟩

variable [Quantity K]

/-- An identification writes at most once, where it may, and tells when that fails. -/
theorem since_probe (hgrip : past.grip = none) (hknown : past.Knows n link.client)
    (setup : Setup) :
    (probe link setup : Job (Except MeterError (CarloGavazzi K))).Since
      (Request.Due n fun d client address value => client = link.client ∧ address = 0x1101 ∧
        value = 7 ∧ ∃ d', d = d' ++ past ∧ FindsSwitchable client link.unit d')
      (fun d result => d.grip = none ∧ ∃ d', d = d' ++ past ∧ TellsFailure d' result) past := by
  refine since_read hgrip hknown _ _ fun model => ?_
  rcases accept_cases modelBlock rfl model with ⟨e, haccept⟩ | ⟨id, ids, rfl, haccept⟩
  · rw [haccept]
    exact .done ⟨rfl, _, rfl, tellsFailure_of_writes rfl _⟩
  rw [haccept]
  dsimp only
  split
  · exact .done ⟨rfl, _, rfl, tellsFailure_of_writes rfl _⟩
  rename_i family hfamily
  refine since_read (grip_asked ..) (knows_asked hknown _) _ _ fun serial => ?_
  split
  · rename_i hem24
    subst hem24
    have hid : 1648 ≤ id.toNat ∧ id.toNat ≤ 1653 := family_em24 hfamily
    refine Since.bind ((since_ensureApplicationH (grip_asked ..)
      (knows_asked (knows_asked hknown _) _)).imp ?_ fun _ _ h => h) ?_
    · intro d q hdue
      refine hdue.imp ?_
      rintro client address value ⟨rfl, haddress, hvalue, d', rfl, hfinds⟩
      exact ⟨rfl, haddress, hvalue, d' ++ (asked link.client link.unit serialBlock serial ++
        asked link.client link.unit modelBlock (.ok (id :: ids))), by simp,
        id, ids, serial, d', hid, hfinds, rfl⟩
    · rintro d result ⟨hfree, d', rfl, htells⟩
      refine .done ⟨hfree, d' ++ (asked link.client link.unit serialBlock serial ++
        asked link.client link.unit modelBlock (.ok (id :: ids))), by simp, ?_⟩
      exact (htells.append rfl).map _
  · exact .done ⟨rfl, _, (List.append_assoc ..).symm, tellsFailure_of_writes rfl _⟩

theorem since_probe_nil (link : Link) (setup : Setup) :
    (probe link setup : Job (Except MeterError (CarloGavazzi K))).Since
      (Request.Due (link.client + 1) fun d client address value => client = link.client ∧
        address = 0x1101 ∧ value = 7 ∧ ∃ d', d = d' ++ [] ∧ FindsSwitchable client link.unit d')
      (fun d result => d.grip = none ∧ ∃ d', d = d' ++ [] ∧ TellsFailure d' result) [] :=
  since_probe rfl (Or.inl (Nat.lt_succ_self _)) setup

theorem FindsSwitchable.select {client : ClientId} {unit : UInt8} {d : Dialogue}
    (h : FindsSwitchable client unit d) : ∃ d', d = ⟨.select client unit, ()⟩ :: d' := by
  obtain ⟨id, ids, serial, _, -,
      ⟨application, selector, applications, selectors, -, -, rfl⟩, rfl⟩ := h
  exact ⟨_, rfl⟩

theorem writes_of_finds {client : ClientId} {unit : UInt8} {d : Dialogue}
    (h : FindsSwitchable client unit d) : writes d = 0 := by
  obtain ⟨id, ids, serial, _, -,
      ⟨application, selector, applications, selectors, -, -, rfl⟩, rfl⟩ := h
  rfl

theorem writes_cons_of_not_write {q : Request} (answer : q.Answer) (d : Dialogue)
    (h : ∀ client address value, q ≠ .write client address value) :
    writes (⟨q, answer⟩ :: d) = writes d := by
  cases q with
  | write client address value => exact absurd rfl (h client address value)
  | _ => rfl

theorem writes_le_one {setup : Setup} {d : Dialogue}
    {rest : Job (Except MeterError (CarloGavazzi K))} (h : (probe link setup).Talks d rest) :
    writes d ≤ 1 := by
  induction h with
  | start => exact Nat.zero_le 1
  | @hear d q next answer earlier ih =>
    by_cases hwrite : ∃ client address value, q = .write client address value
    · obtain ⟨client, address, value, rfl⟩ := hwrite
      have hdue := ((since_probe_nil link setup).talks earlier).1
      obtain ⟨-, -, -, -, d', hd, hfinds⟩ := hdue
      rw [List.append_nil, List.append_nil] at hd
      have hone : writes (⟨.write client address value, answer⟩ :: d) = writes d + 1 :=
        List.countP_cons_of_pos rfl
      have hnone : writes d = 0 := hd ▸ writes_of_finds hfinds
      omega
    · rw [writes_cons_of_not_write answer d fun c a v hq => hwrite ⟨c, a, v, hq⟩]
      exact ih

theorem tellsFailure_of_talks {setup : Setup} {d : Dialogue}
    {result : Except MeterError (CarloGavazzi K)}
    (h : (probe link setup).Talks d (pure result)) : TellsFailure d result := by
  obtain ⟨-, d', hd, htells⟩ := (since_probe_nil link setup).talks h
  rw [List.append_nil, List.append_nil] at hd
  exact hd ▸ htells

end

end Meter.CarloGavazzi

end HomeMetering
