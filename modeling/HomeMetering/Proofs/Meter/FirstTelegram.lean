import HomeMetering.Proofs.Meter.Following

/-!
# The telegram that a probe waits for

A probe takes what its port hands on first. Noise is skipped before that, but a telegram whose
checksum is wrong or cannot be read is handed on as rejected, and the probe gives up on it instead
of waiting for the next one, as a follower does.
-/

namespace HomeMetering

open Site Site.Job Telegram

/-! ## Streams without failures -/

namespace Telegram.Reader

/-- Deliveries of some bytes in pieces; the stream ends after them, or stays open. -/
inductive Brings (ended : Bool) : List UInt8 → List Delivery → Prop
  | nil : Brings ended [] (if ended then [.hangUp] else [])
  | bytes (bs : List UInt8) {cs : List UInt8} {ds : List Delivery} (rest : Brings ended cs ds) :
      Brings ended (bs ++ cs) (.bytes bs :: ds)

/-- What the calls on such a stream hand on, from a reader on. -/
def handedOn (ended : Bool) (r : Reader) (bs : List UInt8) : List Outcome :=
  (r.allOfBytes bs).2 ++ if ended then (r.allOfBytes bs).1.unfinished else []

/-- What a call on such a stream comes to. -/
inductive Hands (ended : Bool) (os : List Outcome) : Option Outcome × List Delivery → Prop
  | more {o : Outcome} {cs : List UInt8} {ds : List Delivery} (told : ∀ f, o ≠ .failed f)
      (rest : Brings ended cs ds) (eq : os = o :: handedOn ended fresh cs) :
      Hands ended os (some o, ds)
  | pending {ds : List Delivery} (eq : os = []) (isOpen : ended = false) : Hands ended os (none, ds)
  | atEnd {ds : List Delivery} (eq : os = []) (isEnded : ended = true) :
      Hands ended os (some (.failed .endOfStream), ds)

theorem hands_next {ended : Bool} {bs : List UInt8} {ds : List Delivery} (h : Brings ended bs ds)
    (r : Reader) : Hands ended (handedOn ended r bs) (r.next ds).2 := by
  induction h generalizing r with
  | nil =>
    cases ended with
    | false => exact .pending rfl rfl
    | true =>
      show Hands true (handedOn true r []) (some r.finish.2, [.hangUp])
      rcases r.finish_eq_or with hend | htold
      · rw [hend]
        exact .atEnd (if_pos hend) rfl
      · exact .more htold .nil (if_neg (htold _))
  | @bytes bs cs ds rest ih =>
    have hall : handedOn ended r (bs ++ cs) =
        (r.allOfBytes bs).2 ++ handedOn ended (r.allOfBytes bs).1 cs := by
      unfold handedOn
      rw [allOfBytes_append, List.append_assoc]
    unfold next
    rcases htake : r.takeBytes bs with ⟨r', _ | ⟨o, left⟩⟩
    · dsimp only
      rw [hall, (takeBytes_none htake).1]
      exact ih r'
    · dsimp only
      obtain ⟨-, htold, hbytes⟩ := takeBytes_some htake
      refine .more htold (.bytes left rest) ?_
      rw [hall, hbytes]
      unfold handedOn
      rw [allOfBytes_append, List.cons_append, List.append_assoc]

theorem readAll_of_brings {ended : Bool} {bs : List UInt8} {ds : List Delivery}
    (h : Brings ended bs ds) : readAll ds = handedOn ended fresh bs := by
  induction hn : remaining ds using Nat.strong_induction_on generalizing bs ds with
  | _ n ih =>
    have hnext := hands_next h fresh
    generalize handedOn ended fresh bs = os at hnext
    unfold readAll
    split
    · next heq =>
      rw [heq] at hnext
      cases hnext with
      | pending eq => exact eq.symm
    · next o ds' heq =>
      rw [heq] at hnext
      cases hnext with
      | more told rest eq =>
        have hlt := remaining_next fresh ds heq (told _)
        rw [dif_neg (told _), eq, ih _ (hn ▸ hlt) rest rfl]
      | atEnd eq => rw [dif_pos rfl, eq]

theorem next_of_readAll {ds : List Delivery} {o : Outcome} {os : List Outcome}
    (h : readAll ds = o :: os) : (fresh.next ds).2.1 = some o := by
  unfold readAll at h
  split at h
  · cases h
  · next o' rest heq =>
    split_ifs at h
    rw [heq, (List.cons.inj h).1]

theorem handedOn_ne_failed (ended : Bool) (r : Reader) (bs : List UInt8) :
    ∀ o ∈ handedOn ended r bs, ∀ f, o ≠ .failed f := by
  intro o ho f
  rcases List.mem_append.1 ho with hbytes | hlast
  · exact allOfBytes_ne_failed r bs o hbytes f
  · unfold unfinished at hlast
    split_ifs at hlast with hended hfinish
    · exact absurd hlast List.not_mem_nil
    · rw [List.mem_singleton.1 hlast]
      exact ((r.allOfBytes bs).1.finish_eq_or.resolve_left hfinish) f
    · exact absurd hlast List.not_mem_nil

end Telegram.Reader

/-- A telegram is the first one that is handed on, with other outcomes before it. -/
structure Telegram.IsFirst (os before : List Outcome) (t : Telegram) : Prop where
  handed : ∃ after, os = before ++ .telegram t :: after
  first : ∀ o ∈ before, ∀ t', o ≠ .telegram t'

/-! ## Probes -/

/-- What a port delivers when it is opened. -/
def Site.delivers? (s : Site) (device : String) (baud : Nat) : Option (List Delivery) :=
  (s.streams.lookup device).map fun rates => (rates.lookup baud).getD []

namespace Meter.Dsmr

variable {K : Type} [Quantity K] {s : Site} {device : String} {baud : Nat} {ds : List Delivery}

/-- What a probe makes of what its port hands on first. -/
def verdict (port : PortId) (device : String) (baud : Nat) (setup : Setup) (timeout : Nat) :
    Option Outcome → Except MeterError (Dsmr K)
  | none => .error (.noTelegram timeout)
  | some (.rejected e) => .error (.telegram e)
  | some (.failed f) => .error (.io f)
  | some (.telegram t) => .ok (ofFirst device baud setup port t)

omit [Quantity K] in
theorem openPort_of_delivers (h : s.delivers? device baud = some ds) :
    ∃ t, s.openPort device baud = (.ok s.ports.length, t) ∧
      t.ports[s.ports.length]? = some (.new device ds) := by
  obtain ⟨rates, hrates, rfl⟩ := Option.map_eq_some_iff.1 h
  have hstreams : (s.record (.portOpened device baud)).streams.lookup device = some rates := hrates
  let port := Port.new device ((rates.lookup baud).getD [])
  refine ⟨{ s.record (.portOpened device baud) with ports := s.ports ++ [port] }, ?_,
    List.getElem?_concat_length⟩
  unfold openPort
  dsimp only
  rw [hstreams]
  rfl

theorem fst_firstTelegram {port : PortId} (h : s.ports[port]? = some (.new device ds))
    (timeout : Nat) : (s.firstTelegram port timeout).1 = (Reader.fresh.next ds).2.1 := by
  have hfirst : (Port.new device ds).first.1 = (Reader.fresh.next ds).2.1 := rfl
  unfold firstTelegram
  rw [h, ← hfirst]
  dsimp only
  rcases (Port.new device ds).first with ⟨_ | o, p⟩ <;> rfl

theorem probe_eq_verdict (h : s.delivers? device baud = some ds) (setup : Setup) (timeout : Nat) :
    (((probe device baud setup timeout).run s).1 : Except MeterError (Dsmr K)) =
      verdict s.ports.length device baud setup timeout (Reader.fresh.next ds).2.1 := by
  obtain ⟨t, hopen, hport⟩ := openPort_of_delivers h
  have hopen' : (request (.openPort device baud)).run s = (.ok s.ports.length, t) := hopen
  have hfirst : ((request (.firstTelegram s.ports.length timeout)).run t).1 =
      (Reader.fresh.next ds).2.1 := fst_firstTelegram hport timeout
  unfold probe
  rw [run_seq, hopen']
  dsimp only
  rw [run_seq, hfirst]
  rcases (Reader.fresh.next ds).2.1 with _ | t | e | f <;> rfl

variable (K) in
/-- A probe finds a meter, with the model and the serial number of a telegram. -/
def FindsBy (s : Site) (device : String) (baud : Nat) (setup : Setup) (timeout : Nat)
    (t : Telegram) : Prop :=
  ∃ m : Dsmr K, ((probe device baud setup timeout).run s).1 = .ok m ∧ m.model = t.model ∧
    m.serial = t.equipmentId?.getD ""

/-- A probe waits for the first telegram of a stream through whatever noise comes before it, but
gives up on a telegram that is rejected. -/
theorem findsBy_first_iff (h : s.delivers? device baud = some ds) {ended : Bool} {bs : List UInt8}
    (hds : Reader.Brings ended bs ds) {before : List Outcome} {t : Telegram}
    (hfirst : IsFirst (Reader.readAll ds) before t) (setup : Setup) (timeout : Nat) :
    Reader.readAll ds = Reader.handedOn ended .fresh bs ∧
      (∀ o ∈ before, ∃ e, o = .rejected e) ∧
      (FindsBy K s device baud setup timeout t ↔ before = []) ∧
      ∀ e others, before = .rejected e :: others →
        (((probe device baud setup timeout).run s).1 : Except MeterError (Dsmr K)) =
          .error (.telegram e) := by
  obtain ⟨after, hall⟩ := hfirst.handed
  have hbytes := Reader.readAll_of_brings hds
  have hprobe := probe_eq_verdict (K := K) h setup timeout
  have hrejected : ∀ o ∈ before, ∃ e, o = .rejected e := by
    intro o ho
    have htold := Reader.handedOn_ne_failed ended .fresh bs o
      (hbytes ▸ hall ▸ List.mem_append_left _ ho)
    cases o with
    | telegram t' => exact absurd rfl (hfirst.first _ ho t')
    | failed f => exact absurd rfl (htold f)
    | rejected e => exact ⟨e, rfl⟩
  have herror : ∀ e others, before = .rejected e :: others →
      (((probe device baud setup timeout).run s).1 : Except MeterError (Dsmr K)) =
        .error (.telegram e) := by
    rintro e others rfl
    rw [hprobe, Reader.next_of_readAll hall]
    rfl
  refine ⟨hbytes, hrejected, ?_, herror⟩
  cases before with
  | nil =>
    refine iff_of_true ⟨ofFirst device baud setup s.ports.length t, ?_, rfl, rfl⟩ rfl
    rw [hprobe, Reader.next_of_readAll hall]
    rfl
  | cons o others =>
    obtain ⟨e, rfl⟩ := hrejected o List.mem_cons_self
    refine iff_of_false ?_ (List.cons_ne_nil _ _)
    rintro ⟨m, hm, -⟩
    rw [herror e others rfl] at hm
    cases hm

/-! ## Streams that start badly -/

/-- A site where a smart meter has sent a text. -/
def cupboardWith (text : String) : Site :=
  .new [] [("p1", [(115200, [.bytes (Text.Utf8.encode text.toList)])])]
    ⟨fun _ => .timeout, .notFound⟩

theorem brings_cupboardWith (text : String) :
    Reader.Brings false (Text.Utf8.encode text.toList) [.bytes (Text.Utf8.encode text.toList)] := by
  have hbrings : Reader.Brings false (Text.Utf8.encode text.toList ++ [])
      [.bytes (Text.Utf8.encode text.toList)] := .bytes _ .nil
  rwa [List.append_nil] at hbrings

/-- The end of a telegram, then a whole one. -/
theorem found_after_noise :
    let text := "1-0:21.7.0(2)\n!\n/KAM5\n\n1-0:21.7.0(1)\n!\n"
    let s := cupboardWith text
    s.delivers? "p1" 115200 = some [.bytes (Text.Utf8.encode text.toList)] ∧
      IsFirst (Reader.readAll [.bytes (Text.Utf8.encode text.toList)]) [] (telling "1") ∧
      FindsBy Rat s "p1" 115200 cupboardSetup 1000 (telling "1") := by
  intro text s
  have hdelivers : s.delivers? "p1" 115200 = some [.bytes (Text.Utf8.encode text.toList)] := by rfl
  have hbrings := brings_cupboardWith text
  have hfirst : IsFirst (Reader.readAll [.bytes (Text.Utf8.encode text.toList)]) []
      (telling "1") := by
    refine ⟨⟨[], ?_⟩, nofun⟩
    rw [Reader.readAll_of_brings hbrings]
    decide +kernel
  exact ⟨hdelivers, hfirst,
    (findsBy_first_iff hdelivers hbrings hfirst cupboardSetup 1000).2.2.1.2 rfl⟩

/-- A telegram whose checksum is wrong, then one without a checksum. -/
theorem not_found_after_rejected :
    let text := "/KAM5\n\n1-0:21.7.0(2)\n!0000\n/KAM5\n\n1-0:21.7.0(1)\n!\n"
    let s := cupboardWith text
    let os := Reader.readAll [.bytes (Text.Utf8.encode text.toList)]
    s.delivers? "p1" 115200 = some [.bytes (Text.Utf8.encode text.toList)] ∧
      (∃ e, IsFirst os [.rejected e] (telling "1")) ∧
      ∀ t, ¬ FindsBy Rat s "p1" 115200 cupboardSetup 1000 t := by
  intro text s os
  have hdelivers : s.delivers? "p1" 115200 = some [.bytes (Text.Utf8.encode text.toList)] := by rfl
  have hall : os = [.rejected (.checksumMismatch 0 8859), .telegram (telling "1")] := by
    show Reader.readAll _ = _
    rw [Reader.readAll_of_brings (brings_cupboardWith text)]
    decide +kernel
  refine ⟨hdelivers, ⟨_, ⟨[], hall⟩, ?_⟩, ?_⟩
  · intro o ho t
    rw [List.mem_singleton.1 ho]
    exact nofun
  · rintro t ⟨m, hm, -⟩
    rw [probe_eq_verdict hdelivers, Reader.next_of_readAll hall] at hm
    cases hm

end Meter.Dsmr

end HomeMetering
