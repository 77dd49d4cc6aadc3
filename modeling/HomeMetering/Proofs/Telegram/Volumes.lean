import HomeMetering.Proofs.Lookup
import HomeMetering.Proofs.Modbus.Addresses
import HomeMetering.Proofs.Telegram.RoundTrip
import HomeMetering.Telegram.Values
import Mathlib.Data.List.Induction

/-!
# Objects in any order

The objects of a telegram stand under a code each, and no order of them means anything. Codes that
spell the number of a channel differently may announce several devices on it, and sorting by channel
leaves those in the order in which they came. What they count is looked up under the one code of the
channel, so whichever of them is last, a volume is the reading of the highest channel.
-/

namespace HomeMetering.Telegram

/-- A code that announces the device on a channel. The number may have zeros in front. -/
def Announces (code : String) (channel : Nat) : Prop :=
  ∃ ds, code.toList = ['0', '-'] ++ (ds ++ ":24.1.0".toList) ∧ IsNumber ds ∧
    Text.digitsValue ds = channel ∧ channel ≤ 255

/-- The kind of a device that was announced with some values. -/
def kindOf (values : List String) : DeviceKind :=
  .ofType ((values.head?.bind fun v => Text.cardinal? 255 v.toList).getD 0)

/-- A channel of some kind has a reading. -/
def Reads (t : Telegram) (kind : DeviceKind) (channel : Nat) (x : Float) : Prop :=
  (∃ o ∈ t.objects, Announces o.1 channel ∧ kindOf o.2 = kind) ∧
    t.number? (readingCode channel) = some x

/-- The reading of the highest channel of a kind that has one, or zero when none has. -/
def ShowsHighest (t : Telegram) (kind : DeviceKind) (v : Volume) : Prop :=
  (∃ channel x, t.Reads kind channel x ∧
    (∀ channel' x', t.Reads kind channel' x' → channel' ≤ channel) ∧ v = ⟨x⟩) ∨
  ((∀ channel x, ¬ t.Reads kind channel x) ∧ v = .zero)

theorem ShowsHighest.unique {t : Telegram} {kind : DeviceKind} {v v' : Volume}
    (h : t.ShowsHighest kind v) (h' : t.ShowsHighest kind v') : v = v' := by
  rcases h with ⟨c, x, hreads, hhighest, rfl⟩ | ⟨hnone, rfl⟩ <;>
    rcases h' with ⟨c', x', hreads', hhighest', rfl⟩ | ⟨hnone', rfl⟩
  · obtain rfl : c = c' := Nat.le_antisymm (hhighest' c x hreads) (hhighest c' x' hreads')
    rw [Option.some.inj (hreads.2.symm.trans hreads'.2)]
  · exact absurd hreads (hnone' c x)
  · exact absurd hreads' (hnone c' x')
  · rfl

/-! ## Codes of channels -/

theorem digits?_eq_some {cs ds rest : List Char} (h : digits? cs = some (ds, rest)) :
    cs = ds ++ rest ∧ ds ≠ [] ∧ ∀ c ∈ ds, Text.isDigit c = true := by
  unfold digits? at h
  rw [List.span_eq_takeWhile_dropWhile] at h
  split at h
  · cases h
  · next hne =>
    obtain ⟨rfl, rfl⟩ := Prod.mk.inj (Option.some.inj h)
    refine ⟨(List.takeWhile_append_dropWhile ..).symm, fun hnil => hne _ (by rw [hnil]), ?_⟩
    exact fun c hc => List.mem_takeWhile_imp hc

/-- Digits of any script are no cardinal unless they are ASCII, and there is no sign before them. -/
theorem cardinal?_digits {ds : List Char} (hds : ∀ c ∈ ds, Text.isDigit c = true) {top n : Nat} :
    Text.cardinal? top ds = some n ↔ IsNumber ds ∧ Text.digitsValue ds = n ∧ n ≤ top := by
  unfold Text.cardinal?
  dsimp only
  split
  · exact absurd (hds '+' List.mem_cons_self) (by decide)
  · unfold IsNumber
    simp only [Bool.or_eq_true, Bool.not_eq_true', decide_eq_true_eq, List.isEmpty_iff,
      Option.ite_none_left_eq_some, Option.some.injEq, not_or, Bool.not_eq_false, List.all_eq_true,
      Nat.not_lt, and_assoc, ne_eq]
    refine and_congr_right fun _ => and_congr_right fun _ => ?_
    rw [and_comm]
    exact and_congr_right fun hvalue => by rw [hvalue]

theorem channel?_eq_some_iff (code : String) (channel : Nat) :
    channel? code = some channel ↔ Announces code channel := by
  constructor
  · intro h
    obtain ⟨rest, hfront, hrest⟩ := Option.bind_eq_some_iff.1 h
    obtain ⟨⟨ds, after⟩, hdigits, hvalue⟩ := Option.bind_eq_some_iff.1 hrest
    dsimp only at hvalue
    split_ifs at hvalue with hafter
    obtain ⟨rfl, -, hds⟩ := digits?_eq_some hdigits
    refine ⟨ds, ?_, (cardinal?_digits hds).1 hvalue⟩
    rw [Text.dropFront?_eq_some hfront, hafter]
  · rintro ⟨ds, hcode, hnumber, hvalue⟩
    have hcolon : ∀ c ∈ ":24.1.0".toList.head?, Text.isDigit c = false := by
      rintro c ⟨⟩
      decide
    unfold channel?
    rw [hcode, Text.dropFront?_append, Option.bind_eq_bind, Option.bind_some,
      digits?_append hnumber hcolon, Option.bind_eq_bind, Option.bind_some]
    dsimp only
    rw [if_pos rfl]
    exact (cardinal?_digits hnumber.isDigit).2 ⟨hnumber, hvalue⟩

/-! ## Devices -/

theorem mem_devices {t : Telegram} {d : Device} :
    d ∈ t.devices ↔ (∃ o ∈ t.objects, Announces o.1 d.channel ∧ kindOf o.2 = d.kind) ∧
      d.reading = t.number? (readingCode d.channel) := by
  simp only [devices, List.mem_mergeSort, List.mem_filterMap, deviceOf?, Option.map_eq_some_iff,
    ← channel?_eq_some_iff]
  constructor
  · rintro ⟨o, ho, channel, hchannel, rfl⟩
    exact ⟨⟨o, ho, hchannel, rfl⟩, rfl⟩
  · rintro ⟨⟨o, ho, hchannel, hkind⟩, hreading⟩
    refine ⟨o, ho, d.channel, hchannel, ?_⟩
    cases d
    simp_all [kindOf]

theorem pairwise_devices (t : Telegram) :
    t.devices.Pairwise fun d d' => d.channel ≤ d'.channel := by
  have hsorted : t.devices.Pairwise fun d d' => decide (d.channel ≤ d'.channel) = true :=
    List.pairwise_mergeSort (fun _ _ _ h h' => by simp only [decide_eq_true_eq] at *; omega)
      (fun _ _ => by simp only [Bool.or_eq_true, decide_eq_true_eq]; omega) _
  exact hsorted.imp fun h => of_decide_eq_true h

theorem volumeOf_concat (kind : DeviceKind) (ds : List Device) (d : Device) :
    volumeOf kind (ds ++ [d]) =
      match d.reading with
      | some x => if d.kind = kind then ⟨x⟩ else volumeOf kind ds
      | none => volumeOf kind ds := by
  unfold volumeOf
  rw [List.foldl_append]
  rfl

/-- The last device of a kind that has a reading is on the highest channel of those that have. -/
theorem volumeOf_cases (kind : DeviceKind) {ds : List Device}
    (h : ds.Pairwise fun d d' => d.channel ≤ d'.channel) :
    (∃ d ∈ ds, ∃ x, d.kind = kind ∧ d.reading = some x ∧
      (∀ d' ∈ ds, d'.kind = kind → d'.reading ≠ none → d'.channel ≤ d.channel) ∧
      volumeOf kind ds = ⟨x⟩) ∨
    ((∀ d ∈ ds, d.kind = kind → d.reading = none) ∧ volumeOf kind ds = .zero) := by
  induction ds using List.reverseRecOn with
  | nil => exact Or.inr ⟨fun _ h => (List.not_mem_nil h).elim, rfl⟩
  | append_singleton ds d ih =>
    obtain ⟨hds, -, hlast⟩ := List.pairwise_append.1 h
    rw [volumeOf_concat]
    by_cases hcounts : d.kind = kind ∧ d.reading ≠ none
    · -- The device decides, and none before it is on a higher channel.
      obtain ⟨hkind, hreads⟩ := hcounts
      obtain ⟨x, hx⟩ := Option.ne_none_iff_exists'.1 hreads
      refine Or.inl ⟨d, List.mem_concat_self, x, hkind, hx, ?_, by simp [hx, hkind]⟩
      intro d' hd' _ _
      rcases List.mem_append.1 hd' with hd' | hd'
      · exact hlast d' hd' d (List.mem_singleton_self d)
      · rw [List.mem_singleton.1 hd']
    · -- The device says nothing, so the ones before it decide.
      have hskip : d.kind = kind → d.reading = none := fun hkind =>
        not_not.1 fun hreads => hcounts ⟨hkind, hreads⟩
      have hsame : (match d.reading with
          | some x => if d.kind = kind then ⟨x⟩ else volumeOf kind ds
          | none => volumeOf kind ds) = volumeOf kind ds := by
        by_cases hkind : d.kind = kind
        · simp [hskip hkind]
        · cases d.reading <;> simp [hkind]
      rw [hsame]
      simp only [List.mem_append, List.mem_singleton]
      rcases ih hds with ⟨d₀, hd₀, x, hkind, hx, hhighest, hv⟩ | ⟨hnone, hv⟩
      · refine Or.inl ⟨d₀, Or.inl hd₀, x, hkind, hx, ?_, hv⟩
        rintro d' (hd' | rfl) hkind' hreads'
        · exact hhighest d' hd' hkind' hreads'
        · exact absurd (hskip hkind') hreads'
      · refine Or.inr ⟨?_, hv⟩
        rintro d' (hd' | rfl) hkind'
        · exact hnone d' hd' hkind'
        · exact hskip hkind'

theorem showsHighest_volumeOf (t : Telegram) (kind : DeviceKind) :
    t.ShowsHighest kind (volumeOf kind t.devices) := by
  -- A channel that has a reading is one of a device that has it.
  have hdevice : ∀ channel x, t.Reads kind channel x →
      ⟨channel, kind, some x⟩ ∈ t.devices := fun channel x hreads =>
    mem_devices.2 ⟨hreads.1, hreads.2.symm⟩
  rcases volumeOf_cases kind t.pairwise_devices with
    ⟨d, hd, x, rfl, hx, hhighest, hv⟩ | ⟨hnone, hv⟩
  · obtain ⟨hannounced, hreading⟩ := mem_devices.1 hd
    refine Or.inl ⟨d.channel, x, ⟨hannounced, hreading.symm.trans hx⟩, ?_, hv⟩
    exact fun channel' x' hreads => hhighest _ (hdevice channel' x' hreads) rfl (by simp)
  · refine Or.inr ⟨fun channel x hreads => ?_, hv⟩
    cases hnone _ (hdevice channel x hreads) rfl

/-! ## Other orders -/

section

variable {t t' : Telegram} (hcodes : (t.objects.map Prod.fst).Nodup)
  (horder : t.objects.Perm t'.objects)

include hcodes horder

theorem number?_of_perm : t.number? = t'.number? := by
  funext code
  unfold number? object?
  rw [lookup_of_perm hcodes horder]

theorem reads_of_perm (kind : DeviceKind) (channel : Nat) (x : Float) :
    t.Reads kind channel x ↔ t'.Reads kind channel x := by
  unfold Reads
  simp only [number?_of_perm hcodes horder, horder.mem_iff]

/-- What a telegram says does not depend on the order of its objects, and the volumes are readings
of the highest channels. -/
theorem values_of_perm {K : Type} [Quantity K] (lines : List LineIndex) :
    t.values (K := K) lines = t'.values lines ∧
      t.ShowsHighest .gas (t.values (K := K) lines).gas ∧
      t.ShowsHighest .water (t.values (K := K) lines).water := by
  have hnumber := number?_of_perm hcodes horder
  have hvolume : ∀ kind, volumeOf kind t.devices = volumeOf kind t'.devices := by
    intro kind
    have hother : t.ShowsHighest kind (volumeOf kind t'.devices) := by
      have hshows := t'.showsHighest_volumeOf kind
      unfold ShowsHighest at hshows ⊢
      simpa only [reads_of_perm hcodes horder] using hshows
    exact (t.showsHighest_volumeOf kind).unique hother
  refine ⟨?_, t.showsHighest_volumeOf .gas, t.showsHighest_volumeOf .water⟩
  have hstate : t.stateOf lines = t'.stateOf lines := by
    have hline : t.addLine = t'.addLine := by
      funext s line
      simp only [addLine, numberOf, hnumber]
    rw [stateOf, hline]
    rfl
  simp only [values, hstate, hnumber, hvolume]

end

/-- A channel that is announced as gas and, spelled differently, as water, and another one. -/
def tied : Telegram where
  header := "/KFM5KAIFA-METER"
  objects :=
    [("0-1:24.1.0", ["003"]), ("0-01:24.1.0", ["007"]),
      ("0-1:24.2.1", ["101209112500W", "12785.123*m3"]), ("0-2:24.1.0", ["003"]),
      ("0-2:24.2.1", ["101209112500W", "00042.001*m3"])]

theorem tied_in_reverse :
    let back : Telegram := ⟨tied.header, tied.objects.reverse⟩
    (tied.objects.map Prod.fst).Nodup ∧ tied.objects.Perm back.objects ∧
      tied.values (K := Float) [0, 2] = back.values [0, 2] ∧
      tied.ShowsHighest .gas (tied.values (K := Float) [0, 2]).gas ∧
      tied.ShowsHighest .water (tied.values (K := Float) [0, 2]).water := by
  intro back
  have hcodes : (tied.objects.map Prod.fst).Nodup := by decide
  have horder : tied.objects.Perm back.objects := (List.reverse_perm tied.objects).symm
  exact ⟨hcodes, horder, values_of_perm hcodes horder [0, 2]⟩

end HomeMetering.Telegram
