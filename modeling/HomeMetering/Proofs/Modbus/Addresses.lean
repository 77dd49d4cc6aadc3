import HomeMetering.Modbus.ConnectUrl

/-!
# Addresses of one bus

A scheme and a place name a bus, and a network address may leave out port 502. There is no other
freedom: two addresses of one bus are the same text, or one is the other with the port at its end.
-/

namespace HomeMetering

theorem Text.dropFront?_eq_some {front cs rest : List Char} (h : dropFront? front cs = some rest) :
    cs = front ++ rest := by
  induction front generalizing cs with
  | nil => exact Option.some.inj h
  | cons a front ih =>
    cases cs with
    | nil => cases h
    | cons c cs =>
      unfold dropFront? at h
      split at h
      · rename_i heq
        rw [ih h, heq, List.cons_append]
      · cases h

theorem Text.dropPrefix?_eq_some {front text rest : String}
    (h : dropPrefix? front text = some rest) : text = front ++ rest := by
  obtain ⟨cs, hcs, rfl⟩ := Option.map_eq_some_iff.1 h
  rw [← String.ofList_toList (s := text), dropFront?_eq_some hcs, String.ofList_append,
    String.ofList_toList]

theorem Text.dropFront?_append (front rest : List Char) :
    dropFront? front (front ++ rest) = some rest := by
  induction front with
  | nil => rfl
  | cons a front ih => simpa [dropFront?] using ih

theorem Text.dropPrefix?_append (front rest : String) :
    dropPrefix? front (front ++ rest) = some rest := by
  simp [dropPrefix?, dropFront?_append]

namespace Modbus.ConnectUrl

variable {url url' host host' : String}

theorem withPort_cases (host : String) :
    (':' ∈ host.toList ∧ withPort host = host) ∨
      (':' ∉ host.toList ∧ withPort host = host ++ ":502") := by
  unfold withPort
  by_cases hport : ':' ∈ host.toList
  · exact Or.inl ⟨hport, if_pos (List.contains_iff_mem.2 hport)⟩
  · exact Or.inr ⟨hport, if_neg fun h => hport (List.contains_iff_mem.1 h)⟩

theorem eq_or_port_of_withPort (h : withPort host = withPort host') :
    host' = host ∨ host' = host ++ ":502" ∨ host = host' ++ ":502" := by
  rcases withPort_cases host with ⟨-, hhost⟩ | ⟨-, hhost⟩ <;>
    rcases withPort_cases host' with ⟨-, hhost'⟩ | ⟨-, hhost'⟩ <;> rw [hhost, hhost'] at h
  · exact Or.inl h.symm
  · exact Or.inr (Or.inr h)
  · exact Or.inr (Or.inl h.symm)
  · exact Or.inl ((String.append_left_inj ":502").1 h).symm

/-- What the address of a bus starts with. -/
def scheme : ConnectUrl → String
  | tcp _ => "tcp://"
  | rtuOverTcp _ => "rtuovertcp://"
  | rtu _ => "rtu://"

theorem parse_eq_ok {bus : ConnectUrl} (h : parse url = .ok bus) :
    ∃ host, host ≠ "" ∧ url = bus.scheme ++ host ∧
      bus.target = if bus.isSerial then host else withPort host := by
  unfold parse at h
  split at h
  · rename_i host hhost
    split at h <;> cases h
    rename_i hne
    exact ⟨host, by simpa using hne, Text.dropPrefix?_eq_some hhost, rfl⟩
  · split at h
    · rename_i host hhost
      split at h <;> cases h
      rename_i hne
      exact ⟨host, by simpa using hne, Text.dropPrefix?_eq_some hhost, rfl⟩
    · split at h
      · rename_i device hdevice
        split at h <;> cases h
        rename_i hne
        exact ⟨device, by simpa using hne, Text.dropPrefix?_eq_some hdevice, rfl⟩
      · cases h

/-! ## Texts that are addresses -/

/-- An address of a serial device. -/
def NamesDevice (url : String) : Prop := ∃ device, device ≠ "" ∧ url = "rtu://" ++ device

/-- An address of a host in the network or of a serial device. -/
def IsAddress (url : String) : Prop :=
  (∃ host, host ≠ "" ∧ (url = "tcp://" ++ host ∨ url = "rtuovertcp://" ++ host)) ∨ NamesDevice url

theorem parse_tcp (h : host ≠ "") : parse ("tcp://" ++ host) = .ok (.tcp (withPort host)) := by
  simp [parse, Text.dropPrefix?_append, h]

theorem parse_rtuOverTcp (h : host ≠ "") :
    parse ("rtuovertcp://" ++ host) = .ok (.rtuOverTcp (withPort host)) := by
  have htcp : Text.dropPrefix? "tcp://" ("rtuovertcp://" ++ host) = none := by
    simp [Text.dropPrefix?, Text.dropFront?]
  simp [parse, htcp, Text.dropPrefix?_append, h]

theorem parse_rtu {device : String} (h : device ≠ "") :
    parse ("rtu://" ++ device) = .ok (.rtu device) := by
  have htcp : Text.dropPrefix? "tcp://" ("rtu://" ++ device) = none := by
    simp [Text.dropPrefix?, Text.dropFront?]
  have hover : Text.dropPrefix? "rtuovertcp://" ("rtu://" ++ device) = none := by
    simp [Text.dropPrefix?, Text.dropFront?]
  simp [parse, htcp, hover, Text.dropPrefix?_append, h]

theorem isAddress_of_parse {bus : ConnectUrl} (h : parse url = .ok bus) : IsAddress url := by
  obtain ⟨place, hne, rfl, -⟩ := parse_eq_ok h
  cases bus with
  | tcp _ => exact .inl ⟨place, hne, .inl rfl⟩
  | rtuOverTcp _ => exact .inl ⟨place, hne, .inr rfl⟩
  | rtu _ => exact .inr ⟨place, hne, rfl⟩

theorem parse_of_isAddress (h : IsAddress url) : ∃ bus, parse url = .ok bus := by
  obtain ⟨host, hne, rfl | rfl⟩ | ⟨device, hne, rfl⟩ := h
  · exact ⟨_, parse_tcp hne⟩
  · exact ⟨_, parse_rtuOverTcp hne⟩
  · exact ⟨_, parse_rtu hne⟩

theorem isSerial_iff {bus : ConnectUrl} (h : parse url = .ok bus) :
    bus.isSerial = true ↔ NamesDevice url := by
  constructor
  · intro hserial
    obtain ⟨place, hne, rfl, -⟩ := parse_eq_ok h
    cases bus with
    | rtu _ => exact ⟨place, hne, rfl⟩
    | tcp _ | rtuOverTcp _ => cases hserial
  · rintro ⟨device, hne, rfl⟩
    rw [parse_rtu hne] at h
    cases h
    rfl

/-- Two addresses name one bus: the same kind of line to the same place. -/
def SameBus (url url' : String) : Prop := ∃ bus, parse url = .ok bus ∧ parse url' = .ok bus

/-- Two addresses of one bus are the same text, but for the port that one of them may leave out. -/
theorem SameBus.eq_or_port (h : SameBus url url') :
    url' = url ∨ url' = url ++ ":502" ∨ url = url' ++ ":502" := by
  obtain ⟨bus, hurl, hurl'⟩ := h
  obtain ⟨host, -, rfl, hhost⟩ := parse_eq_ok hurl
  obtain ⟨host', -, rfl, hhost'⟩ := parse_eq_ok hurl'
  have hplace : host' = host ∨ host' = host ++ ":502" ∨ host = host' ++ ":502" := by
    rw [hhost] at hhost'
    split at hhost'
    · exact Or.inl hhost'.symm
    · exact eq_or_port_of_withPort hhost'
  rcases hplace with rfl | rfl | rfl
  · exact Or.inl rfl
  · exact Or.inr (Or.inl (String.append_assoc ..).symm)
  · exact Or.inr (Or.inr (String.append_assoc ..).symm)

end Modbus.ConnectUrl

end HomeMetering
