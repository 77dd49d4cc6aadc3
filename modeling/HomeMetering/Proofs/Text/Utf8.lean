import HomeMetering.Text.Utf8
import Mathlib.Tactic.SplitIfs

/-!
# Reading back what was written

An encoded character starts with a byte that tells how many others follow. Each of those lies
between 128 and 191, so none is a byte of another character, and the first of them lies in the range
that the leading byte leaves.
-/

namespace HomeMetering.Text.Utf8

/-! ## One character -/

theorem toNat_byte {n : Nat} (h : n < 256) : (UInt8.ofNat n).toNat = n :=
  UInt8.toNat_ofNat_of_lt' h

theorem continueWith_cons {n low high acc d : Nat} (r : List UInt8) (hd : d < 64)
    (hlow : low ≤ d + 128) (hhigh : d + 128 ≤ high) :
    continueWith (n + 1) low high acc (UInt8.ofNat (d + 128) :: r) =
      ((continueWith n 0x80 0xBF (64 * acc + d) r).1 + 1,
        (continueWith n 0x80 0xBF (64 * acc + d) r).2) := by
  have hbyte : (UInt8.ofNat (d + 128)).toNat = d + 128 := toNat_byte (by omega)
  have hbits : (d + 128) % 64 = d := by omega
  simp only [continueWith, hbyte, hbits]
  rw [if_pos ⟨hlow, hhigh⟩]

theorem next_ascii {v : Nat} (r : List UInt8) (h : v < 128) :
    next (UInt8.ofNat v) r = .char (Char.ofNat v) 1 := by
  have hbyte : (UInt8.ofNat v).toNat = v := toNat_byte (by omega)
  unfold next
  rw [hbyte, if_pos h]

theorem next_lead {lead low high count : Nat} (r : List UInt8) (hlead : 128 ≤ lead ∧ lead < 256)
    (hfollow : follow? lead = some (low, high, count)) :
    next (UInt8.ofNat lead) r =
      if (continueWith count low high (leadBits lead count) r).2.2 then
        .char (Char.ofNat (continueWith count low high (leadBits lead count) r).2.1)
          ((continueWith count low high (leadBits lead count) r).1 + 1)
      else .broken ((continueWith count low high (leadBits lead count) r).1 + 1) := by
  have hbyte : (UInt8.ofNat lead).toNat = lead := toNat_byte hlead.2
  have hnot : ¬ lead < 0x80 := by omega
  unfold next
  rw [hbyte, if_neg hnot, hfollow]
  dsimp only
  rcases continueWith count low high (leadBits lead count) r with ⟨taken, code, whole⟩
  cases whole <;> rfl

theorem leadBits_one (lead : Nat) : leadBits lead 1 = lead % 32 := rfl

theorem leadBits_two (lead : Nat) : leadBits lead 2 = lead % 16 := rfl

theorem leadBits_three (lead : Nat) : leadBits lead 3 = lead % 8 := rfl

theorem next_two {v : Nat} (r : List UInt8) (h : 128 ≤ v ∧ v ≤ 2047) :
    next (UInt8.ofNat (v / 64 % 32 + 192)) (UInt8.ofNat (v % 64 + 128) :: r) =
      .char (Char.ofNat v) 2 := by
  have hfollow : follow? (v / 64 % 32 + 192) = some (0x80, 0xBF, 1) := by
    unfold follow?
    rw [if_pos (by omega)]
  have hcode : 64 * leadBits (v / 64 % 32 + 192) 1 + v % 64 = v := by
    rw [leadBits_one]
    omega
  rw [next_lead _ (by omega) hfollow, continueWith_cons _ (by omega) (by omega) (by omega), hcode]
  rfl

theorem follow?_three {v : Nat} (h : 2048 ≤ v ∧ v ≤ 65535) (hvalid : v < 55296 ∨ 57343 < v) :
    ∃ low high, follow? (v / 4096 % 16 + 224) = some (low, high, 2) ∧
      low ≤ v / 64 % 64 + 128 ∧ v / 64 % 64 + 128 ≤ high := by
  unfold follow?
  split_ifs with h1 h2 h3 h4 <;> first | omega | exact ⟨_, _, rfl, by omega, by omega⟩

theorem next_three {v : Nat} (r : List UInt8) (h : 2048 ≤ v ∧ v ≤ 65535)
    (hvalid : v < 55296 ∨ 57343 < v) :
    next (UInt8.ofNat (v / 4096 % 16 + 224))
        (UInt8.ofNat (v / 64 % 64 + 128) :: UInt8.ofNat (v % 64 + 128) :: r) =
      .char (Char.ofNat v) 3 := by
  obtain ⟨low, high, hfollow, hlow, hhigh⟩ := follow?_three h hvalid
  have hcode : 64 * (64 * leadBits (v / 4096 % 16 + 224) 2 + v / 64 % 64) + v % 64 = v := by
    rw [leadBits_two]
    omega
  rw [next_lead _ (by omega) hfollow, continueWith_cons _ (by omega) hlow hhigh,
    continueWith_cons _ (by omega) (by omega) (by omega), hcode]
  rfl

theorem follow?_four {v : Nat} (h : 65536 ≤ v ∧ v < 1114112) :
    ∃ low high, follow? (v / 262144 % 8 + 240) = some (low, high, 3) ∧
      low ≤ v / 4096 % 64 + 128 ∧ v / 4096 % 64 + 128 ≤ high := by
  unfold follow?
  split_ifs with h1 h2 h3 h4 h5 h6 h7 <;> first | omega | exact ⟨_, _, rfl, by omega, by omega⟩

theorem next_four {v : Nat} (r : List UInt8) (h : 65536 ≤ v ∧ v < 1114112) :
    next (UInt8.ofNat (v / 262144 % 8 + 240))
        (UInt8.ofNat (v / 4096 % 64 + 128) :: UInt8.ofNat (v / 64 % 64 + 128) ::
          UInt8.ofNat (v % 64 + 128) :: r) =
      .char (Char.ofNat v) 4 := by
  obtain ⟨low, high, hfollow, hlow, hhigh⟩ := follow?_four h
  have hcode : 64 * (64 * (64 * leadBits (v / 262144 % 8 + 240) 3 + v / 4096 % 64) +
      v / 64 % 64) + v % 64 = v := by
    rw [leadBits_three]
    omega
  rw [next_lead _ (by omega) hfollow, continueWith_cons _ (by omega) hlow hhigh,
    continueWith_cons _ (by omega) (by omega) (by omega),
    continueWith_cons _ (by omega) (by omega) (by omega), hcode]
  rfl

theorem next_encodeChar (c : Char) (r : List UInt8) :
    ∃ b t, String.utf8EncodeChar c = b :: t ∧ next b (t ++ r) = .char c (t.length + 1) := by
  have hvalid : c.val.toNat < 55296 ∨ 57343 < c.val.toNat ∧ c.val.toNat < 1114112 := c.valid
  have hchar : Char.ofNat c.val.toNat = c := c.ofNat_toNat
  unfold String.utf8EncodeChar
  generalize c.val.toNat = v at hvalid hchar
  dsimp only
  split_ifs with h1 h2 h3
  · exact ⟨_, _, rfl, hchar ▸ next_ascii r (by omega)⟩
  · exact ⟨_, _, rfl, hchar ▸ next_two r (by omega)⟩
  · exact ⟨_, _, rfl, hchar ▸ next_three r (by omega) (by omega)⟩
  · exact ⟨_, _, rfl, hchar ▸ next_four r (by omega)⟩

/-! ## Texts -/

theorem encode_cons (c : Char) (cs : List Char) :
    encode (c :: cs) = String.utf8EncodeChar c ++ encode cs := rfl

theorem encode_append (as bs : List Char) : encode (as ++ bs) = encode as ++ encode bs :=
  List.flatMap_append

theorem length_encode (cs : List Char) : (encode cs).length = size cs := by
  induction cs with
  | nil => rfl
  | cons c cs ih => rw [encode_cons, List.length_append, String.length_utf8EncodeChar, ih, size]

theorem size_append (as bs : List Char) : size (as ++ bs) = size as + size bs := by
  rw [← length_encode, encode_append, List.length_append, length_encode, length_encode]

theorem decode?_encode (cs : List Char) : decode? (encode cs) = some cs := by
  induction cs with
  | nil => simp [encode, decode?]
  | cons c cs ih =>
    obtain ⟨b, t, hbytes, hnext⟩ := next_encodeChar c (encode cs)
    rw [encode_cons, hbytes, List.cons_append, decode?]
    split
    · next h =>
      rw [hnext] at h
      cases h
    · next c' w h =>
      rw [hnext] at h
      obtain ⟨rfl, rfl⟩ := Head.char.inj h
      rw [List.drop_succ_cons, List.drop_left, ih]
      rfl

/-! ## Back to bytes -/

theorem continueWith_true {n low high acc taken code : Nat} {r : List UInt8}
    (h : continueWith (n + 1) low high acc r = (taken, code, true)) :
    ∃ b t k, r = b :: t ∧ (low ≤ b.toNat ∧ b.toNat ≤ high) ∧ taken = k + 1 ∧
      continueWith n 0x80 0xBF (64 * acc + b.toNat % 64) t = (k, code, true) := by
  cases r with
  | nil => simp [continueWith] at h
  | cons b t =>
    simp only [continueWith] at h
    split_ifs at h with hb
    · obtain ⟨htaken, hrest⟩ := Prod.mk.inj h
      exact ⟨b, t, _, rfl, hb, htaken.symm, Prod.ext rfl hrest⟩
    · cases h

theorem toNat_val_ofNat {v : Nat} (h : v < 55296 ∨ 57343 < v ∧ v < 1114112) :
    (Char.ofNat v).val.toNat = v := by
  have hvalid : v.isValidChar := h
  unfold Char.ofNat
  rw [dif_pos hvalid]
  rfl

theorem ofNat_eq {n : Nat} (b : UInt8) (h : n = b.toNat) : UInt8.ofNat n = b := by
  rw [h, UInt8.ofNat_toNat]

theorem encodeChar_two {b b1 : UInt8} (hb : 0xC2 ≤ b.toNat ∧ b.toNat ≤ 0xDF)
    (hb1 : 0x80 ≤ b1.toNat ∧ b1.toNat ≤ 0xBF) :
    String.utf8EncodeChar (Char.ofNat (64 * (b.toNat % 32) + b1.toNat % 64)) = [b, b1] := by
  unfold String.utf8EncodeChar
  rw [toNat_val_ofNat (by omega)]
  dsimp only
  rw [if_neg (by omega), if_pos (by omega), ofNat_eq b (by omega),
    ofNat_eq b1 (by omega)]

theorem encodeChar_three {b b1 b2 : UInt8} {low high : Nat}
    (hfollow : follow? b.toNat = some (low, high, 2)) (hb1 : low ≤ b1.toNat ∧ b1.toNat ≤ high)
    (hb2 : 0x80 ≤ b2.toNat ∧ b2.toNat ≤ 0xBF) :
    String.utf8EncodeChar (Char.ofNat
      (64 * (64 * (b.toNat % 16) + b1.toNat % 64) + b2.toNat % 64)) = [b, b1, b2] := by
  have hrange : 0xE0 ≤ b.toNat ∧ b.toNat ≤ 0xEF ∧ 0x80 ≤ b1.toNat ∧ b1.toNat ≤ 0xBF ∧
      (b.toNat = 0xE0 → 0xA0 ≤ b1.toNat) ∧ (b.toNat = 0xED → b1.toNat ≤ 0x9F) := by
    unfold follow? at hfollow
    split_ifs at hfollow <;> simp only [Option.some.injEq, Prod.mk.injEq] at hfollow <;> omega
  unfold String.utf8EncodeChar
  rw [toNat_val_ofNat (by omega)]
  dsimp only
  rw [if_neg (by omega), if_neg (by omega), if_pos (by omega), ofNat_eq b (by omega),
    ofNat_eq b1 (by omega), ofNat_eq b2 (by omega)]

theorem encodeChar_four {b b1 b2 b3 : UInt8} {low high : Nat}
    (hfollow : follow? b.toNat = some (low, high, 3)) (hb1 : low ≤ b1.toNat ∧ b1.toNat ≤ high)
    (hb2 : 0x80 ≤ b2.toNat ∧ b2.toNat ≤ 0xBF) (hb3 : 0x80 ≤ b3.toNat ∧ b3.toNat ≤ 0xBF) :
    String.utf8EncodeChar (Char.ofNat (64 * (64 * (64 * (b.toNat % 8) + b1.toNat % 64) +
      b2.toNat % 64) + b3.toNat % 64)) = [b, b1, b2, b3] := by
  have hrange : 0xF0 ≤ b.toNat ∧ b.toNat ≤ 0xF4 ∧ 0x80 ≤ b1.toNat ∧ b1.toNat ≤ 0xBF ∧
      (b.toNat = 0xF0 → 0x90 ≤ b1.toNat) ∧ (b.toNat = 0xF4 → b1.toNat ≤ 0x8F) := by
    unfold follow? at hfollow
    split_ifs at hfollow <;> simp only [Option.some.injEq, Prod.mk.injEq] at hfollow <;> omega
  unfold String.utf8EncodeChar
  rw [toNat_val_ofNat (by omega)]
  dsimp only
  rw [if_neg (by omega), if_neg (by omega), if_neg (by omega), ofNat_eq b (by omega),
    ofNat_eq b1 (by omega), ofNat_eq b2 (by omega), ofNat_eq b3 (by omega)]

theorem follow?_count {lead low high count : Nat} (h : follow? lead = some (low, high, count)) :
    count = 1 ∧ (0xC2 ≤ lead ∧ lead ≤ 0xDF) ∧ low = 0x80 ∧ high = 0xBF ∨ count = 2 ∨ count = 3 := by
  unfold follow? at h
  split_ifs at h <;> simp only [Option.some.injEq, Prod.mk.injEq] at h <;> omega

theorem encodeChar_of_next {b : UInt8} {r : List UInt8} {c : Char} {w : Nat}
    (h : next b r = .char c w) : b :: r = String.utf8EncodeChar c ++ (b :: r).drop w := by
  unfold next at h
  split_ifs at h with hascii
  · obtain ⟨rfl, rfl⟩ := Head.char.inj h
    unfold String.utf8EncodeChar
    rw [toNat_val_ofNat (by omega)]
    dsimp only
    rw [if_pos (by omega), ofNat_eq b rfl]
    rfl
  · split at h
    · cases h
    · next low high count hfollow =>
      split at h
      · next taken code hcont =>
        obtain ⟨rfl, rfl⟩ := Head.char.inj h
        rcases follow?_count hfollow with ⟨rfl, hlead, rfl, rfl⟩ | rfl | rfl
        · obtain ⟨b1, t, k, rfl, hb1, rfl, hend⟩ := continueWith_true hcont
          obtain ⟨rfl, hcode⟩ := Prod.mk.inj hend
          obtain ⟨rfl, -⟩ := Prod.mk.inj hcode
          rw [leadBits_one, encodeChar_two hlead hb1]
          rfl
        · obtain ⟨b1, t1, k1, rfl, hb1, rfl, hcont1⟩ := continueWith_true hcont
          obtain ⟨b2, t2, k2, rfl, hb2, rfl, hend⟩ := continueWith_true hcont1
          obtain ⟨rfl, hcode⟩ := Prod.mk.inj hend
          obtain ⟨rfl, -⟩ := Prod.mk.inj hcode
          rw [leadBits_two, encodeChar_three hfollow hb1 hb2]
          rfl
        · obtain ⟨b1, t1, k1, rfl, hb1, rfl, hcont1⟩ := continueWith_true hcont
          obtain ⟨b2, t2, k2, rfl, hb2, rfl, hcont2⟩ := continueWith_true hcont1
          obtain ⟨b3, t3, k3, rfl, hb3, rfl, hend⟩ := continueWith_true hcont2
          obtain ⟨rfl, hcode⟩ := Prod.mk.inj hend
          obtain ⟨rfl, -⟩ := Prod.mk.inj hcode
          rw [leadBits_three, encodeChar_four hfollow hb1 hb2 hb3]
          rfl
      · cases h

theorem encode_of_decode? {bs : List UInt8} {cs : List Char} (h : decode? bs = some cs) :
    encode cs = bs := by
  induction bs using decode?.induct generalizing cs with
  | case1 => 
    rw [decode?] at h
    obtain rfl := Option.some.inj h
    rfl
  | case2 b r w hnext =>
    rw [decode?] at h
    split at h
    · cases h
    · next heq => rw [hnext] at heq; cases heq
  | case3 b r c w hnext ih =>
    rw [decode?] at h
    split at h
    · cases h
    · next c' w' heq =>
      rw [hnext] at heq
      obtain ⟨rfl, rfl⟩ := Head.char.inj heq
      obtain ⟨cs', hrest, rfl⟩ := Option.map_eq_some_iff.1 h
      rw [encode_cons, ih hrest, ← encodeChar_of_next hnext]

/-! ## Line ends -/

/-- A byte below 128 is a character and no part of another. -/
theorem eq_ofNat_of_mem_encodeChar {c : Char} {b : UInt8} (h : b ∈ String.utf8EncodeChar c)
    (hb : b.toNat < 128) : c = Char.ofNat b.toNat := by
  have hvalid : c.val.toNat < 55296 ∨ 57343 < c.val.toNat ∧ c.val.toNat < 1114112 := c.valid
  have hchar : Char.ofNat c.val.toNat = c := c.ofNat_toNat
  have hpart : ∀ n, 128 ≤ n → n < 256 → b ≠ UInt8.ofNat n := by
    rintro n hn hlt rfl
    rw [toNat_byte hlt] at hb
    omega
  unfold String.utf8EncodeChar at h
  generalize c.val.toNat = v at hvalid hchar h
  dsimp only at h
  split_ifs at h with h1 h2 h3 <;> simp only [List.mem_cons, List.not_mem_nil, or_false] at h
  · rw [h, toNat_byte (by omega), hchar]
  · rcases h with h | h <;> exact absurd h (hpart _ (by omega) (by omega))
  · rcases h with h | h | h <;> exact absurd h (hpart _ (by omega) (by omega))
  · rcases h with h | h | h | h <;> exact absurd h (hpart _ (by omega) (by omega))

theorem newline_mem_encode {cs : List Char} (h : (10 : UInt8) ∈ encode cs) : '\n' ∈ cs := by
  obtain ⟨c, hc, hmem⟩ := List.mem_flatMap.1 h
  have heq : c = '\n' := eq_ofNat_of_mem_encodeChar hmem (by decide)
  exact heq ▸ hc

end HomeMetering.Text.Utf8
