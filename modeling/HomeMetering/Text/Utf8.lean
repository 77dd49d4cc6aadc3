/-!
# UTF-8

Bytes are read one character at a time. `next` tells how many bytes the character, or the longest
part of one that went wrong, takes.
-/

namespace HomeMetering.Text.Utf8

/-- What stands at the start of some bytes. -/
inductive Head where
  | char (c : Char) (width : Nat)
  | broken (width : Nat)
  deriving Repr, DecidableEq

/-- The bounds of the second byte and the number of bytes after the first. -/
def follow? (lead : Nat) : Option (Nat × Nat × Nat) :=
  if 0xC2 ≤ lead ∧ lead ≤ 0xDF then some (0x80, 0xBF, 1)
  else if lead = 0xE0 then some (0xA0, 0xBF, 2)
  else if lead = 0xED then some (0x80, 0x9F, 2)
  else if 0xE1 ≤ lead ∧ lead ≤ 0xEF then some (0x80, 0xBF, 2)
  else if lead = 0xF0 then some (0x90, 0xBF, 3)
  else if 0xF1 ≤ lead ∧ lead ≤ 0xF3 then some (0x80, 0xBF, 3)
  else if lead = 0xF4 then some (0x80, 0x8F, 3)
  else none

/-- The continuation bytes that follow, at most `n` of them, and the code point they build. -/
def continueWith : Nat → Nat → Nat → Nat → List UInt8 → Nat × Nat × Bool
  | 0, _, _, acc, _ => (0, acc, true)
  | _ + 1, _, _, acc, [] => (0, acc, false)
  | n + 1, low, high, acc, b :: r =>
    if low ≤ b.toNat ∧ b.toNat ≤ high then
      let (taken, code, whole) := continueWith n 0x80 0xBF (64 * acc + b.toNat % 64) r
      (taken + 1, code, whole)
    else (0, acc, false)

/-- The bits of a leading byte that belong to the code point. -/
def leadBits (lead count : Nat) : Nat := lead % Nat.pow 2 (6 - count)

/-- The character, or broken part of one, at the start. -/
def next (b : UInt8) (r : List UInt8) : Head :=
  if b.toNat < 0x80 then .char (Char.ofNat b.toNat) 1
  else match follow? b.toNat with
    | none => .broken 1
    | some (low, high, count) =>
      match continueWith count low high (leadBits b.toNat count) r with
      | (taken, code, true) => .char (Char.ofNat code) (taken + 1)
      | (taken, _, false) => .broken (taken + 1)

/-- Bytes a head takes. -/
def Head.width : Head → Nat
  | .char _ w => w
  | .broken w => w

theorem width_pos (b : UInt8) (r : List UInt8) : 0 < (next b r).width := by
  simp only [next]
  split
  · simp [Head.width]
  · split
    · simp [Head.width]
    · split <;> simp [Head.width]

/-- The text, or nothing when some part is broken. -/
def decode? : List UInt8 → Option (List Char)
  | [] => some []
  | b :: r =>
    match _h : next b r with
    | .broken _ => none
    | .char c w => (decode? ((b :: r).drop w)).map (c :: ·)
termination_by bs => bs.length
decreasing_by
  have := width_pos b r
  simp only [_h, Head.width] at this
  simp only [List.length_drop, List.length_cons]
  omega

/-- The text, with one replacement character for every broken part. -/
def decodeLossy : List UInt8 → List Char
  | [] => []
  | b :: r =>
    match _h : next b r with
    | .broken w => '\uFFFD' :: decodeLossy ((b :: r).drop w)
    | .char c w => c :: decodeLossy ((b :: r).drop w)
termination_by bs => bs.length
decreasing_by
  all_goals
    have := width_pos b r
    simp only [_h, Head.width] at this
    simp only [List.length_drop, List.length_cons]
    omega

def encode (cs : List Char) : List UInt8 := cs.flatMap String.utf8EncodeChar

def size : List Char → Nat
  | [] => 0
  | c :: r => c.utf8Size + size r

/-- What follows the first `n` bytes, when a character starts there. -/
def dropBytes? : Nat → List Char → Option (List Char)
  | 0, cs => some cs
  | _ + 1, [] => none
  | n + 1, c :: r => if c.utf8Size ≤ n + 1 then dropBytes? (n + 1 - c.utf8Size) r else none
termination_by _ cs => cs.length

/-- The first `n` bytes, when a character ends there. -/
def takeBytes? : Nat → List Char → Option (List Char)
  | 0, _ => some []
  | _ + 1, [] => none
  | n + 1, c :: r =>
    if c.utf8Size ≤ n + 1 then (takeBytes? (n + 1 - c.utf8Size) r).map (c :: ·) else none
termination_by _ cs => cs.length

end HomeMetering.Text.Utf8
