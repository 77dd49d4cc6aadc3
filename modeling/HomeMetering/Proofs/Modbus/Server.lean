import HomeMetering.Modbus.Wire

/-!
# A server on the other end

What a server that keeps to the protocol makes of a request to read registers, and what the client
makes of its response.
-/

namespace HomeMetering.Modbus

/-! ## Numbers in bytes -/

/-- The number in two bytes. -/
def number (high low : UInt8) : Nat := 256 * high.toNat + low.toNat

theorem number_bytes (x : UInt16) : number (x >>> 8).toUInt8 x.toUInt8 = x.toNat := by
  have hhigh : ((x >>> 8).toUInt8).toNat = x.toNat / 256 := by
    have hx := x.toNat_lt
    simp only [UInt16.toNat_toUInt8, UInt16.toNat_shiftRight, UInt16.reduceToNat, Nat.reduceMod,
      Nat.shiftRight_eq_div_pow]
    omega
  have hlow : (x.toUInt8).toNat = x.toNat % 256 := by simp
  unfold number
  omega

theorem register_bytes (x : UInt16) :
    (x >>> 8).toUInt8.toUInt16 <<< 8 ||| x.toUInt8.toUInt16 = x := by
  apply UInt16.toNat_inj.1
  have hx := number_bytes x
  have hlow := (x.toUInt8).toNat_lt
  have hhigh := ((x >>> 8).toUInt8).toNat_lt
  unfold number at hx
  simp only [UInt16.toNat_or, UInt16.toNat_shiftLeft, UInt8.toNat_toUInt16, UInt16.reduceToNat,
    Nat.reduceMod]
  rw [Nat.mod_eq_of_lt (by rw [Nat.shiftLeft_eq]; omega),
    ← Nat.shiftLeft_add_eq_or_of_lt hlow, Nat.shiftLeft_eq]
  omega

theorem registersOf_bytesOf (rs : List UInt16) : Framing.registersOf (bytesOf rs) = rs := by
  induction rs with
  | nil => rfl
  | cons r rs ih =>
    show ((r >>> 8).toUInt8.toUInt16 <<< 8 ||| r.toUInt8.toUInt16) ::
      Framing.registersOf (bytesOf rs) = r :: rs
    rw [register_bytes, ih]

theorem length_bytesOf (rs : List UInt16) : (bytesOf rs).length = 2 * rs.length := by
  induction rs with
  | nil => rfl
  | cons r rs ih =>
    show (bytesOf rs).length + 2 = 2 * (rs.length + 1)
    omega

/-! ## Requests and responses -/

/-- A request to read registers, as a frame says it. -/
structure Query where
  unit : UInt8
  code : UInt8
  address : Nat
  quantity : Nat
  deriving Repr, DecidableEq

namespace Framing

/-- The query in a frame, when the frame is sound. -/
def query? : Framing → List UInt8 → Option Query
  | .tcp, [_, _, p₁, p₀, n₁, n₀, unit, code, a₁, a₀, q₁, q₀] =>
    if number p₁ p₀ = 0 ∧ number n₁ n₀ = 6 then
      some ⟨unit, code, number a₁ a₀, number q₁ q₀⟩
    else none
  | .rtu, [unit, code, a₁, a₀, q₁, q₀, c₀, c₁] =>
    if number c₁ c₀ = (Checksum.modbus [unit, code, a₁, a₀, q₁, q₀]).toNat then
      some ⟨unit, code, number a₁ a₀, number q₁ q₀⟩
    else none
  | _, _ => none

/-- The frame of a response: over TCP behind the transaction and the protocol of the request and
the length, on a serial line before the checksum. -/
def respond (f : Framing) (request payload : List UInt8) : List UInt8 :=
  match f with
  | .tcp => request.take 4 ++ bytesOf [payload.length.toUInt16] ++ payload
  | .rtu =>
    let crc := Checksum.modbus payload
    payload ++ [crc.toUInt8, (crc >>> 8).toUInt8]

end Framing

/-- The bank that a function code reads. -/
def Bank.ofCode? (code : UInt8) : Option Bank :=
  if code = 3 then some .holding else if code = 4 then some .input else none

/-- What every register of every unit holds. -/
abbrev Memory := UInt8 → Bank → Nat → UInt16

namespace Memory

/-- Registers from an address on, in order. -/
def registers (m : Memory) (unit : UInt8) (bank : Bank) (address quantity : Nat) : List UInt16 :=
  (List.range quantity).map fun i => m unit bank (address + i)

/-- The answer to a query from the function code on: the registers, or an exception. -/
def answer (m : Memory) (q : Query) : List UInt8 :=
  match Bank.ofCode? q.code with
  | none => [q.code ||| 0x80, 1]
  | some bank =>
    if q.quantity = 0 ∨ 125 < q.quantity then [q.code ||| 0x80, 3]
    else if 65536 < q.address + q.quantity then [q.code ||| 0x80, 2]
    else q.code :: (2 * q.quantity).toUInt8 ::
      bytesOf (m.registers q.unit bank q.address q.quantity)

/-- What a server sends for a frame; one that is broken, or is for no unit, it leaves alone. -/
def reply (m : Memory) (f : Framing) (request : List UInt8) : List UInt8 :=
  match f.query? request with
  | none => []
  | some q =>
    if 1 ≤ q.unit.toNat ∧ q.unit.toNat ≤ 247 then f.respond request (q.unit :: m.answer q) else []

end Memory

/-! ## What a client sends and understands -/

/-- The query that a client has when it reads a block of a unit. -/
def Block.query (block : Block) (unit : UInt8) : Query :=
  ⟨unit, (Call.read block).code, block.address.toNat, block.quantity.toNat⟩

/-- A block that one response can carry. -/
structure Block.Fits (block : Block) : Prop where
  pos : 1 ≤ block.quantity.toNat
  small : block.quantity.toNat ≤ 120
  inside : block.address.toNat + block.quantity.toNat ≤ 65536

namespace Framing

/-- A response whose first bytes tell its length. -/
structure Whole (f : Framing) (response : List UInt8) : Prop where
  head : f.headLength ≤ response.length
  length : f.responseLength (response.take f.headLength) = .ok response.length

theorem request_read (f : Framing) (unit : UInt8) (block : Block) :
    ∃ frame, f.request unit (.read block) = .ok frame ∧
      f.query? frame = some (block.query unit) ∧
      (f = .tcp → frame.take 4 = bytesOf [transaction, 0]) := by
  cases f with
  | tcp =>
    refine ⟨_, rfl, ?_, fun _ => rfl⟩
    have hread : ∀ a b : UInt16, Framing.tcp.query? (bytesOf [transaction, 0, 6] ++
        unit :: (Call.read block).code :: bytesOf [a, b]) =
          some ⟨unit, (Call.read block).code, a.toNat, b.toNat⟩ := by
      intro a b
      rw [← number_bytes a, ← number_bytes b]
      rfl
    exact hread block.address block.quantity
  | rtu =>
    let crc := Checksum.modbus (unit :: (Call.read block).code :: (Call.read block).body)
    refine ⟨_, rfl, ?_, nofun⟩
    show (if number (crc >>> 8).toUInt8 crc.toUInt8 = crc.toNat then
      some (Query.mk unit (Call.read block).code
        (number (block.address >>> 8).toUInt8 block.address.toUInt8)
        (number (block.quantity >>> 8).toUInt8 block.quantity.toUInt8)) else none) = _
    rw [if_pos (number_bytes crc), number_bytes, number_bytes]
    rfl

theorem responseLength_tcp (t₁ t₀ : UInt8) {n : UInt16} (hn : n.toNat ≤ 249) :
    Framing.tcp.responseLength [t₁, t₀, 0, 0, (n >>> 8).toUInt8, n.toUInt8] =
      .ok (6 + n.toNat) := by
  have hnumber := number_bytes n
  unfold number at hnumber
  unfold responseLength
  dsimp only
  rw [if_pos ⟨rfl, rfl, by omega⟩, Nat.add_assoc, hnumber]

theorem responseLength_rtu (unit : UInt8) {code count : UInt8} (hcode : 1 ≤ code ∧ code ≤ 4)
    (hcount : count.toNat ≤ 250) :
    Framing.rtu.responseLength [unit, code, count] = .ok (5 + count.toNat) := by
  unfold responseLength
  dsimp only
  rw [if_pos hcode, if_pos (by omega)]

theorem Whole.tcp {payload : List UInt8} (hlen : payload.length ≤ 249) :
    Framing.tcp.Whole (bytesOf [transaction, 0, payload.length.toUInt16] ++ payload) where
  head := Nat.le_add_left ..
  length := by
    have hmod : payload.length.toUInt16.toNat = payload.length :=
      UInt16.toNat_ofNat_of_lt' (Nat.lt_of_le_of_lt hlen (by decide))
    have hhead := responseLength_tcp 0 1 (hmod.symm ▸ hlen)
    rw [hmod] at hhead
    rw [List.length_append, length_bytesOf]
    exact hhead

theorem Whole.rtu {unit code count : UInt8} {data : List UInt8} (hcode : 1 ≤ code ∧ code ≤ 4)
    (hcount : count.toNat = data.length) (hlen : data.length ≤ 250) (c₁ c₂ : UInt8) :
    Framing.rtu.Whole (unit :: code :: count :: data ++ [c₁, c₂]) where
  head := Nat.le_add_left ..
  length := by
    have hhead := responseLength_rtu unit hcode (hcount ▸ hlen)
    have hlength : (unit :: code :: count :: data ++ [c₁, c₂]).length = 5 + count.toNat := by
      rw [hcount, List.length_append]
      show data.length + 3 + 2 = 5 + data.length
      omega
    rw [hlength]
    exact hhead

theorem payload_tcp {payload : List UInt8} (hlen : 3 ≤ payload.length) (n : UInt16) :
    Framing.tcp.payload? (bytesOf [transaction, 0, n] ++ payload) = .ok payload := by
  have hlong : ¬ (bytesOf [transaction, 0, n] ++ payload).length < 9 := by
    rw [List.length_append, length_bytesOf]
    simp only [List.length_cons, List.length_nil]
    omega
  unfold payload?
  dsimp only
  rw [if_neg hlong]
  rfl

theorem payload_rtu (payload : List UInt8) :
    Framing.rtu.payload? (payload ++ request.checkBytes payload) = .ok payload := by
  have hlen : (payload ++ request.checkBytes payload).length - 2 = payload.length := by
    rw [List.length_append]
    rfl
  unfold payload?
  dsimp only
  rw [hlen, List.take_left, List.drop_left, if_pos rfl]

theorem answer_of_payload {f : Framing} {unit : UInt8} {call : Call} {response rest : List UInt8}
    (h : f.payload? response = .ok (unit :: call.code :: rest)) :
    f.answer? unit call response = .ok rest := by
  unfold answer?
  rw [h]
  show (if unit ≠ unit then _ else if call.code ≠ call.code then _ else _) = _
  rw [if_neg (not_not_intro rfl), if_neg (not_not_intro rfl)]

theorem registers_bytesOf {quantity : UInt16} {count : UInt8} {rs : List UInt16}
    (hlen : rs.length = quantity.toNat) (hcount : count.toNat = 2 * quantity.toNat) :
    registers? quantity (count :: bytesOf rs) = .ok rs := by
  unfold registers?
  dsimp only
  rw [length_bytesOf, hlen, if_neg (by omega), registersOf_bytesOf,
    List.take_of_length_le (Nat.le_of_eq hlen)]

end Framing

theorem Call.code_read (block : Block) :
    (1 ≤ (Call.read block).code ∧ (Call.read block).code ≤ 4) ∧
      Bank.ofCode? (Call.read block).code = some block.bank := by
  cases hbank : block.bank <;> simp [Call.code, Bank.ofCode?, hbank]

theorem Block.Fits.count {block : Block} (h : block.Fits) :
    (2 * block.quantity.toNat).toUInt8.toNat = 2 * block.quantity.toNat :=
  UInt8.toNat_ofNat_of_lt' (Nat.lt_of_le_of_lt (Nat.mul_le_mul_left 2 h.small) (by decide))

namespace Memory

variable (m : Memory) (unit : UInt8)

/-- The registers of a block. -/
def content (block : Block) : List UInt16 :=
  m.registers unit block.bank block.address.toNat block.quantity.toNat

theorem length_content (block : Block) : (m.content unit block).length = block.quantity.toNat := by
  simp [content, registers]

theorem answer_query {block : Block} (h : block.Fits) :
    m.answer (block.query unit) =
      (Call.read block).code :: (2 * block.quantity.toNat).toUInt8 ::
        bytesOf (m.content unit block) := by
  have hpos := h.pos
  have hsmall := h.small
  unfold answer
  show (match Bank.ofCode? (Call.read block).code with
    | none => _
    | some bank => if block.quantity.toNat = 0 ∨ 125 < block.quantity.toNat then _
      else if 65536 < block.address.toNat + block.quantity.toNat then _ else _) = _
  rw [(Call.code_read block).2]
  dsimp only
  rw [if_neg (by omega), if_neg (Nat.not_lt.2 h.inside)]
  rfl

variable {unit}

/-- The reply to a read is one response, and its answer is the block. -/
theorem reply_read {f : Framing} {block : Block} {frame : List UInt8}
    (hrequest : f.request unit (.read block) = .ok frame)
    (hunit : 1 ≤ unit.toNat ∧ unit.toNat ≤ 247) (h : block.Fits) :
    f.Whole (m.reply f frame) ∧
      ∃ answer, f.answer? unit (.read block) (m.reply f frame) = .ok answer ∧
        Framing.registers? block.quantity answer = .ok (m.content unit block) := by
  obtain ⟨sent, hsent, hquery, htcp⟩ := f.request_read unit block
  obtain rfl : frame = sent := Except.ok.inj (hrequest.symm.trans hsent)
  have hreply : m.reply f frame = f.respond frame
      (unit :: (Call.read block).code :: (2 * block.quantity.toNat).toUInt8 ::
        bytesOf (m.content unit block)) := by
    rw [← m.answer_query unit h]
    unfold reply
    rw [hquery]
    exact if_pos hunit
  have hregisters := Framing.registers_bytesOf (m.length_content unit block) h.count
  have hdata : (bytesOf (m.content unit block)).length = 2 * block.quantity.toNat := by
    rw [length_bytesOf, length_content]
  have hsmall := h.small
  rw [hreply]
  cases f with
  | tcp =>
    unfold Framing.respond
    dsimp only
    rw [htcp rfl]
    refine ⟨Framing.Whole.tcp ?_, _, Framing.answer_of_payload (Framing.payload_tcp ?_ _),
      hregisters⟩
    · show (bytesOf (m.content unit block)).length + 3 ≤ 249
      omega
    · exact Nat.le_add_left ..
  | rtu =>
    exact ⟨Framing.Whole.rtu (Call.code_read block).1 (h.count.trans hdata.symm) (by omega) _ _,
      _, Framing.answer_of_payload (Framing.payload_rtu _), hregisters⟩

end Memory

end HomeMetering.Modbus
