import Chip8.Instruction.Encoding

/-!
# The opcode table

Which opcodes are instructions. The table is written down by itself, row by row, as the digits that each row
fixes; it does not look at how opcodes are read.

* `ofOpcode?_isSome_iff_listed` — an opcode is read as an instruction exactly if it is in the table.
* `ofOpcode?_of_call` and the like — what the opcodes of a row are read as.
* `coded_of_ofOpcode?` — the byte of an instruction that was read off an opcode is a byte.
-/

set_option autoImplicit false

namespace Chip8

/-- A row of the opcode table: the group digit, and which of the other digits are fixed. -/
structure Pattern where
  op : Nibble
  x : Option Nibble
  y : Option Nibble
  n : Option Nibble
  deriving DecidableEq, Repr

/-- An opcode has all the digits that a row fixes. -/
def Pattern.Matches (p : Pattern) (o : Opcode) : Prop :=
  o.op = p.op ∧ (∀ d ∈ p.x, o.x = d) ∧ (∀ d ∈ p.y, o.y = d) ∧ (∀ d ∈ p.n, o.n = d)

namespace Opcode

/-- The opcode table. -/
def table : List Pattern :=
  [⟨0x0, none, none, none⟩, ⟨0x1, none, none, none⟩, ⟨0x2, none, none, none⟩,
   ⟨0x3, none, none, none⟩, ⟨0x4, none, none, none⟩, ⟨0x5, none, none, some 0x0⟩,
   ⟨0x6, none, none, none⟩, ⟨0x7, none, none, none⟩,
   ⟨0x8, none, none, some 0x0⟩, ⟨0x8, none, none, some 0x1⟩, ⟨0x8, none, none, some 0x2⟩,
   ⟨0x8, none, none, some 0x3⟩, ⟨0x8, none, none, some 0x4⟩, ⟨0x8, none, none, some 0x5⟩,
   ⟨0x8, none, none, some 0x6⟩, ⟨0x8, none, none, some 0x7⟩, ⟨0x8, none, none, some 0xE⟩,
   ⟨0x9, none, none, some 0x0⟩, ⟨0xA, none, none, none⟩, ⟨0xB, none, none, none⟩,
   ⟨0xC, none, none, none⟩, ⟨0xD, none, none, none⟩,
   ⟨0xE, none, some 0x9, some 0xE⟩, ⟨0xE, none, some 0xA, some 0x1⟩,
   ⟨0xF, none, some 0x0, some 0x7⟩, ⟨0xF, none, some 0x0, some 0xA⟩,
   ⟨0xF, none, some 0x1, some 0x5⟩, ⟨0xF, none, some 0x1, some 0x8⟩,
   ⟨0xF, none, some 0x1, some 0xE⟩, ⟨0xF, none, some 0x2, some 0x9⟩,
   ⟨0xF, none, some 0x3, some 0x3⟩, ⟨0xF, none, some 0x5, some 0x5⟩,
   ⟨0xF, none, some 0x6, some 0x5⟩]

/-- An opcode that is in the table. -/
def Listed (o : Opcode) : Prop := ∃ p ∈ table, p.Matches o

end Opcode

namespace Instruction

open Opcode

/-! ## Reading accepts the table -/

/-- The row of an instruction. -/
def pattern : Instruction → Pattern
  | .sys _ | .clear | .ret => ⟨0x0, none, none, none⟩
  | .jump _ => ⟨0x1, none, none, none⟩
  | .call _ => ⟨0x2, none, none, none⟩
  | .skipIfByte _ _ => ⟨0x3, none, none, none⟩
  | .skipUnlessByte _ _ => ⟨0x4, none, none, none⟩
  | .skipIfEqual _ _ => ⟨0x5, none, none, some 0x0⟩
  | .setByte _ _ => ⟨0x6, none, none, none⟩
  | .addByte _ _ => ⟨0x7, none, none, none⟩
  | .arith op _ _ => ⟨0x8, none, none, some op.digit⟩
  | .skipUnlessEqual _ _ => ⟨0x9, none, none, some 0x0⟩
  | .setIndex _ => ⟨0xA, none, none, none⟩
  | .jumpOffset _ => ⟨0xB, none, none, none⟩
  | .random _ _ => ⟨0xC, none, none, none⟩
  | .draw _ _ _ => ⟨0xD, none, none, none⟩
  | .skipIfKey _ => ⟨0xE, none, some 0x9, some 0xE⟩
  | .skipUnlessKey _ => ⟨0xE, none, some 0xA, some 0x1⟩
  | .readDelay _ => ⟨0xF, none, some 0x0, some 0x7⟩
  | .awaitKey _ => ⟨0xF, none, some 0x0, some 0xA⟩
  | .setDelay _ => ⟨0xF, none, some 0x1, some 0x5⟩
  | .setSound _ => ⟨0xF, none, some 0x1, some 0x8⟩
  | .addIndex _ => ⟨0xF, none, some 0x1, some 0xE⟩
  | .pointDigit _ => ⟨0xF, none, some 0x2, some 0x9⟩
  | .storeDecimal _ => ⟨0xF, none, some 0x3, some 0x3⟩
  | .storeRegisters _ => ⟨0xF, none, some 0x5, some 0x5⟩
  | .loadRegisters _ => ⟨0xF, none, some 0x6, some 0x5⟩

theorem pattern_mem_table (i : Instruction) : i.pattern ∈ table := by
  cases i with
  | arith op => cases op <;> simp [pattern, table, Arith.digit]
  | _ => simp [pattern, table]

theorem pattern_matches_opcode (i : Instruction) : i.pattern.Matches i.opcode := by
  cases i with
  | arith op x y =>
    have hn : hexDigitAt op.digit.val 0 = op.digit := by cases op <;> rfl
    simp [pattern, Pattern.Matches, opcode, ofRegisters, hn]
  | sys | clear | ret | jump | call | skipIfByte | skipUnlessByte | setByte | addByte | setIndex
  | jumpOffset | random | draw =>
    simp [pattern, Pattern.Matches, opcode, ofAddress, ofByte, ofRegisters]
  | _ => simp [pattern, Pattern.Matches, opcode, ofByte, ofRegisters, hexDigitAt]; decide

/-- In the group of the digit 0 every opcode is an instruction of one of three kinds. -/
theorem ofOpcode?_of_op_zero {o : Opcode} (h : o.op = 0x0) :
    ofOpcode? o = some .clear ∨ ofOpcode? o = some .ret ∨ ofOpcode? o = some (.sys o.address) := by
  simp only [ofOpcode?, h]
  split
  · exact .inl rfl
  · split
    · exact .inr (.inl rfl)
    · exact .inr (.inr rfl)

theorem isSome_ofOpcode?_of_listed {o : Opcode} (h : o.Listed) : (ofOpcode? o).isSome = true := by
  obtain ⟨p, hp, hop, -, hy, hn⟩ := h
  by_cases hzero : o.op = 0x0
  · rcases ofOpcode?_of_op_zero hzero with h | h | h <;> rw [h] <;> rfl
  · obtain ⟨op, x, y, n⟩ := o
    dsimp only at hop hy hn hzero
    simp only [table, List.mem_cons, List.not_mem_nil, or_false] at hp
    -- a row fixes the digits that decide which instruction its opcodes are
    repeat' obtain rfl | hp := hp
    all_goals
      simp only [Option.mem_def, Option.some.injEq, forall_eq', reduceCtorEq, false_implies,
        implies_true] at hy hn
      subst hop
    · exact absurd rfl hzero
    all_goals try subst hn
    all_goals try subst hy
    all_goals rfl

/-- **Reading accepts exactly the opcode table.** -/
theorem ofOpcode?_isSome_iff_listed (o : Opcode) : (ofOpcode? o).isSome = true ↔ o.Listed := by
  refine ⟨fun h => ?_, isSome_ofOpcode?_of_listed⟩
  obtain ⟨i, hi⟩ := Option.isSome_iff_exists.1 h
  exact ⟨i.pattern, i.pattern_mem_table, opcode_of_ofOpcode? hi ▸ i.pattern_matches_opcode⟩

/-! ## What the rows are read as -/

theorem ofOpcode?_of_ret {o : Opcode} (h : o.word = 0x00EE) : ofOpcode? o = some .ret := by
  rw [← Opcode.ofInt_word o, h]
  rfl

theorem ofOpcode?_of_call {o : Opcode} (h : o.op = 0x2) : ofOpcode? o = some (.call o.address) := by
  simp only [ofOpcode?, h]

theorem ofOpcode?_of_draw {o : Opcode} (h : o.op = 0xD) :
    ofOpcode? o = some (.draw o.x o.y o.n) := by
  simp only [ofOpcode?, h]

theorem ofOpcode?_of_skipIfKey {o : Opcode} (h : o.op = 0xE) (hb : o.byte = 0x9E) :
    ofOpcode? o = some (.skipIfKey o.x) := by
  simp only [ofOpcode?, h, hb, if_true]

theorem ofOpcode?_of_skipUnlessKey {o : Opcode} (h : o.op = 0xE) (hb : o.byte = 0xA1) :
    ofOpcode? o = some (.skipUnlessKey o.x) := by
  simp only [ofOpcode?, h, hb, if_true]
  rfl

theorem ofOpcode?_of_device {o : Opcode} {b : Nat} (h : o.op = 0xF) (hb : o.byte = b) :
    ofOpcode? o = ofDeviceByte? o.x b := by
  simp only [ofOpcode?, h, hb]

/-! ## Bytes -/

/-- The byte of an instruction, if it has one, is a byte. -/
def Coded : Instruction → Prop
  | .skipIfByte _ b | .skipUnlessByte _ b | .setByte _ b | .addByte _ b | .random _ b =>
      0 ≤ b ∧ b < 256
  | _ => True

theorem coded_of_ofOpcode? {o : Opcode} {i : Instruction} (h : ofOpcode? o = some i) : i.Coded := by
  have hb : (0 : Int) ≤ o.byte ∧ (o.byte : Int) < 256 := by
    simp only [Opcode.byte]
    omega
  unfold ofOpcode? at h
  split at h
  case h_1 | h_15 =>
    split at h
    · cases h; trivial
    · split at h <;> cases h <;> trivial
  case h_4 | h_5 | h_7 | h_8 | h_13 => cases h; exact hb
  case h_6 | h_10 =>
    split at h
    · cases h; trivial
    · cases h
  case h_9 =>
    obtain ⟨op, -, rfl⟩ := Option.map_eq_some_iff.1 h
    trivial
  case h_16 =>
    unfold ofDeviceByte? at h
    split at h <;> cases h <;> trivial
  all_goals cases h; trivial

end Instruction

end Chip8
