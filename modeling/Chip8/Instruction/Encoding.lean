import Chip8.Instruction.Basic
import Chip8.Opcode

/-!
# The words of instructions

* `Instruction.opcode` — the digits that encode an instruction.
* `Instruction.ofOpcode?` — the instruction that digits encode, if they encode one.
* `Instruction.encode`, `Instruction.decode` — the same between instructions and words. `Instruction.decode_eq` — the
  registers in a word need no check.
* `Instruction.opcode_of_ofOpcode?` — an instruction that was read off digits has those digits.
-/

set_option autoImplicit false

namespace Chip8.Instruction

/-- The digits of an instruction; of a byte operand only the low eight bits count. -/
def opcode : Instruction → Opcode
  | .sys a => .ofAddress 0x0 a.val
  | .clear => ⟨0x0, 0x0, 0xE, 0x0⟩
  | .ret => ⟨0x0, 0x0, 0xE, 0xE⟩
  | .jump a => .ofAddress 0x1 a.val
  | .call a => .ofAddress 0x2 a.val
  | .skipIfByte x b => .ofByte 0x3 x b
  | .skipUnlessByte x b => .ofByte 0x4 x b
  | .skipIfEqual x y => .ofRegisters 0x5 x y 0x0
  | .setByte x b => .ofByte 0x6 x b
  | .addByte x b => .ofByte 0x7 x b
  | .arith op x y => .ofRegisters 0x8 x y op.digit.val
  | .skipUnlessEqual x y => .ofRegisters 0x9 x y 0x0
  | .setIndex a => .ofAddress 0xA a.val
  | .jumpOffset a => .ofAddress 0xB a.val
  | .random x b => .ofByte 0xC x b
  | .draw x y n => .ofRegisters 0xD x y n.val
  | .skipIfKey x => .ofByte 0xE x 0x9E
  | .skipUnlessKey x => .ofByte 0xE x 0xA1
  | .readDelay x => .ofByte 0xF x 0x07
  | .awaitKey x => .ofByte 0xF x 0x0A
  | .setDelay x => .ofByte 0xF x 0x15
  | .setSound x => .ofByte 0xF x 0x18
  | .addIndex x => .ofByte 0xF x 0x1E
  | .pointDigit x => .ofByte 0xF x 0x29
  | .storeDecimal x => .ofByte 0xF x 0x33
  | .storeRegisters x => .ofByte 0xF x 0x55
  | .loadRegisters x => .ofByte 0xF x 0x65

/-- The instructions of the group of the digit F, told apart by their low byte. -/
def ofDeviceByte? (x : Register) : Nat → Option Instruction
  | 0x07 => some (.readDelay x)
  | 0x0A => some (.awaitKey x)
  | 0x15 => some (.setDelay x)
  | 0x18 => some (.setSound x)
  | 0x1E => some (.addIndex x)
  | 0x29 => some (.pointDigit x)
  | 0x33 => some (.storeDecimal x)
  | 0x55 => some (.storeRegisters x)
  | 0x65 => some (.loadRegisters x)
  | _ => none

/-- The instruction of four digits. Two words of the group of the digit 0 have a meaning of their own, all
others run a routine of the host machine. -/
def ofOpcode? (o : Opcode) : Option Instruction :=
  match o.op with
  | 0x0 =>
      if o.address.val = 0x0E0 then some .clear
      else if o.address.val = 0x0EE then some .ret
      else some (.sys o.address)
  | 0x1 => some (.jump o.address)
  | 0x2 => some (.call o.address)
  | 0x3 => some (.skipIfByte o.x o.byte)
  | 0x4 => some (.skipUnlessByte o.x o.byte)
  | 0x5 => if o.n = 0 then some (.skipIfEqual o.x o.y) else none
  | 0x6 => some (.setByte o.x o.byte)
  | 0x7 => some (.addByte o.x o.byte)
  | 0x8 => (Arith.ofDigit? o.n).map fun op => .arith op o.x o.y
  | 0x9 => if o.n = 0 then some (.skipUnlessEqual o.x o.y) else none
  | 0xA => some (.setIndex o.address)
  | 0xB => some (.jumpOffset o.address)
  | 0xC => some (.random o.x o.byte)
  | 0xD => some (.draw o.x o.y o.n)
  | 0xE =>
      if o.byte = 0x9E then some (.skipIfKey o.x)
      else if o.byte = 0xA1 then some (.skipUnlessKey o.x)
      else none
  | _ => ofDeviceByte? o.x o.byte

theorem opcode_of_ofDeviceByte? {x : Register} {b : Nat} {i : Instruction}
    (h : ofDeviceByte? x b = some i) : i.opcode = .ofByte 0xF x b := by
  unfold ofDeviceByte? at h
  split at h <;> cases h <;> rfl

theorem opcode_of_ofOpcode? {o : Opcode} {i : Instruction} (h : ofOpcode? o = some i) :
    i.opcode = o := by
  have ha := o.ofAddress_address
  have hb := o.ofByte_byte
  obtain ⟨op, x, y, n⟩ := o
  unfold ofOpcode? at h
  split at h <;> rename_i hop <;> dsimp only at hop h <;> try subst hop
  case h_1 =>
    split at h
    case isTrue he => cases h; rw [← ha, he]; rfl
    case isFalse =>
      split at h
      case isTrue he => cases h; rw [← ha, he]; rfl
      case isFalse => cases h; exact ha
  case h_2 | h_3 | h_11 | h_12 => cases h; exact ha
  case h_4 | h_5 | h_7 | h_8 | h_13 => cases h; exact hb
  case h_6 | h_10 =>
    split at h
    case isTrue hn => cases h; subst hn; rfl
    case isFalse => cases h
  case h_9 =>
    obtain ⟨f, hf, rfl⟩ := Option.map_eq_some_iff.1 h
    rw [opcode, Arith.digit_of_ofDigit? hf, Opcode.ofRegisters_natCast]
  case h_14 =>
    cases h
    rw [opcode, Opcode.ofRegisters_natCast]
  case h_15 =>
    split at h
    case isTrue he => cases h; rw [← hb, he]; rfl
    case isFalse =>
      split at h
      case isTrue he => cases h; rw [← hb, he]; rfl
      case isFalse => cases h
  case h_16 =>
    have hop : op = 0xF := by
      simp only [imp_false, Fin.ext_iff] at *
      omega
    subst hop
    rw [opcode_of_ofDeviceByte? h]
    exact hb

def encode (i : Instruction) : Nat := i.opcode.word

/-- The instruction in the low sixteen bits of an integer. The digits in the places of registers are checked first. -/
def decode (bits : Int) : Except Fault Instruction :=
  let o := Opcode.ofInt bits
  match Register.checked o.x.val, Register.checked o.y.val with
  | .ok x, .ok y =>
    match ofOpcode? ⟨o.op, x, y, o.n⟩ with
    | some i => .ok i
    | none => .error (.unknownInstruction o.word)
  | .error f, _ | _, .error f => .error f

/-- Every digit names a register. -/
theorem decode_eq (bits : Int) :
    decode bits =
      match ofOpcode? (.ofInt bits) with
      | some i => .ok i
      | none => .error (.unknownInstruction (Opcode.ofInt bits).word) := by
  simp only [decode, Register.checked_natCast]

end Chip8.Instruction
