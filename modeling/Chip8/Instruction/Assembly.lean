import Chip8.Instruction.Basic

/-!
# Assembly text

An instruction is written as its operation and its operands, separated by commas. An operand is a register,
a number, or one of the machine's named places. A byte has at least two digits and shows its sign and all
of its digits, whatever of it would be encoded.

* `Instruction.operation`, `Instruction.operands` — the two parts.
* `Instruction.mnemonic` — the line of text.
-/

set_option autoImplicit false

namespace Chip8

/-- An operand as it is written. -/
inductive Operand where
  | register (r : Register)
  | address (a : Address)
  | byte (b : Int)
  | count (n : Nibble)
  | index
  | atIndex
  | delay
  | sound
  /-- The next key. -/
  | key
  /-- The picture of a digit. -/
  | font
  /-- The decimal digits. -/
  | decimal
  deriving DecidableEq, Repr

def Operand.text : Operand → String
  | .register r => r.name
  | .address a => a.text
  | .byte b => Numeral.marked 2 b
  | .count n => toString n.val
  | .index => "I"
  | .atIndex => "[I]"
  | .delay => "DT"
  | .sound => "ST"
  | .key => "K"
  | .font => "F"
  | .decimal => "B"

def Arith.operation : Arith → String
  | .copy => "LD"
  | .or => "OR"
  | .and => "AND"
  | .xor => "XOR"
  | .add => "ADD"
  | .sub => "SUB"
  | .shr => "SHR"
  | .subn => "SUBN"
  | .shl => "SHL"

namespace Instruction

def operation : Instruction → String
  | .sys _ => "SYS"
  | .clear => "CLS"
  | .ret => "RET"
  | .jump _ | .jumpOffset _ => "JP"
  | .call _ => "CALL"
  | .skipIfByte _ _ | .skipIfEqual _ _ => "SE"
  | .skipUnlessByte _ _ | .skipUnlessEqual _ _ => "SNE"
  | .setByte _ _ | .setIndex _ | .readDelay _ | .awaitKey _ | .setDelay _ | .setSound _
  | .pointDigit _ | .storeDecimal _ | .storeRegisters _ | .loadRegisters _ => "LD"
  | .addByte _ _ | .addIndex _ => "ADD"
  | .arith op _ _ => op.operation
  | .random _ _ => "RND"
  | .draw _ _ _ => "DRW"
  | .skipIfKey _ => "SKP"
  | .skipUnlessKey _ => "SKNP"

/-- The operands of an instruction, in the order they are written. -/
def operands : Instruction → List Operand
  | .clear | .ret => []
  | .sys a | .jump a | .call a => [.address a]
  | .skipIfByte x b | .skipUnlessByte x b | .setByte x b | .addByte x b | .random x b =>
      [.register x, .byte b]
  | .skipIfEqual x y | .skipUnlessEqual x y | .arith _ x y => [.register x, .register y]
  | .setIndex a => [.index, .address a]
  | .jumpOffset a => [.register 0, .address a]
  | .draw x y n => [.register x, .register y, .count n]
  | .skipIfKey x | .skipUnlessKey x => [.register x]
  | .readDelay x => [.register x, .delay]
  | .awaitKey x => [.register x, .key]
  | .setDelay x => [.delay, .register x]
  | .setSound x => [.sound, .register x]
  | .addIndex x => [.index, .register x]
  | .pointDigit x => [.font, .register x]
  | .storeDecimal x => [.decimal, .register x]
  | .storeRegisters x => [.atIndex, .register x]
  | .loadRegisters x => [.register x, .atIndex]

def mnemonic (i : Instruction) : String :=
  match i.operands with
  | [] => i.operation
  | ts => i.operation ++ " " ++ ", ".intercalate (ts.map Operand.text)

end Instruction

end Chip8
