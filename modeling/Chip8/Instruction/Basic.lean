import Chip8.Bounded

/-!
# Instructions

The instructions of the machine, with their operands. Nine of them combine two registers in the same way
and differ only in the arithmetic: they are one form, `Instruction.arith`, over the operations `Arith`.

A byte operand is an integer of any size and sign. Only its low eight bits are encoded, but an instruction
that was built by hand keeps what it was given.

* `Arith.ofDigit?_digit`, `Arith.digit_of_ofDigit?` — each operation has one digit of its own.
* `Arith.result_range`, `Arith.flag?_le_one` — what an operation on bytes gives fits into a byte.
-/

set_option autoImplicit false

namespace Chip8

/-- The ways to combine two registers. -/
inductive Arith where
  /-- Take the second operand. -/
  | copy
  | or
  | and
  | xor
  | add
  /-- First operand minus second. -/
  | sub
  /-- Second operand shifted right by one. -/
  | shr
  /-- Second operand minus first. -/
  | subn
  /-- Second operand shifted left by one. -/
  | shl
  deriving DecidableEq, Repr

namespace Arith

/-- The last digit of the operation's opcodes. -/
def digit : Arith → Nibble
  | .copy => 0x0
  | .or => 0x1
  | .and => 0x2
  | .xor => 0x3
  | .add => 0x4
  | .sub => 0x5
  | .shr => 0x6
  | .subn => 0x7
  | .shl => 0xE

/-- The operation with a given last digit. -/
def ofDigit? : Nibble → Option Arith
  | 0x0 => some .copy
  | 0x1 => some .or
  | 0x2 => some .and
  | 0x3 => some .xor
  | 0x4 => some .add
  | 0x5 => some .sub
  | 0x6 => some .shr
  | 0x7 => some .subn
  | 0xE => some .shl
  | _ => none

@[simp] theorem ofDigit?_digit (op : Arith) : ofDigit? op.digit = some op := by
  cases op <;> rfl

theorem digit_of_ofDigit? {n : Nibble} {op : Arith} (h : ofDigit? n = some op) : op.digit = n := by
  revert n op
  decide +revert

/-- The value that goes to the first register, for operands below 256. A difference is brought back into the
range of a byte by its low eight bits. -/
def result (a b : Nat) : Arith → Int
  | .copy => b
  | .or => (a ||| b : Nat)
  | .and => (a &&& b : Nat)
  | .xor => (a ^^^ b : Nat)
  | .add => (a + b) % 256
  | .sub => (a - b) % 256
  | .shr => b / 2
  | .subn => (b - a) % 256
  | .shl => 2 * b % 256

/-- What goes to the flag register, if the operation sets it: the carry of a sum, one where a difference
needs no borrow, the bit that a shift drops. -/
def flag? (a b : Nat) : Arith → Option Nat
  | .copy | .or | .and | .xor => none
  | .add => some (if 256 ≤ a + b then 1 else 0)
  | .sub => some (if b ≤ a then 1 else 0)
  | .shr => some (b % 2)
  | .subn => some (if a ≤ b then 1 else 0)
  | .shl => some (b / 128)

/-- **Every result is a byte**, so none is ever refused by a register. -/
theorem result_range (op : Arith) {a b : Nat} (ha : a < 256) (hb : b < 256) :
    0 ≤ op.result a b ∧ op.result a b < 256 := by
  have hor : a ||| b < 2 ^ 8 := Nat.or_lt_two_pow ha hb
  have hxor : a ^^^ b < 2 ^ 8 := Nat.xor_lt_two_pow ha hb
  have hand : a &&& b ≤ a := Nat.and_le_left
  cases op <;> simp only [result] <;> omega

theorem flag?_le_one {op : Arith} {a b f : Nat} (hb : b < 256) (h : op.flag? a b = some f) : f ≤ 1 := by
  cases op with
  | copy | or | and | xor => cases h
  | add | sub | subn =>
    simp only [flag?, Option.some.injEq] at h
    split at h <;> omega
  | shr | shl =>
    simp only [flag?, Option.some.injEq] at h
    omega

end Arith

/-- An instruction with its operands. -/
inductive Instruction where
  /-- Run a routine of the host machine. -/
  | sys (a : Address)
  | clear
  | ret
  | jump (a : Address)
  | call (a : Address)
  | skipIfByte (x : Register) (b : Int)
  | skipUnlessByte (x : Register) (b : Int)
  | skipIfEqual (x y : Register)
  | skipUnlessEqual (x y : Register)
  | setByte (x : Register) (b : Int)
  | addByte (x : Register) (b : Int)
  | arith (op : Arith) (x y : Register)
  | setIndex (a : Address)
  /-- Go on at an address plus the first register. -/
  | jumpOffset (a : Address)
  /-- Put a random byte, masked, into a register. -/
  | random (x : Register) (b : Int)
  /-- Draw rows of the sprite at the index. -/
  | draw (x y : Register) (n : Nibble)
  /-- Skip if the key a register names is held down. -/
  | skipIfKey (x : Register)
  /-- Skip if the key a register names is not held down. -/
  | skipUnlessKey (x : Register)
  | readDelay (x : Register)
  | awaitKey (x : Register)
  | setDelay (x : Register)
  | setSound (x : Register)
  | addIndex (x : Register)
  /-- Point the index at the picture of a hex digit. -/
  | pointDigit (x : Register)
  /-- Store the decimal digits of a register at the index. -/
  | storeDecimal (x : Register)
  /-- Store the registers up to this one at the index. -/
  | storeRegisters (x : Register)
  /-- Load the registers up to this one from the index. -/
  | loadRegisters (x : Register)
  deriving DecidableEq, Repr

end Chip8
