import Chip8.Bounded

/-!
# Opcodes

An opcode is a word of sixteen bits, seen as four hex digits: the group digit, the two digits that mostly
name registers, and the last one. The digits are read off integers of any size and sign in two's
complement, so only the low sixteen bits count.

* `ofInt_word`, `word_ofInt` — four digits and sixteen bits are the same information.
* `word_lt` — a word fits in sixteen bits.
* `word_eq_address`, `word_eq_byte` — a word is its group digit followed by its address, or by its
  register and byte.
* `ofAddress_address`, `ofByte_byte`, `ofRegisters_natCast` — so each split puts the opcode together again.
-/

set_option autoImplicit false

namespace Chip8

/-- The hex digit that stands `place` places above the lowest one. -/
def hexDigitAt (v : Int) (place : Nat) : Nibble := Nibble.ofInt (v >>> (4 * place))

/-- The hex digit at a position counted from the most significant of four; further positions to the left
are allowed, further ones to the right are not. -/
def readNibble (v position : Int) : Except Error Nibble :=
  if position ≤ 3 then .ok (hexDigitAt v (3 - position).toNat) else .error .negativeShift

theorem val_hexDigitAt (v : Int) (place : Nat) :
    ((hexDigitAt v place).val : Int) = v / (Nat.pow 2 (4 * place) : Nat) % 16 := by
  rw [hexDigitAt, Nibble.val_ofInt, Int.shiftRight_eq_div_pow, Nat.pow_eq]

/-- The four hex digits of an opcode. -/
structure Opcode where
  op : Nibble
  x : Nibble
  /-- The second register, or the high digit of a byte. -/
  y : Nibble
  n : Nibble
  deriving DecidableEq, Repr

namespace Opcode

/-- The digits of the low sixteen bits of an integer. -/
def ofInt (bits : Int) : Opcode :=
  ⟨hexDigitAt bits 3, hexDigitAt bits 2, hexDigitAt bits 1, hexDigitAt bits 0⟩

/-- The word that the digits write. -/
def word (o : Opcode) : Nat := 4096 * o.op.val + 256 * o.x.val + 16 * o.y.val + o.n.val

/-- The low three digits as an address. -/
def address (o : Opcode) : Address := ⟨256 * o.x.val + 16 * o.y.val + o.n.val, by omega⟩

/-- The low two digits as a byte. -/
def byte (o : Opcode) : Nat := 16 * o.y.val + o.n.val

/-- A group digit and the low twelve bits of an address. -/
def ofAddress (op : Nibble) (a : Int) : Opcode :=
  ⟨op, hexDigitAt a 2, hexDigitAt a 1, hexDigitAt a 0⟩

/-- A group digit, a register and the low eight bits of a byte. -/
def ofByte (op x : Nibble) (b : Int) : Opcode := ⟨op, x, hexDigitAt b 1, hexDigitAt b 0⟩

/-- A group digit, two registers and the low four bits of a count. -/
def ofRegisters (op x y : Nibble) (n : Int) : Opcode := ⟨op, x, y, hexDigitAt n 0⟩

theorem word_lt (o : Opcode) : o.word < 65536 := by
  simp only [word]; omega

theorem word_ofInt (bits : Int) : ((ofInt bits).word : Int) = bits % 65536 := by
  have h0 := val_hexDigitAt bits 0
  have h1 := val_hexDigitAt bits 1
  have h2 := val_hexDigitAt bits 2
  have h3 := val_hexDigitAt bits 3
  simp only [Nat.reduceMul, Nat.pow_eq, Nat.reducePow] at h0 h1 h2 h3
  simp only [word, ofInt]
  omega

theorem ofInt_word (o : Opcode) : ofInt o.word = o := by
  obtain ⟨op, x, y, n⟩ := o
  have h0 := val_hexDigitAt (word ⟨op, x, y, n⟩) 0
  have h1 := val_hexDigitAt (word ⟨op, x, y, n⟩) 1
  have h2 := val_hexDigitAt (word ⟨op, x, y, n⟩) 2
  have h3 := val_hexDigitAt (word ⟨op, x, y, n⟩) 3
  simp only [word, Nat.reduceMul, Nat.pow_eq, Nat.reducePow] at h0 h1 h2 h3
  simp only [word, ofInt, Opcode.mk.injEq, Fin.ext_iff]
  omega

theorem word_eq_address (o : Opcode) : o.word = 4096 * o.op.val + o.address.val := by
  simp only [word, address]; omega

theorem word_eq_byte (o : Opcode) : o.word = 4096 * o.op.val + 256 * o.x.val + o.byte := by
  simp only [word, byte]; omega

theorem ofAddress_address (o : Opcode) : ofAddress o.op o.address.val = o := by
  obtain ⟨op, x, y, n⟩ := o
  have h0 := val_hexDigitAt (address ⟨op, x, y, n⟩).val 0
  have h1 := val_hexDigitAt (address ⟨op, x, y, n⟩).val 1
  have h2 := val_hexDigitAt (address ⟨op, x, y, n⟩).val 2
  simp only [address, Nat.reduceMul, Nat.pow_eq, Nat.reducePow] at h0 h1 h2
  simp only [address, ofAddress, Opcode.mk.injEq, Fin.ext_iff, true_and]
  omega

theorem ofRegisters_natCast (op x y n : Nibble) : ofRegisters op x y n.val = ⟨op, x, y, n⟩ := by
  have h0 := val_hexDigitAt n.val 0
  simp only [Nat.reduceMul, Nat.pow_eq, Nat.reducePow] at h0
  simp only [ofRegisters, Opcode.mk.injEq, Fin.ext_iff, true_and]
  omega

theorem ofByte_byte (o : Opcode) : ofByte o.op o.x o.byte = o := by
  obtain ⟨op, x, y, n⟩ := o
  have h0 := val_hexDigitAt (byte ⟨op, x, y, n⟩) 0
  have h1 := val_hexDigitAt (byte ⟨op, x, y, n⟩) 1
  simp only [byte, Nat.reduceMul, Nat.pow_eq, Nat.reducePow] at h0 h1
  simp only [byte, ofByte, Opcode.mk.injEq, Fin.ext_iff, true_and]
  omega

end Opcode

end Chip8
