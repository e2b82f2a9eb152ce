import Chip8.Mask
import Chip8.Proofs.RoundTrip
import Mathlib.Data.Nat.Bitwise

/-!
# Fields of a word

A word is taken apart by shifts and masks, and put together by shifts and ors. Both are positional notation in base 16,
for integers of any size and sign: a mask of ones is a remainder, a shift to the right is a quotient, and fields that
share no place are added when they are joined.

* `mask_ones` — a mask of ones is a remainder, of negative integers too.
* `val_hexDigitAt_eq_mask`, `val_ofInt_eq_mask`, `toNat_ofInt_eq_mask` — so digits, addresses and bytes are masked bits.
* `shiftLeft_or_eq_add` — fields side by side are a sum. `packAddress_eq`, `packByte_eq`, `packRegisters_eq` — so a
  word that is packed bit by bit is the one of its digits.
* `Opcode.ReadFrom` — digits that are found at the four positions of an integer. `Opcode.readFrom_word` — those of a
  word are the ones it was written with.
* `fields_inverse` — **taking apart and putting together undo each other.**
-/

set_option autoImplicit false

namespace Chip8

/-! ## Masks and joined bits -/

/-- **A mask of ones leaves a remainder.** -/
theorem mask_ones (v : Int) (width : Nat) : mask v ((2 ^ width - 1 : Nat) : Int) = v % ((2 ^ width : Nat) : Int) := by
  have hpos : 0 < 2 ^ width := Nat.two_pow_pos width
  cases v with
  | ofNat a =>
    have hand : a &&& (2 ^ width - 1) = a % 2 ^ width := Nat.and_two_pow_sub_one_eq_mod a width
    rw [Int.ofNat_eq_natCast, mask_natCast, hand, Int.natCast_emod]
  | negSucc a =>
    have hand : a &&& (2 ^ width - 1) = a % 2 ^ width := Nat.and_two_pow_sub_one_eq_mod a width
    have hlt : a % 2 ^ width < 2 ^ width := Nat.mod_lt a hpos
    -- The bits of a negative integer are those of the number below its size, turned over.
    have hxor : (2 ^ width - 1) ^^^ (a % 2 ^ width) = 2 ^ width - (a % 2 ^ width + 1) := by
      refine Nat.eq_of_testBit_eq fun i => ?_
      rw [Nat.testBit_xor, Nat.testBit_two_pow_sub_one, Nat.testBit_two_pow_sub_succ hlt, Nat.testBit_mod_two_pow]
      cases decide (i < width) <;> simp
    have hmask : mask (.negSucc a) ((2 ^ width - 1 : Nat) : Int) = ((2 ^ width - (a % 2 ^ width + 1) : Nat) : Int) := by
      rw [← hxor, ← hand]
      rfl
    rw [hmask, Int.negSucc_emod a (by omega)]
    omega

/-- A field beside lower bits is added to them. -/
theorem shiftLeft_or_eq_add (a : Nat) {b width : Nat} (hb : b < 2 ^ width) : a <<< width ||| b = a * 2 ^ width + b := by
  rw [← Nat.shiftLeft_add_eq_or_of_lt hb, Nat.shiftLeft_eq]

/-! ## Fields of integers -/

theorem val_hexDigitAt_eq_mask (v : Int) (place : Nat) :
    ((hexDigitAt v place).val : Int) = mask (v >>> (4 * place)) 0xF := by
  rw [hexDigitAt, Nibble.val_ofInt]
  exact (mask_ones _ 4).symm

theorem val_ofInt_eq_mask (v : Int) : ((Address.ofInt v).val : Int) = mask v 0xFFF := by
  rw [Address.val_ofInt]
  exact (mask_ones v 12).symm

theorem toNat_ofInt_eq_mask (v : Int) : ((UInt8.ofInt v).toNat : Int) = mask v 0xFF := by
  have hmask : mask v 0xFF = v % 256 := mask_ones v 8
  rw [hmask, toNat_ofInt]
  omega

/-! ## Words put together -/

namespace Opcode

/-- A group digit above the low twelve bits of an integer. -/
def packAddress (op : Nibble) (a : Int) : Nat := op.val <<< 12 ||| (mask a 0xFFF).toNat

/-- A group digit and a register above the low eight bits of an integer. -/
def packByte (op x : Nibble) (b : Int) : Nat := op.val <<< 12 ||| x.val <<< 8 ||| (mask b 0xFF).toNat

/-- A group digit and two registers above the low four bits of an integer. -/
def packRegisters (op x y : Nibble) (n : Int) : Nat :=
  op.val <<< 12 ||| x.val <<< 8 ||| y.val <<< 4 ||| (mask n 0xF).toNat

theorem packAddress_eq (op : Nibble) (a : Int) : packAddress op a = (ofAddress op a).word := by
  have hmask : mask a 0xFFF = a % 4096 := mask_ones a 12
  have haddress := val_address_ofAddress op a
  have hop : (ofAddress op a).op = op := rfl
  rw [packAddress, hmask, shiftLeft_or_eq_add _ (by omega), word_eq_address, hop]
  omega

theorem packByte_eq (op x : Nibble) (b : Int) : packByte op x b = (ofByte op x b).word := by
  have hmask : mask b 0xFF = b % 256 := mask_ones b 8
  have hbyte := byte_ofByte op x b
  have hx : (ofByte op x b).op = op ∧ (ofByte op x b).x = x := ⟨rfl, rfl⟩
  rw [packByte, hmask, Nat.or_assoc, shiftLeft_or_eq_add x.val (by omega), shiftLeft_or_eq_add _ (by omega),
    word_eq_byte, hx.1, hx.2]
  omega

theorem val_ofRegisters (op x y : Nibble) (n : Int) : ((ofRegisters op x y n).n.val : Int) = n % 16 := by
  have hdigit := val_hexDigitAt n 0
  simp only [Nat.reduceMul, Nat.pow_eq, Nat.reducePow] at hdigit
  rw [ofRegisters, hdigit, Int.natCast_one, Int.ediv_one]

theorem packRegisters_eq (op x y : Nibble) (n : Int) : packRegisters op x y n = (ofRegisters op x y n).word := by
  have hmask : mask n 0xF = n % 16 := mask_ones n 4
  have hdigit := val_ofRegisters op x y n
  have hx : (ofRegisters op x y n).op = op ∧ (ofRegisters op x y n).x = x ∧ (ofRegisters op x y n).y = y :=
    ⟨rfl, rfl, rfl⟩
  rw [packRegisters, hmask, Nat.or_assoc, Nat.or_assoc, shiftLeft_or_eq_add y.val (by omega),
    shiftLeft_or_eq_add x.val (by omega), shiftLeft_or_eq_add _ (by omega), word, hx.1, hx.2.1, hx.2.2]
  omega

/-! ## Words taken apart -/

/-- These digits are read at the four positions of an integer. -/
structure ReadFrom (o : Opcode) (bits : Int) : Prop where
  op : readNibble bits 0 = .ok o.op
  x : readNibble bits 1 = .ok o.x
  y : readNibble bits 2 = .ok o.y
  n : readNibble bits 3 = .ok o.n

theorem readFrom_ofInt (bits : Int) : (ofInt bits).ReadFrom bits := ⟨rfl, rfl, rfl, rfl⟩

/-- The low three digits of an integer write its low twelve bits. -/
theorem address_ofInt (bits : Int) : (ofInt bits).address = Address.ofInt bits := by
  have hdigits := val_address_ofAddress (hexDigitAt bits 3) bits
  have haddress := Address.val_ofInt bits
  have hsame : (ofInt bits).address = (ofAddress (hexDigitAt bits 3) bits).address := rfl
  rw [hsame]
  exact Fin.ext (by omega)

/-- The low two digits of an integer write its low eight bits. -/
theorem byte_ofInt (bits : Int) : (ofInt bits).byte = (UInt8.ofInt bits).toNat := by
  have hdigits := byte_ofByte (hexDigitAt bits 3) (hexDigitAt bits 2) bits
  have hsame : (ofInt bits).byte = (ofByte (hexDigitAt bits 3) (hexDigitAt bits 2) bits).byte := rfl
  rw [hsame, toNat_ofInt]
  omega

theorem readFrom_word (o : Opcode) : o.ReadFrom o.word := by
  have hread := readFrom_ofInt o.word
  rwa [ofInt_word] at hread

end Opcode

/-- **Taking words apart and putting them together undo each other**, for integers of any size and sign. The digits that
are read at the four positions are shifted and masked bits, and write the low sixteen bits in base 16; the low three of
them write the address, and the low two the byte. And of a word that was packed, the digits are the fields that went
into it, the last field cut down to its low bits and written in base 16. -/
theorem fields_inverse :
    (∀ bits : Int, ∃ n₀ n₁ n₂ n₃ : Nibble, Opcode.ReadFrom ⟨n₀, n₁, n₂, n₃⟩ bits ∧
      (n₀.val : Int) = mask (bits >>> (12 : Nat)) 0xF ∧ (n₁.val : Int) = mask (bits >>> (8 : Nat)) 0xF ∧
      (n₂.val : Int) = mask (bits >>> (4 : Nat)) 0xF ∧ (n₃.val : Int) = mask (bits >>> (0 : Nat)) 0xF ∧
      ((4096 * n₀.val + 256 * n₁.val + 16 * n₂.val + n₃.val : Nat) : Int) = bits % 65536 ∧
      (Address.ofInt bits).val = 256 * n₁.val + 16 * n₂.val + n₃.val ∧
      ((Address.ofInt bits).val : Int) = mask bits 0xFFF ∧
      (UInt8.ofInt bits).toNat = 16 * n₂.val + n₃.val ∧ ((UInt8.ofInt bits).toNat : Int) = mask bits 0xFF) ∧
    (∀ (op : Nibble) (a : Int),
      Opcode.packAddress op a = (Opcode.ofAddress op a).word ∧
      ∃ d₁ d₂ d₃ : Nibble, Opcode.ReadFrom ⟨op, d₁, d₂, d₃⟩ (Opcode.packAddress op a) ∧
        ((256 * d₁.val + 16 * d₂.val + d₃.val : Nat) : Int) = a % 4096) ∧
    (∀ (op x : Nibble) (b : Int),
      Opcode.packByte op x b = (Opcode.ofByte op x b).word ∧
      ∃ d₂ d₃ : Nibble, Opcode.ReadFrom ⟨op, x, d₂, d₃⟩ (Opcode.packByte op x b) ∧
        ((16 * d₂.val + d₃.val : Nat) : Int) = b % 256) ∧
    ∀ (op x y : Nibble) (n : Int),
      Opcode.packRegisters op x y n = (Opcode.ofRegisters op x y n).word ∧
      ∃ d₃ : Nibble, Opcode.ReadFrom ⟨op, x, y, d₃⟩ (Opcode.packRegisters op x y n) ∧ (d₃.val : Int) = n % 16 := by
  refine ⟨fun bits => ?_, fun op a => ?_, fun op x b => ?_, fun op x y n => ?_⟩
  · have hword := Opcode.word_ofInt bits
    simp only [Opcode.word] at hword
    have haddress := congrArg Fin.val (Opcode.address_ofInt bits)
    have hbyte := Opcode.byte_ofInt bits
    exact ⟨_, _, _, _, Opcode.readFrom_ofInt bits, val_hexDigitAt_eq_mask bits 3, val_hexDigitAt_eq_mask bits 2,
      val_hexDigitAt_eq_mask bits 1, val_hexDigitAt_eq_mask bits 0, hword, haddress.symm, val_ofInt_eq_mask bits,
      hbyte.symm, toNat_ofInt_eq_mask bits⟩
  · rw [Opcode.packAddress_eq]
    exact ⟨rfl, _, _, _, (Opcode.ofAddress op a).readFrom_word, Opcode.val_address_ofAddress op a⟩
  · rw [Opcode.packByte_eq]
    exact ⟨rfl, _, _, (Opcode.ofByte op x b).readFrom_word, Opcode.byte_ofByte op x b⟩
  · rw [Opcode.packRegisters_eq]
    exact ⟨rfl, _, (Opcode.ofRegisters op x y n).readFrom_word, Opcode.val_ofRegisters op x y n⟩

/-- The digits of an integer below zero, and an address below zero beside a group digit. -/
example : Opcode.ofInt (-0x124) = ⟨0xF, 0xE, 0xD, 0xC⟩ ∧ Opcode.packAddress 0xA (-1) = 0xAFFF := by decide

end Chip8
