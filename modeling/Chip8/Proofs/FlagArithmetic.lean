import Chip8.Proofs.Cells
import Chip8.Proofs.RoundTrip

/-!
# Arithmetic with a flag

Five operations on registers put a byte into the first register and tell in the flag register what does not fit into
it. The operands are read before anything is written, and the result is written last; so either operand may be the
flag register, and where the result goes there it is the result that stays.

* `Arith.exact` — what an operation computes on integers of any size. `Arith.written` — the integer that a result and a
  flag write together.
* `Arith.written_eq_exact` — they are the same: nothing is lost in a byte and a flag.
* `decode_arith` — the words of the operations.
* `reg_combine`, `flag_combine` — what an operation leaves in its first register, and in the flag register.
* `flags_exact` — so the arithmetic is exact, whichever registers it is done on.
-/

set_option autoImplicit false

namespace Chip8

namespace Arith

/-- What an operation with a flag computes on integers. -/
def exact (a b : Int) : Arith → Int
  | .add => a + b
  | .sub => a - b
  | .subn => b - a
  | .shl => 2 * b
  | _ => b

/-- The integer that a result and a flag write together: a carry counts 256, a missing borrow takes 256 away, and the
bit that is shifted out to the right counts one where the result counts two. -/
def written (v f : Int) : Arith → Int
  | .add | .shl => 256 * f + v
  | .sub | .subn => v - 256 * (1 - f)
  | .shr => 2 * v + f
  | _ => v

/-- **Result and flag write what the operation computes.** -/
theorem written_eq_exact {op : Arith} {a b f : Nat} (ha : a < 256) (hb : b < 256) (h : op.flag? a b = some f) :
    op.written (op.result a b) f = op.exact a b := by
  cases op with
  | copy | or | and | xor => cases h
  | shr | shl =>
    cases h
    simp only [written, result, exact]
    omega
  | add | sub | subn =>
    cases h
    simp only [written, result, exact]
    split <;> omega

end Arith

namespace Instruction

/-- The words of the operations on two registers differ in their last digit. -/
theorem decode_arith (op : Arith) (x y : Register) :
    decode (0x8000 + 0x100 * x.val + 0x10 * y.val + op.digit.val) = .ok (.arith op x y) := by
  have hencode : (Instruction.arith op x y).encode = 4096 * 8 + 256 * x.val + 16 * y.val + op.digit.val := by
    rw [encode, opcode, Opcode.ofRegisters_natCast]
    rfl
  have hword : (0x8000 + 0x100 * x.val + 0x10 * y.val + op.digit.val : Int) = (Instruction.arith op x y).encode := by
    omega
  rw [hword]
  exact decode_encode_of_ne (by simp) (by simp)

end Instruction

namespace Machine

variable (env : Environment) (m : Machine) (op : Arith) (x y : Register)

/-- **The result is what stays in the first register**, also if that is the flag register. -/
theorem reg_combine :
    (((m.combine op x y).machine.reg x).toNat : Int) = op.result (m.reg x).toNat (m.reg y).toNat := by
  obtain ⟨h0, h⟩ := op.result_range (m.reg x).toNat_lt (m.reg y).toNat_lt
  rw [combine_eq, Outcome.done, reg_setReg, if_pos rfl, toNat_ofInt]
  omega

/-- The flag stays in its register if that is not the first one. -/
theorem flag_combine {f : Nat} (hx : x ≠ Register.flag) (h : op.flag? (m.reg x).toNat (m.reg y).toNat = some f) :
    ((m.combine op x y).machine.reg Register.flag).toNat = f := by
  have hf := Arith.flag?_le_one (m.reg y).toNat_lt h
  rw [combine_eq, Outcome.done, reg_setReg, if_neg hx.symm, h, Option.elim_some, reg_setReg, if_pos rfl,
    UInt8.toNat_ofNat', Nat.mod_eq_of_lt (by omega)]

/-- Result and flag write what the operation computes on the old registers. -/
theorem written_combine {f : Nat} (hx : x ≠ Register.flag) (h : op.flag? (m.reg x).toNat (m.reg y).toNat = some f) :
    op.written ((m.combine op x y).machine.reg x).toNat ((m.combine op x y).machine.reg Register.flag).toNat =
      op.exact (m.reg x).toNat (m.reg y).toNat := by
  rw [reg_combine, m.flag_combine op x y hx h]
  exact Arith.written_eq_exact (m.reg x).toNat_lt (m.reg y).toNat_lt h

/-- The arithmetic writes to no other register than the first one and the flag register. -/
theorem reg_combine_of_ne {r : Register} (hx : r ≠ x) (hf : r ≠ Register.flag) :
    (m.combine op x y).machine.reg r = m.reg r := by
  refine m.combine_reg fun hwrites => ?_
  cases op <;> simp [Instruction.Writes, hx, hf] at hwrites

/-- **The arithmetic with a flag is exact.** The words 8xy4 to 8xy7 and 8xyE are read as these operations, for any two
registers, which may be the same and may be the flag register, and they always succeed. The first register then holds
the sum, a difference, a half or the double of what the two registers held before, modulo 256. If it is not the flag
register, that one holds zero or one, and both together write the whole sum, difference or double and the number that
was halved. If it is, the result is all that is left. No other register is changed. -/
theorem flags_exact (env : Environment) (m : Machine) (x y : Register) :
    let a : Int := (m.reg x).toNat
    let b : Int := (m.reg y).toNat
    let word : Int := 0x8000 + 0x100 * x.val + 0x10 * y.val
    let n := fun op => (m.execute env (.arith op x y)).machine
    let v : Arith → Int := fun op => ((n op).reg x).toNat
    let f : Arith → Int := fun op => ((n op).reg Register.flag).toNat
    (Instruction.decode (word + 0x4) = .ok (.arith .add x y) ∧ Instruction.decode (word + 0x5) = .ok (.arith .sub x y) ∧
      Instruction.decode (word + 0x6) = .ok (.arith .shr x y) ∧
      Instruction.decode (word + 0x7) = .ok (.arith .subn x y) ∧
      Instruction.decode (word + 0xE) = .ok (.arith .shl x y)) ∧
    (∀ op, (m.execute env (.arith op x y)).failure = none) ∧
    (v .add = (a + b) % 256 ∧ v .sub = (a - b) % 256 ∧ v .subn = (b - a) % 256 ∧ v .shr = b / 2 ∧
      v .shl = 2 * b % 256) ∧
    (x ≠ Register.flag →
      256 * f .add + v .add = a + b ∧ v .sub - 256 * (1 - f .sub) = a - b ∧ v .subn - 256 * (1 - f .subn) = b - a ∧
      2 * v .shr + f .shr = b ∧ 256 * f .shl + v .shl = 2 * b ∧
      ∀ op ∈ [Arith.add, .sub, .subn, .shr, .shl], f op = 0 ∨ f op = 1) ∧
    ∀ op r, r ≠ x → r ≠ Register.flag → (n op).reg r = m.reg r := by
  intro a b word n v f
  have hresult : ∀ op : Arith, v op = op.result (m.reg x).toNat (m.reg y).toNat := fun op => m.reg_combine op x y
  refine ⟨⟨?_, ?_, ?_, ?_, ?_⟩, fun op => ?_, ?_, fun hx => ?_, fun op r => m.reg_combine_of_ne op x y⟩
  · exact Instruction.decode_arith .add x y
  · exact Instruction.decode_arith .sub x y
  · exact Instruction.decode_arith .shr x y
  · exact Instruction.decode_arith .subn x y
  · exact Instruction.decode_arith .shl x y
  · rw [execute, combine_eq]
    rfl
  · exact ⟨hresult .add, hresult .sub, hresult .subn, hresult .shr, hresult .shl⟩
  · refine ⟨?_, ?_, ?_, ?_, ?_, ?_⟩
    · exact m.written_combine .add x y hx rfl
    · exact m.written_combine .sub x y hx rfl
    · exact m.written_combine .subn x y hx rfl
    · exact m.written_combine .shr x y hx rfl
    · exact m.written_combine .shl x y hx rfl
    · intro op hop
      obtain ⟨bit, hbit⟩ : ∃ bit, op.flag? (m.reg x).toNat (m.reg y).toNat = some bit := by
        revert op
        simp [Arith.flag?]
      have hone := Arith.flag?_le_one (m.reg y).toNat_lt hbit
      have hflag : f op = bit := congrArg Int.ofNat (m.flag_combine op x y hx hbit)
      omega

/-- The flag register is subtracted from another one, and a register is doubled into it. -/
theorem flags_exact_borrow :
    let env : Environment := ⟨fun _ => 0, none⟩
    let m := (fresh.setReg 2 200).setReg Register.flag 201
    let n := (m.execute env (.arith .sub 2 Register.flag)).machine
    let n' := (m.execute env (.arith .shl Register.flag 2)).machine
    (n.reg 2).toNat = 255 ∧ (n.reg Register.flag).toNat = 0 ∧ (n'.reg Register.flag).toNat = 144 := by
  intro env m n n'
  have htwo : (m.reg 2).toNat = 200 := rfl
  have hflag : (m.reg Register.flag).toNat = 201 := rfl
  obtain ⟨-, -, ⟨-, hsub, -⟩, hexact, -⟩ := flags_exact env m 2 Register.flag
  obtain ⟨-, -, ⟨-, -, -, -, hshl⟩, -⟩ := flags_exact env m Register.flag 2
  obtain ⟨-, hborrow, -⟩ := hexact (by decide)
  simp only [htwo, hflag] at hsub hborrow hshl
  have hresult : ((n.reg 2).toNat : Int) = 255 := hsub
  have hwritten : ((n.reg 2).toNat : Int) - 256 * (1 - (n.reg Register.flag).toNat) = -1 := hborrow
  have hdouble : ((n'.reg Register.flag).toNat : Int) = 144 := hshl
  omega

end Machine

end Chip8
