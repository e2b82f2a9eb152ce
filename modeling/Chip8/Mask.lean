/-!
# Masks

The bitwise and of two integers of any size and sign, each seen as an infinite row of bits in two's
complement.

* `mask_natCast` — on natural numbers it is their own bitwise and.
* `mask_bounds` — a mask that is no negative number bounds the result.
-/

set_option autoImplicit false

namespace Chip8

/-- The bits that two integers share. A negative number is the complement of the natural number one below
its size, which turns every case into one on natural numbers. -/
def mask : Int → Int → Int
  | .ofNat a, .ofNat b => Int.ofNat (a &&& b)
  | .ofNat a, .negSucc b => Int.ofNat (a ^^^ (a &&& b))
  | .negSucc a, .ofNat b => Int.ofNat (b ^^^ (a &&& b))
  | .negSucc a, .negSucc b => Int.negSucc (a ||| b)

@[simp] theorem mask_natCast (a b : Nat) : mask a b = ((a &&& b : Nat) : Int) := rfl

theorem xor_and_le (a b : Nat) : b ^^^ (a &&& b) ≤ b := by
  have h : b ^^^ (a &&& b) = b &&& (b ^^^ (a &&& b)) := by
    apply Nat.eq_of_testBit_eq
    intro i
    simp only [Nat.testBit_xor, Nat.testBit_and]
    cases a.testBit i <;> cases b.testBit i <;> rfl
  rw [h]
  exact Nat.and_le_left

theorem mask_bounds (v : Int) (b : Nat) : 0 ≤ mask v b ∧ mask v b ≤ b := by
  cases v with
  | ofNat a => exact ⟨Int.natCast_nonneg _, Int.ofNat_le.2 Nat.and_le_right⟩
  | negSucc a => exact ⟨Int.natCast_nonneg _, Int.ofNat_le.2 (xor_and_le a b)⟩

end Chip8
