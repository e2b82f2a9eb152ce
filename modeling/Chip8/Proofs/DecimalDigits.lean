import Chip8.Proofs.RegisterBlocks

/-!
# Decimal digits in the memory

A register is stored at the index as its three decimal digits. Loaded back as registers, the digits have the value that
was stored, whichever register it was in, also one of those that are loaded over.

* `decimalDigits_value` — the digits of a number have its value.
* `byteAt_putAll_decimalDigits` — where they stand in the memory.
* `execute_storeDecimal` — they are stored if there is room for all three.
* `decimal_round_trip` — so what was stored is read back.
-/

set_option autoImplicit false

namespace Chip8

/-! ## Digits -/

/-- Hundreds, tens and ones make up the number. -/
theorem decimalDigits_value (n : Nat) :
    100 * (decimalDigits n).getD 0 0 + 10 * (decimalDigits n).getD 1 0 + (decimalDigits n).getD 2 0 = n := by
  simp [decimalDigits]
  omega

theorem decimalDigits_getD_lt {n : Nat} (hn : n < 1000) (k : Nat) : (decimalDigits n).getD k 0 < 10 := by
  rw [List.getD_eq_getElem?_getD]
  cases h : (decimalDigits n)[k]? with
  | none => exact Nat.succ_pos 9
  | some d => exact decimalDigits_lt hn d (List.mem_of_getElem? h)

/-- Digits that were put into the memory stand there one after the other. -/
theorem byteAt_putAll_decimalDigits (memory : Memory) {a : Nat} (ha : a + 3 ≤ 4096) (n : Nat) {k : Nat} (hk : k < 3) :
    (memory.putAll a ((decimalDigits n).map UInt8.ofNat)).byteAt (a + k) = UInt8.ofNat ((decimalDigits n).getD k 0) := by
  have hlength : ((decimalDigits n).map UInt8.ofNat).length = 3 := rfl
  rw [Memory.byteAt_putAll _ _ _ (by omega), if_pos (by omega), Nat.add_sub_cancel_left, List.getElem?_map,
    List.getD_eq_getElem?_getD]
  cases (decimalDigits n)[k]? <;> rfl

namespace Machine

variable (env : Environment) (m : Machine)

theorem execute_storeDecimal (x : Register) (h : m.index + 3 ≤ 4096) :
    m.execute env (.storeDecimal x) = .done { m with
      memory := m.memory.putAll m.index ((decimalDigits (m.reg x).toNat).map UInt8.ofNat) } := by
  rw [execute, storeDecimal_eq, if_neg (by omega)]

/-- **A register that is stored in decimal is read back.** If the index has room for three bytes, store a register at it
in decimal and load the first three registers from there. Neither fails. The three registers then are digits, and
together they have the value that the stored register had, also if it was one of them; the memory has them at the
index. The index has moved on by three, and no other register, no other byte of the memory and no other part of the
machine has changed. Without that room the store fails, and changes nothing. -/
theorem decimal_round_trip (x : Register) :
    let stored := m.execute env (.storeDecimal x)
    let loaded := stored.machine.execute env (.loadRegisters 2)
    let value := fun r : Register => (loaded.machine.reg r).toNat
    (m.index ≤ 4093 →
      stored.failure = none ∧
      (∃ memory rs, loaded = .done { m with memory := memory, registers := rs, index := m.index + 3 }) ∧
      (∀ r ≤ 2, value r ≤ 9) ∧ 100 * value 0 + 10 * value 1 + value 2 = (m.reg x).toNat ∧
      (∀ r, 2 < r → loaded.machine.reg r = m.reg r) ∧
      (∀ r ≤ 2, loaded.machine.memory.byteAt (m.index + r.val) = loaded.machine.reg r) ∧
      ∀ a, a < m.index ∨ m.index + 3 ≤ a → loaded.machine.memory.byteAt a = m.memory.byteAt a) ∧
    (4093 < m.index → stored = .fail m (.fault (.outOfRange (m.index + 2 : Nat)))) := by
  intro stored loaded value
  constructor
  · intro hindex
    have hx := (m.reg x).toNat_lt
    let digits := decimalDigits (m.reg x).toNat
    let n : Machine := { m with memory := m.memory.putAll m.index (digits.map UInt8.ofNat) }
    have hstored : stored = .done n := m.execute_storeDecimal env x (by omega)
    obtain ⟨rs, hload, hin, hout⟩ := n.execute_loadRegisters env 2 (Nat.add_le_add_right hindex 3)
    have hloaded : loaded = .done { n with registers := rs, index := m.index + 3 } := by
      rw [show loaded = stored.machine.execute env (.loadRegisters 2) from rfl, hstored]
      exact hload
    have hreg : ∀ r, loaded.machine.reg r = rs[r] := by
      intro r
      rw [hloaded]
      rfl
    have hmemory : loaded.machine.memory = n.memory := by
      rw [hloaded]
      rfl
    -- Each of the first three registers is loaded from its own digit.
    have hdigit : ∀ r : Register, r ≤ 2 → value r = digits.getD r.val 0 := by
      intro r hr
      have hlt := decimalDigits_getD_lt (show (m.reg x).toNat < 1000 by omega) r.val
      show (loaded.machine.reg r).toNat = _
      rw [hreg, hin r hr, byteAt_putAll_decimalDigits _ (Nat.add_le_add_right hindex 3) _ (Nat.lt_succ_of_le hr),
        UInt8.toNat_ofNat', Nat.mod_eq_of_lt (Nat.lt_trans hlt (by decide))]
    refine ⟨?_, ⟨n.memory, rs, hloaded⟩, ?_, ?_, ?_, ?_, ?_⟩
    · rw [hstored]
      rfl
    · intro r hr
      rw [hdigit r hr]
      exact Nat.le_of_lt_succ (decimalDigits_getD_lt (by omega) r.val)
    · rw [hdigit 0 (by decide), hdigit 1 (by decide), hdigit 2 (by decide)]
      exact decimalDigits_value _
    · intro r hr
      rw [hreg, hout r hr]
      rfl
    · intro r hr
      rw [hreg, hmemory, hin r hr]
    · intro a ha
      have hlength : (digits.map UInt8.ofNat).length = 3 := rfl
      rw [hmemory, Memory.byteAt_putAll _ _ _ (by omega), if_neg (by omega)]
  · intro hindex
    show m.execute env (.storeDecimal x) = _
    rw [execute, storeDecimal_eq, if_pos (by omega)]

/-- A register that is itself loaded over, stored in the last three bytes of the memory. -/
theorem decimal_round_trip_end :
    let env : Environment := ⟨fun _ => 0, none⟩
    let m := { fresh with index := 4093, registers := Vector.replicate 16 209 }
    let loaded := (m.execute env (.storeDecimal 1)).machine.execute env (.loadRegisters 2)
    let value := fun r : Register => (loaded.machine.reg r).toNat
    loaded.failure = none ∧ loaded.machine.index = 4096 ∧ 100 * value 0 + 10 * value 1 + value 2 = 209 ∧
      loaded.machine.reg 3 = 209 := by
  intro env m loaded value
  have hregs : ∀ r, m.reg r = 209 := by decide
  obtain ⟨-, ⟨memory, rs, hloaded⟩, -, hvalue, hothers, -⟩ := (m.decimal_round_trip env 1).1 (Nat.le_refl 4093)
  rw [hregs] at hvalue
  have hend : loaded = _ := hloaded
  refine ⟨?_, ?_, hvalue, (hothers 3 (by decide)).trans (hregs 3)⟩
  · rw [hend]
    rfl
  · rw [hend]
    rfl

end Machine

end Chip8
