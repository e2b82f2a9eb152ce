import Chip8.Machine.Execute
import Chip8.Proofs.OpcodeTable

/-!
# The effect of instructions

What the longer instructions come to when nothing stops them, and what can stop them. Every instruction looks
for its fault before it changes anything; the checks it makes later, byte by byte, never fail.

* `combine_eq`, `drawSprite_eq`, `storeDecimal_eq`, `storeRegisters_eq`, `loadRegisters_eq` — the effect, or
  the fault, of one kind of instruction.
* `faultOf` — the fault that an instruction meets in a state.
* `execute_of_fault` — an instruction with a fault fails with it and changes nothing.
* `execute_of_no_fault` — any other succeeds.
-/

set_option autoImplicit false

namespace Chip8

/-! ## Digits -/

theorem decimalDigits_lt {v : Nat} (hv : v < 1000) : ∀ d ∈ decimalDigits v, d < 10 := by
  simp only [decimalDigits, List.forall_mem_cons, List.not_mem_nil, false_implies, implies_true, and_true]
  omega

namespace Machine

variable {env : Environment}

/-! ## Kinds of instructions -/

/-- **The arithmetic always succeeds**: flag and result are bytes, whatever the registers are. -/
theorem combine_eq (m : Machine) (op : Arith) (x y : Register) :
    m.combine op x y = .done
      (((op.flag? (m.reg x).toNat (m.reg y).toNat).elim m fun f =>
        m.setReg Register.flag (UInt8.ofNat f)).setReg x
          (UInt8.ofInt (op.result (m.reg x).toNat (m.reg y).toNat))) := by
  have hx := (m.reg x).toNat_lt
  have hy := (m.reg y).toNat_lt
  obtain ⟨h0, h⟩ := op.result_range hx hy
  unfold combine
  dsimp only
  split
  · rename_i f hf
    have hf1 := Arith.flag?_le_one hy hf
    rw [setRegister_natCast m _ (by omega), Outcome.done_andThen, setRegister_of_lt _ _ h0 h, hf,
      Option.elim_some]
  · rename_i hf
    rw [setRegister_of_lt _ _ h0 h, hf, Option.elim_none]

theorem skipByKey_of_key (m : Machine) {x : Register} {k : Key} (h : (m.reg x).toNat = k.val)
    (held : Bool) : m.skipByKey x held = .done (m.skipIf (m.keypad.isPressed k == held)) := by
  rw [skipByKey, h, Key.checked_natCast]

theorem skipByKey_of_no_key (m : Machine) {x : Register} (h : 15 < (m.reg x).toNat) (held : Bool) :
    m.skipByKey x held = .fail m (.fault (.invalidKey (m.reg x).toNat)) := by
  rw [skipByKey, Key.checked_of_lt h]

/-- The sprite of `n` rows at the index. -/
def spriteAtIndex (m : Machine) (n : Nibble) : Sprite where
  rows := m.memory.block m.index n.val
  length_le := by rw [Memory.length_block]; omega

theorem ofBytes_spriteAtIndex (m : Machine) (n : Nibble) :
    Sprite.ofBytes (m.memory.block m.index n.val) = .ok (m.spriteAtIndex n) :=
  dif_pos (m.spriteAtIndex n).length_le

/-- Drawing fails as its slice does. Otherwise it draws and sets the flag; its rows are always few enough
for a sprite. -/
theorem drawSprite_eq (m : Machine) (x y : Register) (n : Nibble) :
    m.drawSprite x y n = match Memory.sliceFault m.index n.val with
      | some f => .fail m f
      | none =>
        let sprite := m.spriteAtIndex n
        let origin := Point.ofInt (m.reg x).toNat (m.reg y).toNat
        .done ({ m with screen := m.screen.draw sprite origin }.setReg Register.flag
          (if m.screen.overdraws sprite origin then 1 else 0)) := by
  unfold drawSprite
  rw [Memory.slice_eq]
  cases Memory.sliceFault m.index n.val with
  | some f => rfl
  | none =>
    dsimp only
    rw [ofBytes_spriteAtIndex]
    dsimp only
    split
    · exact setRegister_byte _ _ 1
    · exact setRegister_byte _ _ 0

theorem storeDecimal_eq (m : Machine) (x : Register) :
    m.storeDecimal x =
      if 4095 < m.index + 2 then .fail m (.fault (.outOfRange (m.index + 2 : Nat)))
      else .done { m with
        memory := m.memory.putAll m.index ((decimalDigits (m.reg x).toNat).map UInt8.ofNat) } := by
  have hx := (m.reg x).toNat_lt
  have hcast : (m.index : Int) + 2 = (m.index + 2 : Nat) := rfl
  unfold storeDecimal
  rw [hcast]
  by_cases h : 4095 < m.index + 2
  · rw [if_pos h, Address.checked_of_le (by omega)]
  · rw [if_neg h, Address.checked_natCast ⟨m.index + 2, by omega⟩]
    dsimp only
    have hbytes : (decimalDigits (m.reg x).toNat).map (fun (d : Nat) => (d : Int)) =
        ((decimalDigits (m.reg x).toNat).map UInt8.ofNat).map fun b => (b.toNat : Int) := by
      rw [List.map_map]
      refine List.map_congr_left fun d hd => ?_
      have hd10 := decimalDigits_lt (show (m.reg x).toNat < 1000 by omega) d hd
      rw [Function.comp_apply, UInt8.toNat_ofNat', Nat.mod_eq_of_lt (by omega)]
    rw [hbytes, writeBytes_bytes]
    simp [decimalDigits]
    omega

theorem storeRegisters_eq (m : Machine) (x : Register) :
    m.storeRegisters x =
      if 4095 < m.index + x.val then .fail m (.fault (.outOfRange (m.index + x.val : Nat)))
      else .done ({ m with
        memory := m.memory.putAll m.index (x.upTo.map m.reg) }.moveIndex (x.val + 1)) := by
  have hcast : (m.index : Int) + x.val = (m.index + x.val : Nat) := rfl
  unfold storeRegisters
  rw [hcast]
  by_cases h : 4095 < m.index + x.val
  · rw [if_pos h, Address.checked_of_le (by omega)]
  · rw [if_neg h, Address.checked_natCast ⟨m.index + x.val, by omega⟩]
    dsimp only
    have hbytes : x.upTo.map (fun r => ((m.reg r).toNat : Int)) =
        (x.upTo.map m.reg).map fun b => (b.toNat : Int) := by
      rw [List.map_map]
      rfl
    rw [hbytes, writeBytes_bytes _ _ _ (by simp; omega), Outcome.done_andThen]

theorem loadRegisters_eq (m : Machine) (x : Register) :
    m.loadRegisters x = match Memory.sliceFault m.index (x.val + 1) with
      | some f => .fail m f
      | none => .done ((m.setRegs (x.upTo.zip (m.memory.block m.index (x.val + 1)))).moveIndex
          (x.val + 1)) := by
  have hcast : (x.val : Int) + 1 = (x.val + 1 : Nat) := rfl
  unfold loadRegisters
  rw [hcast, Memory.slice_eq]
  cases Memory.sliceFault m.index (x.val + 1) with
  | some f => rfl
  | none =>
    dsimp only
    rw [setRegisters_bytes, Outcome.done_andThen]

/-! ## Faults -/

/-- The fault that an instruction meets, read off the state alone. -/
def faultOf (m : Machine) : Instruction → Option Fault
  | .ret => if m.stack = [] then some .stackUnderflow else none
  | .call a => if m.stack.length < stackSize then none else some (.stackOverflow a.val)
  | .skipIfKey x | .skipUnlessKey x =>
      if 15 < (m.reg x).toNat then some (.invalidKey (m.reg x).toNat) else none
  | .draw _ _ n => Memory.sliceFault m.index n.val
  | .storeDecimal _ => if 4095 < m.index + 2 then some (.outOfRange (m.index + 2 : Nat)) else none
  | .storeRegisters x =>
      if 4095 < m.index + x.val then some (.outOfRange (m.index + x.val : Nat)) else none
  | .loadRegisters x => Memory.sliceFault m.index (x.val + 1)
  | _ => none

/-- To move on changes no fault. -/
theorem faultOf_advance (m : Machine) (i : Instruction) : m.advance.faultOf i = m.faultOf i := by
  cases i <;> rfl

/-- **An instruction with a fault changes nothing.** -/
theorem execute_of_fault {m : Machine} {i : Instruction} {f : Fault} (h : m.faultOf i = some f) :
    m.execute env i = .fail m f := by
  cases i with
  | ret =>
    obtain ⟨hs, hf⟩ := Option.ite_none_right_eq_some.1 h
    cases hf
    simp only [execute, hs]
  | call a =>
    obtain ⟨hs, hf⟩ := Option.ite_none_left_eq_some.1 h
    cases hf
    simp only [execute, if_neg hs]
  | skipIfKey x | skipUnlessKey x =>
    obtain ⟨hx, hf⟩ := Option.ite_none_right_eq_some.1 h
    cases hf
    exact m.skipByKey_of_no_key hx _
  | draw x y n =>
    rw [execute, drawSprite_eq, show Memory.sliceFault m.index n.val = some f from h]
  | storeDecimal x =>
    obtain ⟨hi, hf⟩ := Option.ite_none_right_eq_some.1 h
    cases hf
    rw [execute, storeDecimal_eq, if_pos hi]
  | storeRegisters x =>
    obtain ⟨hi, hf⟩ := Option.ite_none_right_eq_some.1 h
    cases hf
    rw [execute, storeRegisters_eq, if_pos hi]
  | loadRegisters x =>
    rw [execute, loadRegisters_eq, show Memory.sliceFault m.index (x.val + 1) = some f from h]
  | _ => cases h

/-- **An instruction without a fault succeeds**, if the delay timer is in its range, a byte operand is a byte
and no routine of the host machine is asked for. -/
theorem execute_of_no_fault {m : Machine} {i : Instruction} (henv : env.sys = none)
    (hd : m.delay < 256) (hi : i.Coded) (h : m.faultOf i = none) :
    (m.execute env i).failure = none := by
  cases i with
  | sys a => simp only [execute, henv]; rfl
  | ret =>
    cases hs : m.stack with
    | nil => simp [faultOf, hs] at h
    | cons back rest => simp only [execute, hs]; rfl
  | call a =>
    have hs : m.stack.length < stackSize :=
      Decidable.byContradiction fun hs => by simp [faultOf, hs] at h
    simp only [execute, if_pos hs]
    rfl
  | setByte x b => rw [execute, setRegister_of_lt m x hi.1 hi.2]; rfl
  | addByte x b => rw [execute, setRegister_of_lt m x (by omega) (by omega)]; rfl
  | arith op x y => rw [execute, combine_eq]; rfl
  | random x b =>
    obtain ⟨n, rfl⟩ := Int.eq_ofNat_of_zero_le hi.1
    have hmask := mask_bounds (env.random m.randomTaken) n
    rw [execute, setRegister_of_lt _ x hmask.1 (by have := hi.2; omega)]
    rfl
  | draw x y n => rw [execute, drawSprite_eq, show Memory.sliceFault m.index n.val = none from h]; rfl
  | skipIfKey x | skipUnlessKey x =>
    have hx : (m.reg x).toNat < 16 :=
      Decidable.byContradiction fun hx => by simp [faultOf, show 15 < (m.reg x).toNat by omega] at h
    rw [execute, m.skipByKey_of_key (k := ⟨_, hx⟩) rfl]
    rfl
  | readDelay x => rw [execute, setRegister_of_lt m x (by omega) (by omega)]; rfl
  | storeDecimal x =>
    have hx : ¬ 4095 < m.index + 2 := fun hx => by simp [faultOf, hx] at h
    rw [execute, storeDecimal_eq, if_neg hx]
    rfl
  | storeRegisters x =>
    have hx : ¬ 4095 < m.index + x.val := fun hx => by simp [faultOf, hx] at h
    rw [execute, storeRegisters_eq, if_neg hx]
    rfl
  | loadRegisters x =>
    rw [execute, loadRegisters_eq, show Memory.sliceFault m.index (x.val + 1) = none from h]
    rfl
  | _ => rfl

end Machine

end Chip8
