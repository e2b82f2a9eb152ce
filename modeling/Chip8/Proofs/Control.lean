import Chip8.Proofs.Faults
import Chip8.Proofs.Restart
import Chip8.Proofs.Subroutine

/-!
# Where control goes

A step goes on with the next instruction, skips one, or goes where its instruction says. The address is kept in
sixteen bits, but on a machine whose host leaves its inside alone that makes no difference: an instruction is only
executed where its word lies in the memory, so control gets past the end of the memory by a few bytes at most, and
the next instruction cannot be fetched from there.

* `skips`, `target` — the address where an instruction leaves the machine. `step_pc` — every step that succeeds
  leaves it there.
* `InReach` — the addresses of the next instruction and of the open calls are small. `target_le`, `step_inReach`,
  `perform_inReach`, `run_inReach` — and stay so.
* `control_in_reach` — so no address ever comes near sixteen bits.
* `waits_outside_memory` — a machine past the end of its memory may still wait for a key first.
-/

set_option autoImplicit false

namespace Chip8.Machine

variable {env : Environment} {m : Machine} {i : Instruction}

/-! ## One step -/

/-- Whether a register names a key that is held down. -/
def holdsKey (m : Machine) (x : Register) : Bool :=
  match Key.checked (m.reg x).toNat with
  | .ok k => m.keypad.isPressed k
  | .error _ => false

/-- Whether an instruction skips the one after it. -/
def skips (m : Machine) : Instruction → Bool
  | .skipIfByte x b => decide (((m.reg x).toNat : Int) = b)
  | .skipUnlessByte x b => decide (((m.reg x).toNat : Int) ≠ b)
  | .skipIfEqual x y => decide (m.reg x = m.reg y)
  | .skipUnlessEqual x y => decide (m.reg x ≠ m.reg y)
  | .skipIfKey x => m.holdsKey x
  | .skipUnlessKey x => !m.holdsKey x
  | _ => false

/-- The address of the instruction that follows one which succeeds. -/
def target (m : Machine) : Instruction → Nat
  | .ret => m.stack.headD 0
  | .jump a | .call a => a.val
  | .jumpOffset a => a.val + (m.reg 0).toNat
  | i => if m.skips i then m.pc + 4 else m.pc + 2

/-- Sixteen bits are enough to move on by one instruction or by two. -/
theorem pc_advance (hpc : m.pc < 4095) :
    m.advance.pc = m.pc + 2 ∧ ∀ c, (m.advance.skipIf c).pc = if c then m.pc + 4 else m.pc + 2 := by
  have hadvance : m.advance.pc = m.pc + 2 := word16_of_lt (by omega)
  refine ⟨hadvance, fun c => ?_⟩
  cases c with
  | false => exact hadvance
  | true =>
    show word16 (m.advance.pc + 2) = m.pc + 4
    rw [hadvance]
    exact word16_of_lt (by omega)

theorem skipByKey_pc {x : Register} {held : Bool} (h : (m.skipByKey x held).failure = none) :
    (m.skipByKey x held).machine.pc = (m.skipIf (m.holdsKey x == held)).pc := by
  unfold skipByKey holdsKey at *
  cases hkey : Key.checked (m.reg x).toNat with
  | ok k => rfl
  | error f => rw [hkey] at h; cases h

/-- An instruction that succeeds leaves the machine at its target. -/
theorem execute_pc (henv : env.sys = none) (hpc : m.pc < 4095)
    (hsuccess : (m.advance.execute env i).failure = none) :
    (m.advance.execute env i).machine.pc = m.target i := by
  obtain ⟨hadvance, hskip⟩ := pc_advance hpc
  cases i with
  | ret =>
    have hstack : m.advance.stack = m.stack := rfl
    rw [execute, hstack] at hsuccess ⊢
    rw [target]
    cases hs : m.stack with
    | nil => rw [hs] at hsuccess; cases hsuccess
    | cons back rest => rfl
  | call a =>
    rw [execute] at hsuccess ⊢
    by_cases hs : m.advance.stack.length < stackSize
    · rw [if_pos hs]; rfl
    · rw [if_neg hs] at hsuccess; cases hsuccess
  | jump | jumpOffset => rfl
  | skipIfByte | skipUnlessByte | skipIfEqual | skipUnlessEqual => exact hskip _
  | skipIfKey x =>
    rw [execute, skipByKey_pc hsuccess, hskip, beq_true]
    rfl
  | skipUnlessKey x =>
    rw [execute, skipByKey_pc hsuccess, hskip, beq_false]
    rfl
  | _ =>
    refine Eq.trans (b := m.advance.pc) ?_ hadvance
    exact execute_same (p := .pc) (fun _ _ => henv) m.advance (by simp [Instruction.changes])

/-- **A step that succeeds leaves the machine at the target of its instruction.** -/
theorem step_pc (henv : env.sys = none) (h : m.Executes i) (hsuccess : (m.step env).failure = none) :
    (m.step env).machine.pc = m.target i := by
  rw [failure_step h] at hsuccess
  have hsettle := settle_of_success hsuccess m.pc
  rw [step_of_executes h]
  exact (congrArg Machine.pc hsettle).trans (execute_pc henv (executes_iff.1 h).2.1 hsuccess)

/-! ## What every history keeps -/

/-- The next instruction is at most a jump with offset past the end of the memory, and every open call was made by
an instruction in the memory. -/
structure InReach (m : Machine) : Prop where
  pc_le : m.pc ≤ 0x10FE
  return_mem : ∀ a ∈ m.stack, 2 ≤ a ∧ a ≤ 4096

/-- The greatest target is that of a jump with offset. -/
theorem target_le (h : m.InReach) (hpc : m.pc < 4095) (i : Instruction) : m.target i ≤ 0x10FE := by
  cases i with
  | ret =>
    cases hs : m.stack with
    | nil => rw [target, hs]; exact Nat.zero_le _
    | cons back rest =>
      have hback := h.return_mem back (hs ▸ List.mem_cons_self)
      rw [target, hs, List.headD_cons]
      omega
  | jump a | call a =>
    have ha := a.isLt
    rw [target]
    omega
  | jumpOffset a =>
    have ha := a.isLt
    have hv := (m.reg 0).toNat_lt
    rw [target]
    omega
  | _ =>
    simp only [target]
    split <;> omega

theorem step_inReach (henv : env.sys = none) (hm : m.WellFormed) (h : m.InReach) :
    (m.step env).machine.InReach := by
  by_cases hexecutes : ∃ i, m.Executes i
  · obtain ⟨i, hi⟩ := hexecutes
    have hpc := (executes_iff.1 hi).2.1
    constructor
    · cases hfailure : (m.step env).failure with
      | none => rw [step_pc henv hi hfailure]; exact target_le h hpc i
      | some e => rw [(obstacle_of_failure henv hm hfailure).2.1]; exact h.pc_le
    · rcases m.step_stack henv with hsame | hcall | ⟨back, rest, -, hs, hstack, -⟩
      · rw [hsame]; exact h.return_mem
      · rw [hcall, List.forall_mem_cons]
        exact ⟨by omega, h.return_mem⟩
      · rw [hstack]
        exact fun a ha => h.return_mem a (hs ▸ List.mem_cons_of_mem back ha)
  · have hidle : ∀ p ∈ [Part.pc, .stack], p.Same (m.step env).machine m := fun p hp =>
      step_same_of_idle (fun i hi => hexecutes ⟨i, hi⟩) (.inr (by revert p; decide))
    have hpc : (m.step env).machine.pc = m.pc := hidle .pc (by decide)
    have hstack : (m.step env).machine.stack = m.stack := hidle .stack (by decide)
    exact ⟨hpc ▸ h.pc_le, hstack ▸ h.return_mem⟩

theorem loadFrom_inReach (h : m.InReach) (source : Program.Source) : (m.loadFrom source).machine.InReach := by
  have hpc : (m.loadFrom source).machine.pc = m.pc := loadFrom_same (p := .pc) (by decide) m source
  have hstack : (m.loadFrom source).machine.stack = m.stack := loadFrom_same (p := .stack) (by decide) m source
  exact ⟨hpc ▸ h.pc_le, hstack ▸ h.return_mem⟩

/-- **An action from outside keeps the machine in reach.** -/
theorem perform_inReach (henv : env.sys = none) (hm : m.WellFormed) (h : m.InReach) {a : Action}
    (ha : a.FromOutside) : (m.perform env a).machine.InReach := by
  cases ha with
  | step => exact step_inReach henv hm h
  | tick => exact ⟨h.pc_le, h.return_mem⟩
  | move key s =>
    rcases m.moveKey_cases key s with ⟨k, -, hmove⟩ | ⟨-, hmove⟩
    · rw [perform, hmove]; exact ⟨h.pc_le, h.return_mem⟩
    · rw [perform, hmove]; exact h
  | load source => exact loadFrom_inReach h source
  | reset => exact ⟨show Program.start ≤ 0x10FE by decide, fun _ h => absurd h List.not_mem_nil⟩

theorem run_inReach (henv : env.sys = none) (hm : m.WellFormed) (h : m.InReach) {history : List Action}
    (hhistory : ∀ a ∈ history, a.FromOutside) : (run env m history).InReach :=
  (run_induction (P := fun m => m.WellFormed ∧ m.InReach) Action.FromOutside
    (fun _ a hm ha => ⟨perform_wellFormed henv hm.1 a, perform_inReach henv hm.1 hm.2 ha⟩) ⟨hm, h⟩ history
    hhistory).2

theorem build_inReach (memory : Memory) (screen : Screen) (keypad : Keypad) (source : Option Program.Source) :
    (build memory screen keypad source).machine.InReach := by
  have hparts : { fresh with memory := memory, screen := screen, keypad := keypad }.InReach :=
    ⟨show Program.start ≤ 0x10FE by decide, fun _ h => absurd h List.not_mem_nil⟩
  cases source with
  | none => exact hparts
  | some source => exact loadFrom_inReach hparts source

/-! ## Past the end of the memory -/

/-- A machine that waits for a key past the end of the memory looks for one in its next step, which succeeds and
leaves it there. -/
theorem step_of_waits {x : Register} (hx : m.awaiting = some x) :
    (m.step env).failure = none ∧ (m.step env).machine.pc = m.pc := by
  rw [step_of_awaiting hx]
  exact ⟨pollKey_succeeds hx, pollKey_same (p := .pc) (by decide) m⟩

/-- **No address ever comes near sixteen bits.** A machine may be built in any way, and any actions from outside may
follow, steps that fail among them. The address of the next instruction is then at most 0x10FE and every place to
return to lies in 2 to 4096. An instruction is executed only at 4094 or below, so that to move on by one
instruction or by two never wraps around, and if its step succeeds it leaves the machine at its target: the
instruction after it, the one after that if it skips, or where it jumps, calls or returns to. Past the end of the
memory no instruction is executed. If the machine does not wait for a key, its next step fails there and changes
nothing; if it does, its next step looks for a key, succeeds, and leaves it there. -/
theorem control_in_reach (henv : env.sys = none) (memory : Memory) (screen : Screen) (keypad : Keypad)
    (source : Option Program.Source) (history : List Action) (hhistory : ∀ a ∈ history, a.FromOutside) :
    let s := run env (build memory screen keypad source).machine history
    s.pc ≤ 0x10FE ∧ (∀ a ∈ s.stack, 2 ≤ a ∧ a ≤ 4096) ∧
    (∀ i, s.Executes i → s.pc ≤ 4094 ∧
      s.advance.pc = s.pc + 2 ∧ (∀ c, (s.advance.skipIf c).pc = if c then s.pc + 4 else s.pc + 2) ∧
      ((s.step env).failure = none → (s.step env).machine.pc = s.target i)) ∧
    (4096 ≤ s.pc → s.awaiting = none → s.step env = .fail s (.fault (.outOfRange s.pc))) ∧
    (4096 ≤ s.pc → ∀ x, s.awaiting = some x →
      s.step env = s.pollKey ∧ (s.step env).failure = none ∧ (s.step env).machine.pc = s.pc) := by
  intro s
  have hs : s.InReach := run_inReach henv (build_wellFormed memory screen keypad source)
    (build_inReach memory screen keypad source) hhistory
  refine ⟨hs.pc_le, hs.return_mem, ?_, ?_, ?_⟩
  · intro i hi
    have hpc := (executes_iff.1 hi).2.1
    obtain ⟨hadvance, hskip⟩ := pc_advance hpc
    exact ⟨by omega, hadvance, hskip, step_pc henv hi⟩
  · intro houtside hawait
    exact step_of_outside hawait houtside
  · intro _ x hx
    exact ⟨step_of_awaiting hx, step_of_waits hx⟩

/-- A program that jumps as far as it can, and stops there. -/
theorem control_in_reach_furthest :
    let env : Environment := ⟨fun _ => 0, none⟩
    let s := run env (build .fresh .blank .fresh (some (.bytes [0x60, 0xFF, 0xBF, 0xFF]))).machine [.step, .step]
    s.pc = 0x10FE ∧ s.pc ≤ 0x10FE ∧ s.step env = .fail s (.fault (.outOfRange 0x10FE)) := by
  intro env s
  let p : Program := ⟨[0x60, 0xFF, 0xBF, 0xFF], by decide⟩
  let m : Machine := { fresh with memory := Memory.fresh.load p, program := some p }
  have hbuilt : (build .fresh .blank .fresh (some (.bytes [0x60, 0xFF, 0xBF, 0xFF]))).machine = m := by
    have hstart : (build .fresh .blank .fresh (some (.bytes p.bytes))).machine = (start (some p)).machine :=
      congrArg Outcome.machine (build_fresh_eq_start (some p))
    rw [hstart, start, load_eq]
    rfl
  have hload : m.Executes (.setByte 0 0xFF) := executes_loaded (p := p) (k := 0) rfl rfl rfl rfl rfl rfl
  have hloaded : (m.step env).machine = { m.setReg 0 0xFF with pc := 0x202, cycles := 1 } := by
    have hstore : m.advance.setRegister 0 0xFF = _ := setRegister_byte m.advance 0 0xFF
    rw [step_of_executes hload, execute, hstore]
    rfl
  have hjump : (m.step env).machine.Executes (.jumpOffset 0xFFF) := by
    rw [hloaded]
    exact executes_loaded (p := p) (k := 2) rfl rfl rfl rfl rfl rfl
  have hs : s = { m.setReg 0 0xFF with pc := 0x10FE, cycles := 2 } := by
    show run env _ [.step, .step] = _
    rw [hbuilt, run_cons, run_cons, run_nil, perform, perform, step_of_executes hjump, hloaded]
    rfl
  have hpc : s.pc = 0x10FE := by rw [hs]
  have hawait : s.awaiting = none := by rw [hs]; rfl
  have hhistory : ∀ a ∈ [Action.step, .step], a.FromOutside := by
    simp only [List.forall_mem_cons, List.not_mem_nil, false_implies, implies_true, and_true]
    exact ⟨.step, .step⟩
  have henv : env.sys = none := rfl
  obtain ⟨hle, -, -, hstops, -⟩ := control_in_reach henv .fresh .blank .fresh (some (.bytes p.bytes))
    [.step, .step] hhistory
  have hstop : s.step env = .fail s (.fault (.outOfRange s.pc)) := hstops (by rw [hpc]; decide) hawait
  rw [hpc] at hstop
  exact ⟨hpc, hle, hstop⟩

/-- A program that fills the memory and jumps to its last word, which waits for a key. The machine has then left
the memory, and its next step still succeeds. -/
theorem waits_outside_memory :
    let env : Environment := ⟨fun _ => 0, none⟩
    let bytes : List UInt8 := [0x1F, 0xFE] ++ List.replicate 3580 0 ++ [0xF0, 0x0A]
    let s := run env (build .fresh .blank .fresh (some (.bytes bytes))).machine [.step, .step]
    s.pc = 4096 ∧ (s.step env).failure = none := by
  intro env bytes s
  have hfront : ([0x1F, 0xFE] ++ List.replicate 3580 (0 : UInt8)).length = 3582 := by
    rw [List.length_append, List.length_replicate]
    rfl
  have hlength : bytes.length = 3584 := by
    rw [List.length_append, hfront]
    rfl
  obtain ⟨p, hp⟩ : ∃ p : Program, p.bytes = bytes := ⟨⟨bytes, Nat.le_of_eq hlength⟩, rfl⟩
  have hbuilt : (build .fresh .blank .fresh (some (.bytes bytes))).machine = (start (some p)).machine := by
    rw [← hp]
    exact congrArg Outcome.machine (build_fresh_eq_start (some p))
  have hfirst : p.bytes = 0x1F :: 0xFE :: (List.replicate 3580 0 ++ [0xF0, 0x0A]) := hp
  have hlast : p.bytes[3582]? = some 0xF0 ∧ p.bytes[3583]? = some 0x0A := by
    rw [hp, List.getElem?_append_right (Nat.le_of_eq hfront), List.getElem?_append_right (by rw [hfront]; decide),
      hfront]
    exact ⟨rfl, rfl⟩
  have hjump : (start (some p)).machine.Executes (.jump 0xFFE) := executes_start hfirst rfl
  have hjumped : ((start (some p)).machine.step env).machine =
      { fresh with memory := Memory.fresh.load p, program := some p, pc := 0xFFE, cycles := 1 } := by
    rw [step_of_executes hjump, start, load_eq]
    rfl
  have hwait : ((start (some p)).machine.step env).machine.Executes (.awaitKey 0) := by
    rw [hjumped]
    exact executes_loaded (p := p) (k := 3582) rfl rfl rfl hlast.1 hlast.2 rfl
  have hs : s = { ((start (some p)).machine.step env).machine with
      pc := 4096, keypad := Keypad.fresh.beginWait, awaiting := some 0, cycles := 2 } := by
    show run env _ [.step, .step] = _
    rw [hbuilt, run_cons, run_cons, run_nil, perform, perform, step_of_executes hwait, hjumped]
    rfl
  rw [hs]
  exact ⟨rfl, pollKey_succeeds rfl⟩

end Chip8.Machine
