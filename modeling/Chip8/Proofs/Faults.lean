import Chip8.Proofs.Invariant

/-!
# Steps that fail

Which steps fail, with what, and what they leave behind.

* `Obstacle` — what stands in the way of a step, told from the word at the address of the next instruction and
  the numbers of the machine.
* `step_failure_iff` — a step fails exactly with an obstacle, and never while the machine waits for a key. No
  other error can come out of a step.
* `step_atomic` — a step that fails changes nothing; if a routine of the host machine failed, what it did
  stays, but the machine stands at the instruction that asked for it.
-/

set_option autoImplicit false

namespace Chip8.Machine

variable {env : Environment} {m : Machine}

/-! ## Obstacles -/

/-- What stands in the way of the next step. -/
inductive Obstacle (m : Machine) : Fault → Prop where
  /-- The next instruction lies outside the memory. -/
  | outside (hpc : 4096 ≤ m.pc) : Obstacle m (.outOfRange m.pc)
  /-- The second byte of the next instruction lies outside the memory. -/
  | atEnd (hpc : m.pc = 4095) : Obstacle m (.outOfRange 4096)
  /-- The word is not in the opcode table. -/
  | unknown (hpc : m.pc < 4095) (ho : ¬ m.nextOpcode.Listed) :
      Obstacle m (.unknownInstruction m.nextWord)
  /-- 00EE with no call open. -/
  | emptyStack (hpc : m.pc < 4095) (ho : m.nextWord = 0x00EE) (hs : m.stack = []) :
      Obstacle m .stackUnderflow
  /-- 2nnn with sixteen calls open. -/
  | fullStack (hpc : m.pc < 4095) (ho : m.nextOpcode.op = 0x2) (hs : m.stack.length = 16) :
      Obstacle m (.stackOverflow m.nextOpcode.address.val)
  /-- Ex9E or ExA1 with a register that names no key. -/
  | noKey (hpc : m.pc < 4095) (ho : m.nextOpcode.op = 0xE)
      (hb : m.nextOpcode.byte = 0x9E ∨ m.nextOpcode.byte = 0xA1)
      (hx : 15 < (m.reg m.nextOpcode.x).toNat) :
      Obstacle m (.invalidKey (m.reg m.nextOpcode.x).toNat)
  /-- Dxyn with the first row outside the memory. -/
  | spriteStart (hpc : m.pc < 4095) (ho : m.nextOpcode.op = 0xD) (hn : 1 ≤ m.nextOpcode.n.val)
      (hi : 4096 ≤ m.index) : Obstacle m (.outOfRange m.index)
  /-- Dxyn with only later rows outside the memory. -/
  | spriteEnd (hpc : m.pc < 4095) (ho : m.nextOpcode.op = 0xD) (hn : 1 ≤ m.nextOpcode.n.val)
      (hi : m.index < 4096) (hl : 4096 ≤ m.index + m.nextOpcode.n.val - 1) :
      Obstacle m (.outOfRange (m.index + m.nextOpcode.n.val - 1 : Nat))
  /-- Fx33 with the last digit outside the memory. -/
  | digits (hpc : m.pc < 4095) (ho : m.nextOpcode.op = 0xF) (hb : m.nextOpcode.byte = 0x33)
      (hi : 4095 < m.index + 2) : Obstacle m (.outOfRange (m.index + 2 : Nat))
  /-- Fx55 with the last register outside the memory. -/
  | store (hpc : m.pc < 4095) (ho : m.nextOpcode.op = 0xF) (hb : m.nextOpcode.byte = 0x55)
      (hi : 4095 < m.index + m.nextOpcode.x.val) :
      Obstacle m (.outOfRange (m.index + m.nextOpcode.x.val : Nat))
  /-- Fx65 with the first register outside the memory. -/
  | loadStart (hpc : m.pc < 4095) (ho : m.nextOpcode.op = 0xF) (hb : m.nextOpcode.byte = 0x65)
      (hi : 4096 ≤ m.index) : Obstacle m (.outOfRange m.index)
  /-- Fx65 with only later registers outside the memory. -/
  | loadEnd (hpc : m.pc < 4095) (ho : m.nextOpcode.op = 0xF) (hb : m.nextOpcode.byte = 0x65)
      (hi : m.index < 4096) (hl : 4096 ≤ m.index + m.nextOpcode.x.val) :
      Obstacle m (.outOfRange (m.index + m.nextOpcode.x.val : Nat))

/-- The fault of an instruction stands in the way of the step that executes it. -/
theorem obstacle_of_faultOf {i : Instruction} {f : Fault} (hm : m.WellFormed) (h : m.Executes i)
    (hf : m.faultOf i = some f) : m.Obstacle f := by
  obtain ⟨-, hpc, hread⟩ := executes_iff.1 h
  have ho : i.opcode = m.nextOpcode := Instruction.opcode_of_ofOpcode? hread
  cases i with
  | ret =>
    obtain ⟨hs, hf⟩ := Option.ite_none_right_eq_some.1 hf
    cases hf
    refine .emptyStack hpc ?_ hs
    rw [← word_nextOpcode, ← ho]
    rfl
  | call a =>
    obtain ⟨hs, hf⟩ := Option.ite_none_left_eq_some.1 hf
    cases hf
    have hop : m.nextOpcode.op = 0x2 := by rw [← ho]; rfl
    rw [Instruction.ofOpcode?_of_call hop] at hread
    cases hread
    have hdepth := hm.depth_le
    exact .fullStack hpc hop (by unfold stackSize at hs; omega)
  | skipIfKey x =>
    obtain ⟨hx, hf⟩ := Option.ite_none_right_eq_some.1 hf
    cases hf
    obtain rfl : m.nextOpcode.x = x := by rw [← ho]; rfl
    exact .noKey hpc (by rw [← ho]; rfl) (.inl (by rw [← ho]; rfl)) hx
  | skipUnlessKey x =>
    obtain ⟨hx, hf⟩ := Option.ite_none_right_eq_some.1 hf
    cases hf
    obtain rfl : m.nextOpcode.x = x := by rw [← ho]; rfl
    exact .noKey hpc (by rw [← ho]; rfl) (.inr (by rw [← ho]; rfl)) hx
  | draw x y n =>
    have hop : m.nextOpcode.op = 0xD := by rw [← ho]; rfl
    rw [Instruction.ofOpcode?_of_draw hop] at hread
    cases hread
    obtain ⟨hn, ⟨hi, rfl⟩ | ⟨hi, hl, rfl⟩⟩ := Memory.sliceFault_eq_some hf
    · exact .spriteStart hpc hop hn hi
    · exact .spriteEnd hpc hop hn hi (by omega)
  | storeDecimal x =>
    obtain ⟨hi, hf⟩ := Option.ite_none_right_eq_some.1 hf
    cases hf
    exact .digits hpc (by rw [← ho]; rfl) (by rw [← ho]; rfl) hi
  | storeRegisters x =>
    obtain ⟨hi, hf⟩ := Option.ite_none_right_eq_some.1 hf
    cases hf
    obtain rfl : m.nextOpcode.x = x := by rw [← ho]; rfl
    exact .store hpc (by rw [← ho]; rfl) (by rw [← ho]; rfl) hi
  | loadRegisters x =>
    obtain rfl : m.nextOpcode.x = x := by rw [← ho]; rfl
    obtain ⟨-, ⟨hi, rfl⟩ | ⟨hi, hl, rfl⟩⟩ := Memory.sliceFault_eq_some hf
    · exact .loadStart hpc (by rw [← ho]; rfl) (by rw [← ho]; rfl) hi
    · exact .loadEnd hpc (by rw [← ho]; rfl) (by rw [← ho]; rfl) hi (by omega)
  | _ => cases hf

theorem failure_of_faultOf {i : Instruction} {f : Fault} (h : m.Executes i)
    (hf : m.faultOf i = some f) : (m.step env).failure = some (.fault f) := by
  rw [step_of_fault h hf]
  rfl

theorem failure_of_obstacle {f : Fault} (hawait : m.awaiting = none) (h : m.Obstacle f) :
    (m.step env).failure = some (.fault f) := by
  -- a word of the table that is in the way is read as its instruction, whose fault is the obstacle
  have reads : ∀ {i}, m.pc < 4095 → Instruction.ofOpcode? m.nextOpcode = some i → m.Executes i :=
    fun hpc hi => executes_iff.2 ⟨hawait, hpc, hi⟩
  cases h with
  | outside hpc => rw [step_of_outside hawait hpc]; rfl
  | atEnd hpc => rw [step_at_end hawait hpc]; rfl
  | unknown hpc ho =>
    rw [← Instruction.ofOpcode?_isSome_iff_listed, Option.not_isSome_iff_eq_none] at ho
    rw [step_of_unknown hawait hpc ho]
    rfl
  | emptyStack hpc ho hs =>
    rw [← word_nextOpcode] at ho
    exact failure_of_faultOf (reads hpc (Instruction.ofOpcode?_of_ret ho)) (if_pos hs)
  | fullStack hpc ho hs =>
    exact failure_of_faultOf (reads hpc (Instruction.ofOpcode?_of_call ho))
      (if_neg (by unfold stackSize; omega))
  | noKey hpc ho hb hx =>
    rcases hb with hb | hb
    · exact failure_of_faultOf (reads hpc (Instruction.ofOpcode?_of_skipIfKey ho hb)) (if_pos hx)
    · exact failure_of_faultOf (reads hpc (Instruction.ofOpcode?_of_skipUnlessKey ho hb)) (if_pos hx)
  | spriteStart hpc ho hn hi =>
    exact failure_of_faultOf (reads hpc (Instruction.ofOpcode?_of_draw ho))
      (Memory.sliceFault_of_outside hn hi)
  | spriteEnd hpc ho hn hi hl =>
    exact failure_of_faultOf (reads hpc (Instruction.ofOpcode?_of_draw ho))
      (Memory.sliceFault_of_end hi (by omega))
  | digits hpc ho hb hi =>
    exact failure_of_faultOf (reads hpc (Instruction.ofOpcode?_of_device ho hb)) (if_pos hi)
  | store hpc ho hb hi =>
    exact failure_of_faultOf (reads hpc (Instruction.ofOpcode?_of_device ho hb)) (if_pos hi)
  | loadStart hpc ho hb hi =>
    exact failure_of_faultOf (reads hpc (Instruction.ofOpcode?_of_device ho hb))
      (Memory.sliceFault_of_outside (by omega) hi)
  | loadEnd hpc ho hb hi hl =>
    exact failure_of_faultOf (reads hpc (Instruction.ofOpcode?_of_device ho hb))
      (Memory.sliceFault_of_end hi (by omega))

theorem pollKey_succeeds {x : Register} (hx : m.awaiting = some x) : m.pollKey.failure = none := by
  cases hp : m.keypad.presses with
  | nil => rw [pollKey_of_nil hx hp]; rfl
  | cons k ks => rw [pollKey_of_cons hx hp]; rfl

/-- A step that fails has an obstacle, its fault is the error, and nothing has changed. -/
theorem obstacle_of_failure {e : Error} (henv : env.sys = none) (hm : m.WellFormed)
    (h : (m.step env).failure = some e) :
    m.awaiting = none ∧ (m.step env).machine = m ∧ ∃ f, e = .fault f ∧ m.Obstacle f := by
  rcases m.step_cases with ⟨x, hx⟩ | ⟨hawait, hpc⟩ | ⟨hawait, hpc⟩ | ⟨hawait, hpc, ho⟩ | ⟨i, hi⟩
  · rw [step_of_awaiting hx, pollKey_succeeds hx] at h
    cases h
  · rw [step_of_outside hawait hpc] at h ⊢
    cases h
    exact ⟨hawait, rfl, _, rfl, .outside hpc⟩
  · rw [step_at_end hawait hpc] at h ⊢
    cases h
    exact ⟨hawait, rfl, _, rfl, .atEnd hpc⟩
  · rw [step_of_unknown hawait hpc ho] at h ⊢
    cases h
    rw [← Option.not_isSome_iff_eq_none, Instruction.ofOpcode?_isSome_iff_listed] at ho
    exact ⟨hawait, rfl, _, rfl, .unknown hpc ho⟩
  · cases hf : m.faultOf i with
    | none =>
      rw [step_of_no_fault henv hm.delay_lt hi hf] at h
      cases h
    | some f =>
      rw [step_of_fault hi hf] at h ⊢
      cases h
      exact ⟨hi.1, rfl, f, rfl, obstacle_of_faultOf hm hi hf⟩

/-- **Which steps fail, and with what.** A step of a well-formed machine fails with an error exactly if the
machine does not wait for a key and the error is a fault that stands in the way, whatever the random numbers
are. So values out of the range of a byte, sprites that are too tall and registers that do not exist never
come up. -/
theorem step_failure_iff (henv : env.sys = none) (hm : m.WellFormed) (e : Error) :
    (m.step env).failure = some e ↔ m.awaiting = none ∧ ∃ f, e = .fault f ∧ m.Obstacle f := by
  constructor
  · intro h
    obtain ⟨hawait, -, hobstacle⟩ := obstacle_of_failure henv hm h
    exact ⟨hawait, hobstacle⟩
  · rintro ⟨hawait, f, rfl, hf⟩
    exact failure_of_obstacle hawait hf

/-- A program that returns with no call open. -/
theorem step_failure_iff_ret :
    ((start (some ⟨[0x00, 0xEE], by decide⟩)).machine.step ⟨fun _ => 0, none⟩).failure =
      some (.fault .stackUnderflow) := by
  have hword := nextWord_start (p := ⟨[0x00, 0xEE], by decide⟩) rfl
  exact (step_failure_iff rfl (start_wellFormed _) _).2
    ⟨rfl, _, rfl, .emptyStack (by decide) hword rfl⟩

/-! ## What a failed step leaves -/

/-- A fault of a routine of the host machine ends the step. What the routine did stays, but for the address of
the next instruction; and the step does not count. -/
theorem step_of_routine_fault {routine : Address → Machine → Outcome} {a : Address} {f : Fault}
    (henv : env.sys = some routine) (h : m.Executes (.sys a))
    (hf : (routine a m.advance).failure = some (.fault f)) :
    (m.step env).failure = some (.fault f) ∧
      (m.step env).machine = { (routine a m.advance).machine with pc := m.pc } := by
  have hexecute : m.advance.execute env (.sys a) = (routine a m.advance).after (.calledSys a) := by
    simp only [execute, henv]
  have hfailure : ((routine a m.advance).after (.calledSys a)).failure = some (.fault f) := hf
  rw [step_of_executes h, hexecute, settle, hfailure]
  exact ⟨rfl, rfl⟩

/-- **A step that fails changes nothing.** Where a routine of the host machine fails, nothing that it did is
undone, but the machine stands at the instruction that asked for it and has not counted it. -/
theorem step_atomic (env : Environment) (m : Machine) :
    (env.sys = none → m.WellFormed → ∀ e, (m.step env).failure = some e →
      (m.step env).machine = m) ∧
    (∀ routine a f, env.sys = some routine → m.Executes (.sys a) →
      (routine a m.advance).failure = some (.fault f) →
      (m.step env).failure = some (.fault f) ∧
        (m.step env).machine = { (routine a m.advance).machine with pc := m.pc }) := by
  constructor
  · intro henv hm e h
    exact (obstacle_of_failure henv hm h).2.1
  · intro routine a f henv h hf
    exact step_of_routine_fault henv h hf

/-- A program that stores six registers too near to the end of the memory, and one whose call to the host
machine is answered by a routine that moves everything and gives up. -/
theorem step_atomic_store_sys :
    let m := { (start (some ⟨[0xF5, 0x55], by decide⟩)).machine with index := 4091 }
    let n := (start (some ⟨[0x01, 0x23], by decide⟩)).machine
    let routine := fun _ (n : Machine) =>
      Outcome.fail { n with pc := 7, index := 7, delay := 7 } (.fault (.routine "halt"))
    (m.step ⟨fun _ => 0, none⟩).machine = m ∧
      (n.step ⟨fun _ => 0, some routine⟩).machine = { n with index := 7, delay := 7 } := by
  intro m n routine
  have hm : m.WellFormed := (start_wellFormed _).pointAnywhere (by decide)
  have hstore : m.Executes (.storeRegisters 5) :=
    executes_start (p := ⟨[0xF5, 0x55], by decide⟩) rfl rfl
  have hsys : n.Executes (.sys 0x123) := executes_start (p := ⟨[0x01, 0x23], by decide⟩) rfl rfl
  constructor
  · exact (step_atomic _ m).1 rfl hm _ (failure_of_faultOf hstore rfl)
  · exact ((step_atomic _ n).2 routine 0x123 (.routine "halt") rfl hsys rfl).2

end Chip8.Machine
