import Chip8.Proofs.Footprint

/-!
# What a step changes within a part

A step that writes to the memory, draws or sets registers leaves most of the bytes, pixels and registers as they
are. Every instruction is given those that it may change.

* `StoresAt`, `DrawsAt`, `Writes` — the bytes, the pixels and the registers.
* `execute_byteAt`, `execute_lit`, `execute_reg` — no others change. `step_byteAt` — nor do bytes in a step.
* `step_of_wait`, `step_states` — what a look for a key changes, and that no step moves a key.
* `StaysWithin` — two states differ in nothing that an instruction does not change.
* `step_staysWithin` — a step that succeeds stays within its instruction, or within the wait for a key.
-/

set_option autoImplicit false

namespace Chip8

namespace Instruction

/-- An instruction may write to the memory at an address. -/
def StoresAt (m : Machine) : Instruction → Nat → Prop
  | .storeDecimal _, a => m.index ≤ a ∧ a ≤ m.index + 2
  | .storeRegisters x, a => m.index ≤ a ∧ a ≤ m.index + x.val
  | _, _ => False

/-- An instruction may turn a pixel over: any pixel, or one in the rectangle of a sprite. -/
def DrawsAt (m : Machine) : Instruction → Point → Prop
  | .clear, _ => True
  | .draw x y n, p =>
      ∃ dx < 8, ∃ dy < n.val, p = (Point.ofInt (m.reg x).toNat (m.reg y).toNat).offset dx dy
  | _, _ => False

/-- An instruction may write to a register. -/
def Writes : Instruction → Register → Prop
  | .setByte x _, r | .addByte x _, r | .random x _, r | .readDelay x, r => r = x
  | .arith .copy x _, r | .arith .or x _, r | .arith .and x _, r | .arith .xor x _, r => r = x
  | .arith _ x _, r => r = x ∨ r = Register.flag
  | .draw _ _ _, r => r = Register.flag
  | .loadRegisters x, r => r ≤ x
  | _, _ => False

/-- The random numbers that an instruction takes. -/
def takes : Instruction → Nat
  | .random _ _ => 1
  | _ => 0

/-- The parts that few instructions change, and those instructions. -/
theorem of_mem_changes (i : Instruction) :
    (Part.stack ∈ i.changes → i = .ret ∨ ∃ a, i = .call a) ∧
    (Part.delay ∈ i.changes → ∃ x, i = .setDelay x) ∧
    (Part.sound ∈ i.changes → ∃ x, i = .setSound x) ∧
    (Part.index ∈ i.changes → (∃ a, i = .setIndex a) ∨
      ∃ x, i = .addIndex x ∨ i = .pointDigit x ∨ i = .storeRegisters x ∨ i = .loadRegisters x) ∧
    ∀ p ∈ [Part.awaiting, .keypad], p ∈ i.changes → ∃ x, i = .awaitKey x := by
  cases i <;> simp [changes]

/-- Where an instruction stores is up to the index. -/
theorem storesAt_congr {m n : Machine} {i : Instruction} {a : Nat} (h : m.index = n.index) :
    i.StoresAt m a ↔ i.StoresAt n a := by
  cases i <;> simp only [StoresAt, h]

theorem storesAt_advance {m : Machine} {i : Instruction} {a : Nat} :
    i.StoresAt m.advance a ↔ i.StoresAt m a := storesAt_congr rfl

theorem drawsAt_advance {m : Machine} {i : Instruction} {p : Point} :
    i.DrawsAt m.advance p ↔ i.DrawsAt m p := by
  cases i <;> exact Iff.rfl

end Instruction

namespace Machine

variable {env : Environment} {m : Machine} {i : Instruction}

/-! ## Executing -/

theorem reg_setRegister_of_ne (m : Machine) {x r : Register} (v : Int) (h : r ≠ x) :
    (m.setRegister x v).machine.reg r = m.reg r := by
  unfold setRegister
  split
  · exact (m.reg_setReg x _ r).trans (if_neg h)
  · rfl

/-- **No other byte of the memory is changed.** -/
theorem execute_byteAt (hsys : ∀ t, i = .sys t → env.sys = none) (m : Machine) {a : Nat}
    (ha : ¬ i.StoresAt m a) : (m.execute env i).machine.memory.byteAt a = m.memory.byteAt a := by
  by_cases hchanges : Part.memory ∈ i.changes
  · cases i with
    | storeDecimal x =>
      have hlength : ((decimalDigits (m.reg x).toNat).map UInt8.ofNat).length = 3 := rfl
      rw [execute, storeDecimal_eq]
      split
      · rfl
      · rename_i hindex
        refine (Memory.byteAt_putAll _ _ _ (by omega) a).trans (if_neg ?_)
        rw [Instruction.StoresAt] at ha
        omega
    | storeRegisters x =>
      have hlength : (x.upTo.map m.reg).length = x.val + 1 := by simp
      rw [execute, storeRegisters_eq]
      split
      · rfl
      · rename_i hindex
        refine (Memory.byteAt_putAll _ _ _ (by omega) a).trans (if_neg ?_)
        rw [Instruction.StoresAt] at ha
        omega
    | _ => simp [Instruction.changes] at hchanges
  · have hmemory : (m.execute env i).machine.memory = m.memory := execute_same hsys m hchanges
    rw [hmemory]

/-- **No other pixel is changed.** -/
theorem execute_lit (hsys : ∀ t, i = .sys t → env.sys = none) (m : Machine) {p : Point}
    (hp : ¬ i.DrawsAt m p) : (m.execute env i).machine.screen.lit p = m.screen.lit p := by
  by_cases hchanges : Part.screen ∈ i.changes
  · cases i with
    | clear => exact absurd trivial hp
    | draw x y n =>
      rw [execute, drawSprite_eq]
      split
      · rfl
      · refine Screen.lit_draw_of_notMem fun hmem => hp ?_
        obtain ⟨dx, hdx, dy, hdy, heq⟩ := Sprite.exists_of_mem_cells hmem
        rw [Sprite.height, spriteAtIndex, Memory.length_block] at hdy
        exact ⟨dx, hdx, dy, hdy, heq⟩
    | _ => simp [Instruction.changes] at hchanges
  · have hscreen : (m.execute env i).machine.screen = m.screen := execute_same hsys m hchanges
    rw [hscreen]

/-- The arithmetic writes to its first register, and some of it to the flag. -/
theorem combine_reg (m : Machine) {op : Arith} {x y r : Register}
    (hr : ¬ (Instruction.arith op x y).Writes r) : (m.combine op x y).machine.reg r = m.reg r := by
  have hx : r ≠ x := by
    rintro rfl
    apply hr
    cases op <;> simp [Instruction.Writes]
  rw [combine_eq]
  refine (reg_setReg _ x _ r).trans ((if_neg hx).trans ?_)
  cases hflag : op.flag? (m.reg x).toNat (m.reg y).toNat with
  | none => rfl
  | some f =>
    have hf : r ≠ Register.flag := by
      rintro rfl
      apply hr
      cases op <;> simp_all [Instruction.Writes, Arith.flag?]
    exact (reg_setReg _ _ _ r).trans (if_neg hf)

/-- **No other register is changed.** -/
theorem execute_reg (hsys : ∀ t, i = .sys t → env.sys = none) (m : Machine) {r : Register}
    (hr : ¬ i.Writes r) : (m.execute env i).machine.reg r = m.reg r := by
  by_cases hchanges : Part.registers ∈ i.changes
  · cases i with
    | setByte x b | addByte x b | readDelay x => exact m.reg_setRegister_of_ne _ hr
    | random x b => exact reg_setRegister_of_ne { m with randomTaken := m.randomTaken + 1 } _ hr
    | arith op x y => exact m.combine_reg hr
    | draw x y n =>
      rw [execute, drawSprite_eq]
      split
      · rfl
      · exact (reg_setReg _ _ _ r).trans (if_neg hr)
    | loadRegisters x =>
      rw [execute, loadRegisters_eq]
      split
      · rfl
      · refine m.reg_setRegs_of_notMem _ fun p hp => ?_
        rintro rfl
        exact hr (Register.le_of_mem_upTo (List.of_mem_zip hp).1)
    | _ => simp [Instruction.changes] at hchanges
  · have hregisters : (m.execute env i).machine.registers = m.registers := execute_same hsys m hchanges
    rw [reg, hregisters]
    rfl

/-- No instruction moves a key. -/
theorem execute_states (henv : env.sys = none) (m : Machine) :
    (m.execute env i).machine.keypad.states = m.keypad.states := by
  by_cases hchanges : Part.keypad ∈ i.changes
  · cases i with
    | awaitKey x => rfl
    | _ => simp [Instruction.changes] at hchanges
  · have hkeypad : (m.execute env i).machine.keypad = m.keypad := execute_same (fun _ _ => henv) m hchanges
    rw [hkeypad]

/-- An instruction takes its random number whether it succeeds or not. -/
theorem execute_randomTaken (henv : env.sys = none) (m : Machine) :
    (m.execute env i).machine.randomTaken = m.randomTaken + i.takes := by
  by_cases hchanges : Part.randomTaken ∈ i.changes
  · cases i with
    | random x b =>
      obtain ⟨rs, hrs⟩ := setRegister_frame { m with randomTaken := m.randomTaken + 1 } x
        (mask (env.random m.randomTaken) b)
      rw [execute, hrs]
      rfl
    | _ => simp [Instruction.changes] at hchanges
  · have htakes : i.takes = 0 := by
      cases i <;> simp_all [Instruction.changes, Instruction.takes]
    have hrandom : (m.execute env i).machine.randomTaken = m.randomTaken :=
      execute_same (fun _ _ => henv) m hchanges
    rw [hrandom, htakes, Nat.add_zero]

/-! ## Steps -/

/-- Besides what it counts, a step makes of the machine what its instruction does. -/
theorem step_same_execute (h : m.Executes i) {p : Part} (hp : p ∉ [Part.pc, .cycles]) :
    p.Same (m.step env).machine (m.advance.execute env i).machine := by
  rw [step_of_executes h]
  exact settle_same hp m.pc _

theorem step_memory (h : m.Executes i) :
    (m.step env).machine.memory = (m.advance.execute env i).machine.memory :=
  step_same_execute (p := .memory) h (by simp)

/-- A byte that the instruction does not write stays through the step. -/
theorem step_byteAt (henv : env.sys = none) (h : m.Executes i) {a : Nat} (ha : ¬ i.StoresAt m a) :
    (m.step env).machine.memory.byteAt a = m.memory.byteAt a := by
  rw [step_memory h]
  apply execute_byteAt (fun _ _ => henv) m.advance
  exact mt Instruction.storesAt_advance.1 ha

/-- A step of a machine that waits changes at most the register and what belongs to the wait. -/
theorem step_of_wait {x : Register} (hx : m.awaiting = some x) :
    ∃ b awaiting waiting presses, (m.step env).machine =
      { m.setReg x b with
        awaiting := awaiting
        keypad := { m.keypad with waiting := waiting, presses := presses } } := by
  rw [step_of_awaiting hx]
  cases hpresses : m.keypad.presses with
  | nil =>
    refine ⟨m.reg x, m.awaiting, m.keypad.waiting, m.keypad.presses, ?_⟩
    rw [pollKey_of_nil hx hpresses, setReg, reg]
    simp [Outcome.done]
  | cons k ks =>
    rw [pollKey_of_cons hx hpresses]
    exact ⟨_, _, _, _, rfl⟩

/-- No step moves a key. -/
theorem step_states (henv : env.sys = none) (m : Machine) :
    (m.step env).machine.keypad.states = m.keypad.states := by
  rcases m.step_cases with ⟨x, hx⟩ | ⟨hawait, hpc⟩ | ⟨hawait, hpc⟩ | ⟨hawait, hpc, ho⟩ | ⟨i, hi⟩
  · obtain ⟨b, awaiting, waiting, presses, heq⟩ : ∃ b awaiting waiting presses, (m.step env).machine = _ :=
      step_of_wait hx
    rw [heq]
  · rw [step_of_outside hawait hpc]; rfl
  · rw [step_at_end hawait hpc]; rfl
  · rw [step_of_unknown hawait hpc ho]; rfl
  · have hkeypad : (m.step env).machine.keypad = (m.advance.execute env i).machine.keypad :=
      step_same_execute (p := .keypad) hi (by decide)
    rw [hkeypad]
    exact execute_states henv m.advance

/-- What a step that succeeds may change when it executes an instruction, and what it surely changes. -/
structure StaysWithin (m : Machine) (i : Instruction) (n : Machine) : Prop where
  memory : ∀ a, n.memory.byteAt a ≠ m.memory.byteAt a → i.StoresAt m a
  screen : ∀ p, n.screen.lit p ≠ m.screen.lit p → i.DrawsAt m p
  registers : ∀ r, n.reg r ≠ m.reg r → i.Writes r
  stack : n.stack ≠ m.stack → i = .ret ∨ ∃ a, i = .call a
  delay : n.delay ≠ m.delay → ∃ x, i = .setDelay x
  sound : n.sound ≠ m.sound → ∃ x, i = .setSound x
  index : n.index ≠ m.index → (∃ a, i = .setIndex a) ∨
    ∃ x, i = .addIndex x ∨ i = .pointDigit x ∨ i = .storeRegisters x ∨ i = .loadRegisters x
  awaiting : n.awaiting ≠ m.awaiting → ∃ x, i = .awaitKey x
  keypad : n.keypad ≠ m.keypad → ∃ x, i = .awaitKey x
  keys : n.keypad.states = m.keypad.states
  random : n.randomTaken = m.randomTaken + i.takes
  program : n.program = m.program
  cycles : n.cycles = m.cycles + 1

/-- A part that a step changes is one that its instruction changes. -/
theorem mem_changes_of_step (henv : env.sys = none) (h : m.Executes i) {p : Part}
    (hstep : p ∉ [Part.pc, .cycles]) (hchanged : ¬ p.Same (m.step env).machine m) : p ∈ i.changes := by
  refine Decidable.byContradiction fun hp => hchanged ?_
  exact step_same_of_executes h (fun _ _ => henv) hstep hp

theorem staysWithin_of_executes (henv : env.sys = none) (h : m.Executes i)
    (hsuccess : (m.step env).failure = none) : StaysWithin m i (m.step env).machine := by
  have hsys : ∀ t, i = .sys t → env.sys = none := fun _ _ => henv
  have hchanges : ∀ p : Part, p ∉ [Part.pc, .cycles] → ¬ p.Same (m.step env).machine m → p ∈ i.changes :=
    fun p hp => mem_changes_of_step henv h hp
  obtain ⟨hstack, hdelay, hsound, hindex, hwait⟩ := i.of_mem_changes
  constructor
  case memory =>
    intro a ha
    exact Classical.byContradiction fun hstores => ha (step_byteAt henv h hstores)
  case screen =>
    have hscreen : (m.step env).machine.screen = (m.advance.execute env i).machine.screen :=
      step_same_execute (p := .screen) h (by decide)
    intro p hp
    refine Classical.byContradiction fun hdraws => hp ?_
    rw [hscreen]
    exact execute_lit hsys m.advance (mt Instruction.drawsAt_advance.1 hdraws)
  case registers =>
    have hregisters : (m.step env).machine.registers = (m.advance.execute env i).machine.registers :=
      step_same_execute (p := .registers) h (by decide)
    intro r hr
    refine Classical.byContradiction fun hwrites => hr ?_
    rw [reg, hregisters]
    exact execute_reg hsys m.advance hwrites
  case stack => exact fun hne => hstack (hchanges .stack (by decide) hne)
  case delay => exact fun hne => hdelay (hchanges .delay (by decide) hne)
  case sound => exact fun hne => hsound (hchanges .sound (by decide) hne)
  case index => exact fun hne => hindex (hchanges .index (by decide) hne)
  case awaiting => exact fun hne => hwait .awaiting (by decide) (hchanges .awaiting (by decide) hne)
  case keypad => exact fun hne => hwait .keypad (by decide) (hchanges .keypad (by decide) hne)
  case keys => exact step_states henv m
  case random =>
    have hrandom : (m.step env).machine.randomTaken = (m.advance.execute env i).machine.randomTaken :=
      step_same_execute (p := .randomTaken) h (by decide)
    rw [hrandom]
    exact execute_randomTaken henv m.advance
  case program => exact step_same_of_executes (p := .program) h hsys (by decide) i.program_notMem_changes
  case cycles => rw [step_cycles henv, if_pos ⟨h.1, hsuccess⟩]

/-- A step that succeeds without a wait executes an instruction. -/
theorem exists_executes (hawait : m.awaiting = none) (hsuccess : (m.step env).failure = none) :
    ∃ i, m.Executes i := by
  rcases m.step_cases with ⟨x, hx⟩ | ⟨-, hpc⟩ | ⟨-, hpc⟩ | ⟨-, hpc, ho⟩ | hi
  · exact absurd (hawait.symm.trans hx) (by simp)
  · rw [step_of_outside hawait hpc] at hsuccess; cases hsuccess
  · rw [step_at_end hawait hpc] at hsuccess; cases hsuccess
  · rw [step_of_unknown hawait hpc ho] at hsuccess; cases hsuccess
  · exact hi

/-- **The footprint of a step.** A step that succeeds without a wait executes the instruction whose word was
fetched, and stays within it. A step of a machine that waits for a key changes at most the register that waits, the
mark of the wait, and whether the keypad listens and what it has recorded. -/
theorem step_footprint (henv : env.sys = none) (m : Machine) :
    (m.awaiting = none → (m.step env).failure = none →
      ∃ i, m.Executes i ∧ m.fetch = .ok i.encode ∧ StaysWithin m i (m.step env).machine) ∧
    ∀ x, m.awaiting = some x →
      ∃ b awaiting waiting presses, (m.step env).machine =
        { m.setReg x b with
          awaiting := awaiting
          keypad := { m.keypad with waiting := waiting, presses := presses } } := by
  constructor
  · intro hawait hsuccess
    obtain ⟨i, hi⟩ := exists_executes hawait hsuccess
    exact ⟨i, hi, fetch_of_executes hi, staysWithin_of_executes henv hi hsuccess⟩
  · exact fun x hx => step_of_wait hx

/-- Two registers are stored, and the byte behind them stays. -/
theorem step_footprint_store :
    let env : Environment := ⟨fun _ => 0, none⟩
    let m := { (start (some ⟨[0xF1, 0x55], by decide⟩)).machine with index := 0x300 }
    (m.step env).failure = none ∧
      (m.step env).machine.memory.byteAt 0x302 = m.memory.byteAt 0x302 := by
  rw [start, load_eq]
  intro env m
  have hexecutes : m.Executes (.storeRegisters 1) := executes_loaded (k := 0) rfl rfl rfl rfl rfl rfl
  have hdelay : m.delay < 256 := by decide
  have hsuccess : (m.step env).failure = none := by
    rw [step_of_no_fault rfl hdelay hexecutes rfl]
  obtain ⟨i, hi, -, hwithin⟩ := (@step_footprint env rfl m).1 rfl hsuccess
  obtain rfl := executes_unique hi hexecutes
  refine ⟨hsuccess, Classical.byContradiction fun hbyte => ?_⟩
  exact absurd (hwithin.memory 0x302 hbyte).2 (by decide)

end Machine

end Chip8
