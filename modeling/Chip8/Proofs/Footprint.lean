import Chip8.Machine.Action
import Chip8.Proofs.Step

/-!
# What operations leave alone

The state of the machine has thirteen parts. Every instruction and every action of a host is given the parts
that it may change, and leaves all others as they are, whether it succeeds or fails.

* `Part`, `Part.Same` — the parts, and what it means that two states have one in common. `eq_of_same` — there are
  no others.
* `Instruction.changes`, `Action.changes` — what may change.
* `execute_same`, `pollKey_same`, `step_same`, `perform_same` — nothing else does.
* `step_cycles` — which steps the machine counts.
* `perform_same_of_asks` — what becomes of a call to the host machine is up to its routine.
-/

set_option autoImplicit false

namespace Chip8

/-- A part of the machine's state. -/
inductive Part where
  | memory
  | screen
  | keypad
  | registers
  | index
  | pc
  | delay
  | sound
  | stack
  | awaiting
  | program
  | cycles
  | randomTaken
  deriving DecidableEq, Repr

/-- Two states have a part in common. -/
def Part.Same (m n : Machine) : Part → Prop
  | .memory => m.memory = n.memory
  | .screen => m.screen = n.screen
  | .keypad => m.keypad = n.keypad
  | .registers => m.registers = n.registers
  | .index => m.index = n.index
  | .pc => m.pc = n.pc
  | .delay => m.delay = n.delay
  | .sound => m.sound = n.sound
  | .stack => m.stack = n.stack
  | .awaiting => m.awaiting = n.awaiting
  | .program => m.program = n.program
  | .cycles => m.cycles = n.cycles
  | .randomTaken => m.randomTaken = n.randomTaken

theorem Part.Same.refl (m : Machine) (p : Part) : p.Same m m := by
  cases p <;> rfl

theorem Part.Same.symm {p : Part} {m n : Machine} (h : p.Same m n) : p.Same n m := by
  cases p <;> exact Eq.symm h

theorem Part.Same.trans {p : Part} {l m n : Machine} (h : p.Same l m) (h' : p.Same m n) : p.Same l n := by
  cases p <;> exact Eq.trans h h'

/-- States that have all parts in common are the same. -/
theorem Machine.eq_of_same {m n : Machine} (h : ∀ p : Part, p.Same m n) : m = n := by
  obtain ⟨_, _, _, _, _, _, _, _, _, _, _, _, _⟩ := m
  obtain ⟨_, _, _, _, _, _, _, _, _, _, _, _, _⟩ := n
  simp only [Machine.mk.injEq]
  exact ⟨h .memory, h .screen, h .keypad, h .registers, h .index, h .pc, h .delay, h .sound, h .stack,
    h .awaiting, h .program, h .cycles, h .randomTaken⟩

/-- The parts that an instruction may change. -/
def Instruction.changes : Instruction → List Part
  | .sys _ => []
  | .clear => [.screen]
  | .ret | .call _ => [.pc, .stack]
  | .jump _ | .jumpOffset _ => [.pc]
  | .skipIfByte _ _ | .skipUnlessByte _ _ | .skipIfEqual _ _ | .skipUnlessEqual _ _
  | .skipIfKey _ | .skipUnlessKey _ => [.pc]
  | .setByte _ _ | .addByte _ _ | .arith _ _ _ | .readDelay _ => [.registers]
  | .random _ _ => [.registers, .randomTaken]
  | .draw _ _ _ => [.screen, .registers]
  | .awaitKey _ => [.keypad, .awaiting]
  | .setDelay _ => [.delay]
  | .setSound _ => [.sound]
  | .setIndex _ | .addIndex _ | .pointDigit _ => [.index]
  | .storeDecimal _ => [.memory]
  | .storeRegisters _ => [.memory, .index]
  | .loadRegisters _ => [.registers, .index]

theorem Instruction.program_notMem_changes (i : Instruction) : Part.program ∉ i.changes := by
  cases i <;> simp [Instruction.changes]

/-- The parts that an action may change. The instruction that a step executes may change any part but the
program. -/
def Action.changes : Action → List Part
  | .step => [.memory, .screen, .keypad, .registers, .index, .pc, .delay, .sound, .stack, .awaiting,
      .cycles, .randomTaken]
  | .execute i => i.changes
  | .tick => [.delay, .sound]
  | .pollKey => [.registers, .keypad, .awaiting]
  | .skipIf _ | .setPc _ => [.pc]
  | .reset => [.memory, .screen, .keypad, .registers, .index, .pc, .delay, .sound, .stack, .awaiting,
      .cycles]
  | .load _ => [.memory, .program]
  | .setRegister _ _ => [.registers]
  | .setIndex _ => [.index]
  | .write _ _ | .loadMemory _ | .loadFont | .clearMemory => [.memory]
  | .draw _ _ | .clearScreen => [.screen]
  | .move _ _ => [.keypad]

namespace Machine

/-- What an action asks of the routine of the host machine: the address that is called, and the state in which
it is called. -/
inductive Asks (m : Machine) : Action → Address → Machine → Prop where
  | execute (t : Address) : Asks m (.execute (.sys t)) t m
  | step {t : Address} (h : m.Executes (.sys t)) : Asks m .step t m.advance

variable {env : Environment} {p : Part}

/-! ## Changes of one part -/

theorem same_registers (hp : p ∉ [Part.registers]) (m : Machine) (rs : Vector UInt8 16) :
    p.Same { m with registers := rs } m := by
  cases p with
  | registers => exact absurd List.mem_cons_self hp
  | _ => rfl

theorem same_memory (hp : p ∉ [Part.memory]) (m : Machine) (memory : Memory) :
    p.Same { m with memory := memory } m := by
  cases p with
  | memory => exact absurd List.mem_cons_self hp
  | _ => rfl

theorem setRegister_same (hp : p ∉ [Part.registers]) (m : Machine) (x : Register) (v : Int) :
    p.Same (m.setRegister x v).machine m := by
  obtain ⟨rs, hrs⟩ := m.setRegister_frame x v
  rw [hrs]
  exact same_registers hp m rs

theorem skipIf_same (hp : p ∉ [Part.pc]) (m : Machine) (c : Bool) : p.Same (m.skipIf c) m := by
  cases c with
  | false => exact .refl m p
  | true =>
    cases p with
    | pc => exact absurd List.mem_cons_self hp
    | _ => rfl

theorem advance_same (hp : p ∉ [Part.pc]) (m : Machine) : p.Same m.advance m := skipIf_same hp m true

/-! ## Instructions and steps -/

/-- **An instruction leaves all other parts alone.** -/
theorem execute_same {i : Instruction} (hsys : ∀ a, i = .sys a → env.sys = none) (m : Machine)
    (hp : p ∉ i.changes) : p.Same (m.execute env i).machine m := by
  cases i with
  | sys a => simp only [execute, hsys a rfl]; exact .refl m p
  | ret | call =>
    simp only [execute]
    split <;> cases p <;> first | rfl | exact absurd (by simp [Instruction.changes]) hp
  | skipIfByte | skipUnlessByte | skipIfEqual | skipUnlessEqual => exact skipIf_same hp m _
  | skipIfKey x | skipUnlessKey x =>
    simp only [execute, skipByKey]
    split
    · exact skipIf_same hp m _
    · exact .refl m p
  | setByte | addByte | readDelay => exact setRegister_same hp m _ _
  | arith op x y =>
    rw [execute, combine_eq]
    cases op.flag? (m.reg x).toNat (m.reg y).toNat <;> exact same_registers hp m _
  | random x b =>
    obtain ⟨rs, hrs⟩ := { m with randomTaken := m.randomTaken + 1 }.setRegister_frame x
      (mask (env.random m.randomTaken) b)
    rw [execute, hrs]
    cases p <;> first | rfl | exact absurd (by simp [Instruction.changes]) hp
  | draw x y n =>
    rw [execute, drawSprite_eq]
    split
    · exact .refl m p
    · cases p <;> first | rfl | exact absurd (by simp [Instruction.changes]) hp
  | storeDecimal x =>
    rw [execute, storeDecimal_eq]
    split
    · exact .refl m p
    · exact same_memory hp m _
  | storeRegisters x =>
    rw [execute, storeRegisters_eq]
    split
    · exact .refl m p
    · cases p <;> first | rfl | exact absurd (by simp [Instruction.changes]) hp
  | loadRegisters x =>
    obtain ⟨rs, hrs⟩ := m.setRegs_frame (x.upTo.zip (m.memory.block m.index (x.val + 1)))
    rw [execute, loadRegisters_eq, hrs]
    split
    · exact .refl m p
    · cases p <;> first | rfl | exact absurd (by simp [Instruction.changes]) hp
  | clear | jump | jumpOffset | awaitKey | setDelay | setSound | setIndex | addIndex | pointDigit =>
    cases p <;> first | rfl | exact absurd (by simp [Instruction.changes]) hp

theorem pollKey_same (hp : p ∉ [Part.registers, .keypad, .awaiting]) (m : Machine) :
    p.Same m.pollKey.machine m := by
  cases hx : m.awaiting with
  | none => simp only [pollKey, hx]; exact .refl m p
  | some x =>
    cases hpresses : m.keypad.presses with
    | nil => rw [pollKey_of_nil hx hpresses]; exact .refl m p
    | cons k ks =>
      rw [pollKey_of_cons hx hpresses]
      cases p <;> first | rfl | exact absurd (by simp) hp

theorem settle_same (hp : p ∉ [Part.pc, .cycles]) (pc : Nat) (o : Outcome) :
    p.Same (settle pc o).machine o.machine := by
  unfold settle
  split <;> cases p <;> first | rfl | exact absurd (by simp) hp

/-- The step of an instruction moves on and counts, and changes nothing else that the instruction does not. -/
theorem step_same_of_executes {m : Machine} {i : Instruction} (h : m.Executes i)
    (hsys : ∀ a, i = .sys a → env.sys = none) (hstep : p ∉ [Part.pc, .cycles]) (hp : p ∉ i.changes) :
    p.Same (m.step env).machine m := by
  have hpc : p ∉ [Part.pc] := fun h => hstep (List.mem_append_left [Part.cycles] h)
  rw [step_of_executes h]
  exact ((settle_same hstep _ _).trans (execute_same hsys m.advance hp)).trans (advance_same hpc m)

/-- A step that does not execute an instruction changes at most what a look for a key does, if it is one. -/
theorem step_same_of_idle {m : Machine} (h : ∀ i, ¬ m.Executes i)
    (hpoll : m.awaiting = none ∨ p ∉ [Part.registers, .keypad, .awaiting]) :
    p.Same (m.step env).machine m := by
  rcases m.step_cases with ⟨x, hx⟩ | ⟨hawait, hpc⟩ | ⟨hawait, hpc⟩ | ⟨hawait, hpc, ho⟩ | ⟨i, hi⟩
  · rw [step_of_awaiting hx]; exact pollKey_same (hpoll.resolve_left (by simp [hx])) m
  · rw [step_of_outside hawait hpc]; exact .refl m p
  · rw [step_at_end hawait hpc]; exact .refl m p
  · rw [step_of_unknown hawait hpc ho]; exact .refl m p
  · exact absurd hi (h i)

/-- **A step leaves the parts alone that its instruction does**, and those that a look for a key does if it may be
one. -/
theorem step_same {m : Machine} (henv : env.sys = none) (hstep : p ∉ [Part.pc, .cycles])
    (hpoll : m.awaiting = none ∨ p ∉ [Part.registers, .keypad, .awaiting])
    (hp : ∀ i, m.Executes i → p ∉ i.changes) : p.Same (m.step env).machine m := by
  by_cases h : ∃ i, m.Executes i
  · obtain ⟨i, hi⟩ := h
    exact step_same_of_executes hi (fun _ _ => henv) hstep (hp i hi)
  · exact step_same_of_idle (fun i hi => h ⟨i, hi⟩) hpoll

/-- A step counts if it executes an instruction and succeeds. -/
theorem step_cycles (henv : env.sys = none) (m : Machine) :
    (m.step env).machine.cycles =
      m.cycles + if m.awaiting = none ∧ (m.step env).failure = none then 1 else 0 := by
  rcases m.step_cases with ⟨x, hx⟩ | ⟨hawait, hpc⟩ | ⟨hawait, hpc⟩ | ⟨hawait, hpc, ho⟩ | ⟨i, hi⟩
  · have hpoll : m.pollKey.machine.cycles = m.cycles := pollKey_same (p := .cycles) (by decide) m
    rw [if_neg (by simp [hx]), step_of_awaiting hx, hpoll, Nat.add_zero]
  · rw [step_of_outside hawait hpc, if_neg (by simp [Outcome.fail])]; rfl
  · rw [step_at_end hawait hpc, if_neg (by simp [Outcome.fail])]; rfl
  · rw [step_of_unknown hawait hpc ho, if_neg (by simp [Outcome.fail])]; rfl
  · have hexecute : (m.advance.execute env i).machine.cycles = m.cycles :=
      execute_same (p := .cycles) (fun _ _ => henv) m.advance (by cases i <;> simp [Instruction.changes])
    have hsettle := cycles_settle m.pc (m.advance.execute env i)
    rw [hexecute] at hsettle
    rw [failure_step hi, step_of_executes hi]
    simp only [hi.1, true_and]
    exact hsettle

/-! ## Actions -/

theorem loadFrom_same (hp : p ∉ [Part.memory, .program]) (m : Machine) (source : Program.Source) :
    p.Same (m.loadFrom source).machine m := by
  rw [loadFrom_eq]
  split <;> cases p <;> first | rfl | exact absurd (by simp) hp

/-- **An action leaves all other parts alone**, unless it asks something of a routine of the host machine. -/
theorem perform_same {m : Machine} {a : Action} (hasks : ∀ t s, m.Asks a t s → env.sys = none)
    (hp : p ∉ a.changes) : p.Same (m.perform env a).machine m := by
  cases a with
  | step =>
    obtain rfl : p = .program := by cases p <;> simp [Action.changes] at hp ⊢
    by_cases h : ∃ i, m.Executes i
    · obtain ⟨i, hi⟩ := h
      refine step_same_of_executes hi ?_ (by decide) ?_
      · rintro t rfl
        exact hasks t _ (.step hi)
      · exact i.program_notMem_changes
    · exact step_same_of_idle (fun i hi => h ⟨i, hi⟩) (.inr (by decide))
  | execute i =>
    refine execute_same ?_ m hp
    rintro t rfl
    exact hasks t m (.execute t)
  | pollKey => exact pollKey_same hp m
  | skipIf c => exact skipIf_same hp m c
  | load source => exact loadFrom_same hp m source
  | setRegister x v => exact setRegister_same hp m x v
  | write a v =>
    obtain ⟨memory, hm⟩ := m.writeByte_frame a v
    rw [perform, hm]
    exact same_memory hp m memory
  | loadMemory source =>
    rw [perform, loadMemory]
    split
    · exact same_memory hp m _
    · exact .refl m p
  | loadFont | clearMemory => exact same_memory hp m _
  | draw rows origin =>
    rw [perform, drawRows]
    split <;> cases p <;> first | rfl | exact absurd (by simp [Action.changes]) hp
  | move key s =>
    rw [perform, moveKey]
    split <;> cases p <;> first | rfl | exact absurd (by simp [Action.changes]) hp
  | tick | reset | setIndex | setPc | clearScreen =>
    cases p <;> first | rfl | exact absurd (by simp [Action.changes]) hp

/-- The routine is asked before the action has done anything but move on. -/
theorem asks_same {m s : Machine} {a : Action} {t : Address} (h : m.Asks a t s) (hp : p ∉ [Part.pc]) :
    p.Same s m := by
  cases h with
  | execute => exact .refl m p
  | step => exact advance_same hp m

/-- **An action that asks a routine leaves what the routine left**, apart from the address and the count of the
step. -/
theorem perform_same_of_asks {m s : Machine} {a : Action} {t : Address}
    {routine : Address → Machine → Outcome} (h : m.Asks a t s) (hsys : env.sys = some routine)
    (hp : p ∉ [Part.pc, .cycles]) : p.Same (m.perform env a).machine (routine t s).machine := by
  cases h with
  | execute => simp only [perform, execute, hsys]; exact .refl _ p
  | step h =>
    have hsettled := settle_same hp m.pc ((routine t m.advance).after (.calledSys t))
    simp only [perform, step_of_executes h, execute, hsys]
    exact hsettled

end Machine

end Chip8
