import Chip8.Proofs.Footprint

/-!
# What instructions look at

Every instruction is given the parts of the state that its effect depends on, and the bytes of the memory. What the
rest holds makes no difference: it neither fails otherwise nor tells nor does anything else. The same is true of a
step, which also depends on the word that it fetches and on whether it is to look for a key instead.

* `Instruction.reads`, `Instruction.LoadsAt` — the parts and the bytes that count.
* `AgreeOff`, `Alike` — two states agree apart from some parts; two outcomes differ in what the states before them
  differ in.
* `execute_alike_of_loads`, `execute_alike` — what an instruction does not look at makes no difference to it.
* `execute_agree` — states that agree apart from parts that an instruction does not look at, still do so after it.
* `step_alike_of_execute`, `step_alike` — what a step does not look at makes no difference to it.
* `step_apart` — and what it neither looks at nor changes stays aside.
-/

set_option autoImplicit false

namespace Chip8

namespace Instruction

/-- The parts on which the effect of an instruction depends. One that writes some of the registers, pixels or
bytes depends on the others as well. -/
def reads : Instruction → List Part
  | .sys _ | .clear | .jump _ | .setIndex _ => []
  | .ret => [.stack]
  | .call _ => [.pc, .stack]
  | .skipIfByte _ _ | .skipUnlessByte _ _ | .skipIfEqual _ _ | .skipUnlessEqual _ _ => [.registers, .pc]
  | .skipIfKey _ | .skipUnlessKey _ => [.registers, .keypad, .pc]
  | .setByte _ _ | .addByte _ _ | .arith _ _ _ | .jumpOffset _ | .setDelay _ | .setSound _ | .pointDigit _ =>
      [.registers]
  | .random _ _ => [.registers, .randomTaken]
  | .draw _ _ _ => [.memory, .screen, .registers, .index]
  | .readDelay _ => [.registers, .delay]
  | .awaitKey _ => [.keypad]
  | .addIndex _ => [.registers, .index]
  | .storeDecimal _ | .storeRegisters _ | .loadRegisters _ => [.memory, .registers, .index]

/-- An instruction looks at the byte of the memory at an address. -/
def LoadsAt (m : Machine) : Instruction → Nat → Prop
  | .draw _ _ n, a => m.index ≤ a ∧ a < m.index + n.val
  | .loadRegisters x, a => m.index ≤ a ∧ a ≤ m.index + x.val
  | _, _ => False

theorem memory_mem_reads_of_loadsAt {m : Machine} {i : Instruction} {a : Nat} (h : i.LoadsAt m a) :
    Part.memory ∈ i.reads := by
  cases i <;> simp_all [LoadsAt, reads]

theorem loadsAt_advance {m : Machine} {i : Instruction} {a : Nat} : i.LoadsAt m.advance a ↔ i.LoadsAt m a := by
  cases i <;> exact Iff.rfl

end Instruction

namespace Machine

/-- Two states agree apart from some parts. -/
def AgreeOff (parts : List Part) (m n : Machine) : Prop := ∀ p, p ∉ parts → p.Same m n

variable {env : Environment} {m n : Machine} {parts : List Part}

namespace AgreeOff

theorem symm (h : AgreeOff parts m n) : AgreeOff parts n m := fun p hp => (h p hp).symm

theorem trans {l : Machine} (h : AgreeOff parts l m) (h' : AgreeOff parts m n) : AgreeOff parts l n :=
  fun p hp => (h p hp).trans (h' p hp)

/-- States that also agree in these parts are the same. -/
theorem eq (h : AgreeOff parts m n) (hparts : ∀ p ∈ parts, p.Same m n) : m = n := by
  apply eq_of_same
  intro p
  by_cases hp : p ∈ parts
  · exact hparts p hp
  · exact h p hp

end AgreeOff

/-- Two outcomes end alike and tell the same, and the parts that two states have in common they have in common. -/
structure Alike (m n : Machine) (o o' : Outcome) : Prop where
  failure_eq : o.failure = o'.failure
  events_eq : o.events = o'.events
  same : ∀ p : Part, p.Same m n → p.Same o.machine o'.machine

theorem Alike.agree {o o' : Outcome} (h : Alike m n o o') (hagree : AgreeOff parts m n) :
    AgreeOff parts o.machine o'.machine :=
  fun p hp => h.same p (hagree p hp)

/-! ## What counts for an instruction -/

theorem reg_of_same (h : Part.registers.Same m n) (x : Register) : m.reg x = n.reg x :=
  congrArg (fun rs : Vector UInt8 16 => rs[x]) h

theorem skipIf_alike (h : Part.pc.Same m n) (c : Bool) : Part.pc.Same (m.skipIf c) (n.skipIf c) := by
  have hpc : m.pc = n.pc := h
  cases c with
  | false => exact h
  | true => simp only [skipIf, advance, Part.Same, hpc, if_true]

theorem setRegister_alike (h : Part.registers.Same m n) (x : Register) (v : Int) :
    (m.setRegister x v).failure = (n.setRegister x v).failure ∧
    (m.setRegister x v).events = (n.setRegister x v).events ∧
    Part.registers.Same (m.setRegister x v).machine (n.setRegister x v).machine := by
  have hr : m.registers = n.registers := h
  unfold setRegister
  split
  · exact ⟨rfl, rfl, by simp only [Part.Same, Outcome.done, setReg, hr]⟩
  · exact ⟨rfl, rfl, hr⟩

theorem setRegs_alike (h : Part.registers.Same m n) (l : List (Register × UInt8)) :
    Part.registers.Same (m.setRegs l) (n.setRegs l) := by
  induction l generalizing m n with
  | nil => exact h
  | cons p l ih => exact ih (congrArg (fun rs : Vector UInt8 16 => rs.set p.1 p.2) h)

/-- Operations that succeed in silence end alike. -/
theorem done_alike {m' n' : Machine} {parts : List Part} (h : ∀ p ∈ parts, p.Same m n → p.Same m' n') :
    (Outcome.done m').failure = (Outcome.done n').failure ∧
    (Outcome.done m').events = (Outcome.done n').events ∧
    ∀ p ∈ parts, p.Same m n → p.Same (Outcome.done m').machine (Outcome.done n').machine :=
  ⟨rfl, rfl, h⟩

/-- The parts and the bytes that an instruction looks at decide how it ends, what it tells, and what it makes of the
parts that it changes. -/
theorem execute_changes_alike {i : Instruction} (hsys : ∀ a, i = .sys a → env.sys = none)
    (hreads : ∀ p ∈ i.reads, p ≠ .memory → p.Same m n)
    (hloads : ∀ a, i.LoadsAt m a → m.memory.byteAt a = n.memory.byteAt a) :
    (m.execute env i).failure = (n.execute env i).failure ∧
    (m.execute env i).events = (n.execute env i).events ∧
    ∀ p ∈ i.changes, p.Same m n → p.Same (m.execute env i).machine (n.execute env i).machine := by
  have hpart : ∀ p, p ∈ i.reads ∧ p ≠ .memory → p.Same m n := fun p hp => hreads p hp.1 hp.2
  cases i with
  | sys a => simp only [execute, hsys a rfl]; exact ⟨rfl, rfl, fun _ _ h => h⟩
  | clear =>
    refine ⟨rfl, rfl, ?_⟩
    simp [Instruction.changes, Part.Same, execute, Outcome.done, Screen.clear_eq_blank]
  | ret =>
    have hs : m.stack = n.stack := hpart .stack (by simp [Instruction.reads])
    simp only [execute, hs]
    split
    · exact ⟨rfl, rfl, fun _ _ h => h⟩
    · exact done_alike (by simp [Instruction.changes, Part.Same])
  | call a =>
    have hs : m.stack = n.stack := hpart .stack (by simp [Instruction.reads])
    have hpc : m.pc = n.pc := hpart .pc (by simp [Instruction.reads])
    simp only [execute, hs, hpc]
    split
    · exact done_alike (by simp [Instruction.changes, Part.Same, goTo])
    · exact ⟨rfl, rfl, fun _ _ h => h⟩
  | jump | setIndex => exact done_alike (by simp [Instruction.changes, Part.Same, goTo])
  | jumpOffset | setDelay | setSound | pointDigit =>
    have hreg := reg_of_same (hpart .registers (by simp [Instruction.reads]))
    exact done_alike (by simp [Instruction.changes, Part.Same, hreg])
  | addIndex x =>
    have hreg := reg_of_same (hpart .registers (by simp [Instruction.reads]))
    have hindex : m.index = n.index := hpart .index (by simp [Instruction.reads])
    exact done_alike (by simp [Instruction.changes, Part.Same, moveIndex, hreg, hindex])
  | awaitKey x =>
    have hkeypad : m.keypad = n.keypad := hpart .keypad (by simp [Instruction.reads])
    exact ⟨rfl, rfl, by simp [Instruction.changes, Part.Same, execute, Outcome.done, hkeypad]⟩
  | skipIfByte | skipUnlessByte | skipIfEqual | skipUnlessEqual =>
    have hreg := reg_of_same (hpart .registers (by simp [Instruction.reads]))
    have hskip := skipIf_alike (hpart .pc (by simp [Instruction.reads]))
    simp only [execute, hreg]
    exact done_alike (List.forall_mem_singleton.2 fun _ => hskip _)
  | skipIfKey x | skipUnlessKey x =>
    have hreg := reg_of_same (hpart .registers (by simp [Instruction.reads]))
    have hskip := skipIf_alike (hpart .pc (by simp [Instruction.reads]))
    have hkeypad : m.keypad = n.keypad := hpart .keypad (by simp [Instruction.reads])
    simp only [execute, skipByKey, hreg, hkeypad]
    split
    · exact done_alike (List.forall_mem_singleton.2 fun _ => hskip _)
    · exact ⟨rfl, rfl, fun _ _ h => h⟩
  | setByte x b =>
    have hregisters := hpart .registers (by simp [Instruction.reads])
    obtain ⟨hfailure, hevents, hset⟩ := setRegister_alike hregisters x b
    exact ⟨hfailure, hevents, List.forall_mem_singleton.2 fun _ => hset⟩
  | addByte x b =>
    have hregisters := hpart .registers (by simp [Instruction.reads])
    obtain ⟨hfailure, hevents, hset⟩ := setRegister_alike hregisters x (((n.reg x).toNat + b) % 256)
    simp only [execute, reg_of_same hregisters]
    exact ⟨hfailure, hevents, List.forall_mem_singleton.2 fun _ => hset⟩
  | readDelay x =>
    have hdelay : m.delay = n.delay := hpart .delay (by simp [Instruction.reads])
    obtain ⟨hfailure, hevents, hset⟩ :=
      setRegister_alike (hpart .registers (by simp [Instruction.reads])) x n.delay
    simp only [execute, hdelay]
    exact ⟨hfailure, hevents, List.forall_mem_singleton.2 fun _ => hset⟩
  | random x b =>
    have hr : m.registers = n.registers := hpart .registers (by simp [Instruction.reads])
    have hrandom : m.randomTaken = n.randomTaken := hpart .randomTaken (by simp [Instruction.reads])
    simp only [execute, hrandom, setRegister]
    split
    · exact done_alike (by simp [Instruction.changes, Part.Same, setReg, hr])
    · exact ⟨rfl, rfl, by simp [Instruction.changes, Part.Same, Outcome.fail, hr]⟩
  | arith op x y =>
    have hregisters := hpart .registers (by simp [Instruction.reads])
    have hr : m.registers = n.registers := hregisters
    simp only [execute, combine_eq, reg_of_same hregisters]
    cases op.flag? (n.reg x).toNat (n.reg y).toNat <;>
      exact done_alike (by simp [Instruction.changes, Part.Same, setReg, hr])
  | draw x y k =>
    have hscreen : m.screen = n.screen := hpart .screen (by simp [Instruction.reads])
    have hr : m.registers = n.registers := hpart .registers (by simp [Instruction.reads])
    have hindex : m.index = n.index := hpart .index (by simp [Instruction.reads])
    have hsprite : m.spriteAtIndex k = n.spriteAtIndex k := by
      have hblock : m.memory.block m.index k.val = n.memory.block m.index k.val :=
        Memory.block_congr fun a hfirst hlast => hloads a ⟨hfirst, hlast⟩
      simp only [spriteAtIndex, hblock, ← hindex]
    simp only [execute, drawSprite_eq, hindex, hscreen, hsprite, reg_of_same hr]
    split
    · exact ⟨rfl, rfl, fun _ _ h => h⟩
    · exact done_alike (by simp [Instruction.changes, Part.Same, setReg, hr])
  | storeDecimal x =>
    have hregisters := hpart .registers (by simp [Instruction.reads])
    have hindex : m.index = n.index := hpart .index (by simp [Instruction.reads])
    simp only [execute, storeDecimal_eq, hindex, reg_of_same hregisters]
    split
    · exact ⟨rfl, rfl, fun _ _ h => h⟩
    · refine done_alike (List.forall_mem_singleton.2 fun h => ?_)
      have hmemory : m.memory = n.memory := h
      simp only [Part.Same, hmemory]
  | storeRegisters x =>
    have hregisters := hpart .registers (by simp [Instruction.reads])
    have hindex : m.index = n.index := hpart .index (by simp [Instruction.reads])
    have hreg : m.reg = n.reg := funext (reg_of_same hregisters)
    simp only [execute, storeRegisters_eq, hindex, hreg]
    split
    · exact ⟨rfl, rfl, fun _ _ h => h⟩
    · refine done_alike (List.forall_mem_cons.2 ⟨fun h => ?_, List.forall_mem_singleton.2 fun _ => rfl⟩)
      have hmemory : m.memory = n.memory := h
      simp only [Part.Same, moveIndex, hmemory]
  | loadRegisters x =>
    have hregisters := hpart .registers (by simp [Instruction.reads])
    have hindex : m.index = n.index := hpart .index (by simp [Instruction.reads])
    have hblock : m.memory.block n.index (x.val + 1) = n.memory.block n.index (x.val + 1) := by
      rw [← hindex]
      exact Memory.block_congr fun a hfirst hlast => hloads a ⟨hfirst, Nat.le_of_lt_succ hlast⟩
    simp only [execute, loadRegisters_eq, hindex, hblock]
    split
    · exact ⟨rfl, rfl, fun _ _ h => h⟩
    · obtain ⟨rs, hrs⟩ := m.setRegs_frame (x.upTo.zip (n.memory.block n.index (x.val + 1)))
      obtain ⟨rs', hrs'⟩ := n.setRegs_frame (x.upTo.zip (n.memory.block n.index (x.val + 1)))
      have hset := setRegs_alike hregisters (x.upTo.zip (n.memory.block n.index (x.val + 1)))
      rw [hrs, hrs'] at hset ⊢
      have hset : rs = rs' := hset
      exact done_alike (by simp [Instruction.changes, Part.Same, moveIndex, hset, hindex])

/-- **What an instruction does not look at makes no difference**: states that have in common the parts and the bytes
that it looks at make it end alike and tell the same, and have afterwards everything in common that they had
before. -/
theorem execute_alike_of_loads {i : Instruction} (hsys : ∀ a, i = .sys a → env.sys = none)
    (hreads : ∀ p ∈ i.reads, p ≠ .memory → p.Same m n)
    (hloads : ∀ a, i.LoadsAt m a → m.memory.byteAt a = n.memory.byteAt a) :
    Alike m n (m.execute env i) (n.execute env i) := by
  obtain ⟨hfailure, hevents, hchanges⟩ := execute_changes_alike hsys hreads hloads
  refine ⟨hfailure, hevents, ?_⟩
  intro p hp
  by_cases hchange : p ∈ i.changes
  · exact hchanges p hchange hp
  · exact ((execute_same hsys m hchange).trans hp).trans (execute_same hsys n hchange).symm

/-- Likewise if the whole memory counts for an instruction that looks at some of it. -/
theorem execute_alike {i : Instruction} (hsys : ∀ a, i = .sys a → env.sys = none)
    (hreads : ∀ p ∈ i.reads, p.Same m n) : Alike m n (m.execute env i) (n.execute env i) := by
  refine execute_alike_of_loads hsys (fun p hp _ => hreads p hp) fun a ha => ?_
  have hmemory : m.memory = n.memory := hreads .memory (Instruction.memory_mem_reads_of_loadsAt ha)
  rw [hmemory]

/-- States that agree apart from parts that an instruction does not look at still do so after it. -/
theorem execute_agree {i : Instruction} (hsys : ∀ a, i = .sys a → env.sys = none) (h : AgreeOff parts m n)
    (hreads : ∀ p ∈ i.reads, p ∉ parts) :
    (m.execute env i).failure = (n.execute env i).failure ∧
      AgreeOff parts (m.execute env i).machine (n.execute env i).machine := by
  have halike : Alike m n (m.execute env i) (n.execute env i) :=
    execute_alike hsys fun p hp => h p (hreads p hp)
  exact ⟨halike.failure_eq, halike.agree h⟩

/-! ## What counts for a step -/

namespace Alike

variable {o o' : Outcome}

theorem fail (m n : Machine) (e : Error) : Alike m n (.fail m e) (.fail n e) := ⟨rfl, rfl, fun _ h => h⟩

/-- States that have no more in common than others make no more difference. -/
theorem mono {m' n' : Machine} (h : Alike m' n' o o') (hsame : ∀ p : Part, p.Same m n → p.Same m' n') :
    Alike m n o o' :=
  ⟨h.failure_eq, h.events_eq, fun p hp => h.same p (hsame p hp)⟩

theorem after (h : Alike m n o o') (event : Event) : Alike m n (o.after event) (o'.after event) :=
  ⟨h.failure_eq, congrArg (event :: ·) h.events_eq, h.same⟩

theorem settle (h : Alike m n o o') (pc : Nat) : Alike m n (settle pc o) (settle pc o') := by
  obtain ⟨left, events, failure⟩ := o
  obtain ⟨right, events', failure'⟩ := o'
  obtain ⟨hfailure, hevents, hsame⟩ := h
  obtain rfl : failure = failure' := hfailure
  cases failure with
  | none =>
    refine ⟨rfl, hevents, fun p hp => ?_⟩
    cases p with
    | cycles => exact congrArg (· + 1) (hsame .cycles hp)
    | _ => exact hsame _ hp
  | some e =>
    cases e with
    | fault f =>
      refine ⟨rfl, hevents, fun p hp => ?_⟩
      cases p with
      | pc => rfl
      | _ => exact hsame _ hp
    | _ => exact ⟨rfl, hevents, hsame⟩

end Alike

theorem advance_alike {p : Part} (h : p.Same m n) : p.Same m.advance n.advance := by
  cases p with
  | pc => exact congrArg (fun pc => word16 (pc + 2)) h
  | _ => exact h

/-- A look for a key depends on the keypad and on the register that waits. -/
theorem pollKey_alike {x : Register} (hm : m.awaiting = some x) (hn : n.awaiting = some x)
    (hkeypad : m.keypad = n.keypad) : Alike m n m.pollKey n.pollKey := by
  cases hpresses : m.keypad.presses with
  | nil =>
    rw [pollKey_of_nil hm hpresses, pollKey_of_nil hn (hkeypad ▸ hpresses)]
    exact ⟨rfl, rfl, fun _ h => h⟩
  | cons k ks =>
    rw [pollKey_of_cons hm hpresses, pollKey_of_cons hn (hkeypad ▸ hpresses)]
    refine ⟨rfl, rfl, fun p hp => ?_⟩
    cases p with
    | registers => exact congrArg (fun rs : Vector UInt8 16 => rs.set x (UInt8.ofNat k.val)) hp
    | keypad => exact congrArg (fun keypad : Keypad => { keypad with waiting := false, presses := [] }) hp
    | awaiting => rfl
    | _ => exact hp

/-- Machines that stand at the same word step alike if they execute its instruction alike. -/
theorem step_alike_of_execute (hm : m.awaiting = none) (hn : n.awaiting = none) (hpc : m.pc = n.pc)
    (hword : m.nextWord = n.nextWord)
    (hexecute : ∀ i, m.Executes i → Alike m n (m.advance.execute env i) (n.advance.execute env i)) :
    Alike m n (m.step env) (n.step env) := by
  have hopcode : m.nextOpcode = n.nextOpcode := congrArg (fun word : Nat => Opcode.ofInt word) hword
  rcases m.step_cases with ⟨x, hx⟩ | ⟨-, h⟩ | ⟨-, h⟩ | ⟨-, h, ho⟩ | ⟨i, hi⟩
  · exact absurd (hm.symm.trans hx) (by simp)
  · rw [step_of_outside hm h, step_of_outside hn (hpc ▸ h), hpc]
    exact .fail m n _
  · rw [step_at_end hm h, step_at_end hn (hpc ▸ h)]
    exact .fail m n _
  · rw [step_of_unknown hm h ho, step_of_unknown hn (hpc ▸ h) (hopcode ▸ ho), hword]
    exact .fail m n _
  · obtain ⟨-, hlt, hread⟩ := executes_iff.1 hi
    have hi' : n.Executes i := executes_iff.2 ⟨hn, hpc ▸ hlt, hopcode ▸ hread⟩
    rw [step_of_executes hi, step_of_executes hi', ← hpc]
    exact ((hexecute i hi).settle m.pc).after _

/-- Machines that stand at the same word execute the same instruction. -/
theorem executes_congr {i : Instruction} (hcourse : ∀ p ∈ [Part.memory, .pc, .awaiting], p.Same m n) :
    m.Executes i ↔ n.Executes i := by
  have hmemory : m.memory = n.memory := hcourse .memory (by decide)
  have hpc : m.pc = n.pc := hcourse .pc (by decide)
  have hawait : m.awaiting = n.awaiting := hcourse .awaiting (by decide)
  simp only [Executes, fetch, hmemory, hpc, hawait]

/-- **What a step does not look at makes no difference**: it looks at the next word and at whether a register waits,
at the keypad if one does, and at what its instruction looks at. -/
theorem step_alike (henv : env.sys = none) (hcourse : ∀ p ∈ [Part.memory, .pc, .awaiting], p.Same m n)
    (hkeypad : m.awaiting = none ∨ Part.keypad.Same m n)
    (hreads : ∀ i, m.Executes i → ∀ p ∈ i.reads, p.Same m n) : Alike m n (m.step env) (n.step env) := by
  have hmemory : m.memory = n.memory := hcourse .memory (by decide)
  have hpc : m.pc = n.pc := hcourse .pc (by decide)
  have hawait : m.awaiting = n.awaiting := hcourse .awaiting (by decide)
  cases hx : m.awaiting with
  | none =>
    have hword : m.nextWord = n.nextWord := by rw [nextWord, nextWord, hmemory, hpc]
    refine step_alike_of_execute hx (hawait ▸ hx) hpc hword fun i hi => ?_
    have hexecute := execute_alike (fun _ _ => henv) fun p hp => advance_alike (hreads i hi p hp)
    exact hexecute.mono fun p => advance_alike
  | some x =>
    rw [step_of_awaiting hx, step_of_awaiting (hawait ▸ hx)]
    exact pollKey_alike hx (hawait ▸ hx) (hkeypad.resolve_left (by simp [hx]))

/-- **What a step has nothing to do with stays aside.** States that agree apart from parts that the next instruction
neither looks at nor changes step alike, and each of them keeps its own of these parts. -/
theorem step_apart (henv : env.sys = none) (h : AgreeOff parts m n)
    (hcourse : ∀ p ∈ [Part.memory, .pc, .awaiting, .registers, .cycles], p ∉ parts)
    (hkeypad : m.awaiting = none ∨ Part.keypad ∉ parts)
    (hapart : ∀ i, m.Executes i → ∀ p ∈ parts, p ∉ i.reads ∧ p ∉ i.changes) :
    Alike m n (m.step env) (n.step env) ∧
      ∀ p ∈ parts, p.Same (m.step env).machine m ∧ p.Same (n.step env).machine n := by
  have hcommon : ∀ p ∈ [Part.memory, .pc, .awaiting], p.Same m n := by
    intro p hp
    refine h p (hcourse p ?_)
    exact List.mem_append_left [.registers, .cycles] hp
  have hawait : m.awaiting = n.awaiting := hcommon .awaiting (by decide)
  constructor
  · refine step_alike henv hcommon (hkeypad.imp_right (h .keypad)) fun i hi p hp => ?_
    exact h p fun hmem => (hapart i hi p hmem).1 hp
  · intro p hp
    have hstep : p ∉ [Part.pc, .cycles] := by
      simp only [List.mem_cons, List.not_mem_nil, or_false]
      rintro (rfl | rfl)
      · exact hcourse .pc (by decide) hp
      · exact hcourse .cycles (by decide) hp
    have hpoll : m.awaiting = none ∨ p ∉ [Part.registers, .keypad, .awaiting] := by
      refine hkeypad.imp_right fun hnot => ?_
      simp only [List.mem_cons, List.not_mem_nil, or_false]
      rintro (rfl | rfl | rfl)
      · exact hcourse .registers (by decide) hp
      · exact hnot hp
      · exact hcourse .awaiting (by decide) hp
    constructor
    · exact step_same henv hstep hpoll fun i hi => (hapart i hi p hp).2
    · exact step_same henv hstep (hawait ▸ hpoll) fun i hi => (hapart i ((executes_congr hcommon).2 hi) p hp).2

end Machine

end Chip8
