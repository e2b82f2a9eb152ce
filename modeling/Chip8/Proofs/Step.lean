import Chip8.Machine.Step
import Chip8.Proofs.Execute

/-!
# The course of a step

Everything that a step can be. It looks for a key, or the next word cannot be fetched, or it is no
instruction, or it is one and is executed. Later modules take these apart and do not look into the step.

* `pollKey_of_nil`, `pollKey_of_cons` — a look for a key without and with a recorded press.
* `fetch_eq` — the word that is fetched, or why there is none.
* `nextWord_load`, `nextWord_start` — the word that is fetched from a program that was loaded.
* `executes_iff`, `executes_of_nextWord`, `executes_loaded`, `executes_start` — which instruction a step executes.
* `step_cases` — the four courses of a step.
* `failure_step`, `step_of_done`, `step_of_fault`, `step_of_no_fault` — how the execution of an instruction ends the step.
-/

set_option autoImplicit false

namespace Chip8.Machine

variable {env : Environment} {m : Machine}

/-! ## Looking for a key -/

theorem pollKey_of_nil {x : Register} (hx : m.awaiting = some x) (hp : m.keypad.presses = []) :
    m.pollKey = .done m := by
  simp only [pollKey, hx, Keypad.takePress, hp]
  rw [← hx]

/-- The wait of a register ends with a key: the register holds the key's number, and the keypad forgets what
else was pressed. -/
def endWait (m : Machine) (x : Register) (k : Key) : Machine :=
  { m.setReg x (UInt8.ofNat k.val) with
    keypad := { m.keypad with waiting := false, presses := [] }
    awaiting := none }

theorem reg_endWait (m : Machine) (x : Register) (k : Key) (r : Register) :
    (m.endWait x k).reg r = if r = x then UInt8.ofNat k.val else m.reg r := m.reg_setReg x _ r

theorem pollKey_of_cons {x : Register} {k : Key} {ks : List Key} (hx : m.awaiting = some x)
    (hp : m.keypad.presses = k :: ks) :
    m.pollKey = .done (m.endWait x k) [.storedKey k x] := by
  simp only [pollKey, hx, Keypad.takePress, hp]
  rw [setRegister_natCast _ x (by omega), Outcome.done_andThen]
  rfl

theorem step_of_awaiting {x : Register} (hx : m.awaiting = some x) : m.step env = m.pollKey := by
  simp only [step, hx]

/-! ## Fetching -/

/-- The word at the address of the next instruction. What lies outside the memory counts as zero. -/
def nextWord (m : Machine) : Nat :=
  256 * (m.memory.byteAt m.pc).toNat + (m.memory.byteAt (m.pc + 1)).toNat

/-- The digits of that word. -/
def nextOpcode (m : Machine) : Opcode := .ofInt m.nextWord

theorem word_nextOpcode (m : Machine) : m.nextOpcode.word = m.nextWord := by
  have hhigh := (m.memory.byteAt m.pc).toNat_lt
  have hlow := (m.memory.byteAt (m.pc + 1)).toNat_lt
  have hword := Opcode.word_ofInt m.nextWord
  unfold nextOpcode nextWord at *
  omega

/-- The word that follows `k` bytes of the program that was loaded last. -/
theorem nextWord_load {memory : Memory} {p : Program} {k : Nat} {high low : UInt8}
    (hmemory : m.memory = memory.load p) (hpc : m.pc = Program.start + k)
    (hhigh : p.bytes[k]? = some high) (hlow : p.bytes[k + 1]? = some low) :
    m.nextWord = 256 * high.toNat + low.toNat := by
  obtain ⟨hk, -⟩ := List.getElem?_eq_some_iff.1 hlow
  have hsize : p.size = p.bytes.length := rfl
  have hbyte : ∀ j b, p.bytes[j]? = some b → (memory.load p).byteAt (Program.start + j) = b := by
    intro j b hb
    obtain ⟨hj, -⟩ := List.getElem?_eq_some_iff.1 hb
    rw [Memory.byteAt_load, if_pos (by omega), Nat.add_sub_cancel_left, hb]
    rfl
  rw [nextWord, hmemory, hpc, hbyte k high hhigh, Nat.add_assoc, hbyte (k + 1) low hlow]

/-- A machine that was just started with a program stands at the program's first word. -/
theorem nextWord_start {p : Program} {high low : UInt8} {rest : List UInt8}
    (hp : p.bytes = high :: low :: rest) :
    (start (some p)).machine.nextWord = 256 * high.toNat + low.toNat := by
  rw [start_eq]
  exact nextWord_load (k := 0) (show _ = fresh.memory.load p from rfl) rfl (by rw [hp]; rfl) (by rw [hp]; rfl)

theorem fetch_eq (m : Machine) :
    m.fetch = match Memory.sliceFault m.pc 2 with
      | some f => .error f
      | none => .ok m.nextWord := by
  have hslice := m.memory.slice_eq m.pc 2
  have htwo : ((2 : Nat) : Int) = 2 := rfl
  rw [htwo] at hslice
  rw [fetch, Memory.word, hslice]
  cases Memory.sliceFault m.pc 2 with
  | some f => rfl
  | none =>
    have hblock : m.memory.block m.pc 2 = [m.memory.byteAt m.pc, m.memory.byteAt (m.pc + 1)] := rfl
    simp [Except.map, hblock, Memory.bigEndian, nextWord]

theorem fetch_of_outside (h : 4096 ≤ m.pc) : m.fetch = .error (.outOfRange m.pc) := by
  rw [fetch_eq, Memory.sliceFault_of_outside (by decide) h]

theorem fetch_at_end (h : m.pc = 4095) : m.fetch = .error (.outOfRange 4096) := by
  rw [fetch_eq, Memory.sliceFault_of_end (by omega) (by omega), h]
  rfl

theorem fetch_of_lt (h : m.pc < 4095) : m.fetch = .ok m.nextWord := by
  rw [fetch_eq, Memory.sliceFault_of_inside (by omega) (by decide)]

/-- The next step executes this instruction. -/
def Executes (m : Machine) (i : Instruction) : Prop :=
  m.awaiting = none ∧ ∃ word, m.fetch = .ok word ∧ Instruction.decode word = .ok i

theorem decode_nextWord_of_some {i : Instruction} (h : Instruction.ofOpcode? m.nextOpcode = some i) :
    Instruction.decode m.nextWord = .ok i := by
  rw [Instruction.decode_eq, show Instruction.ofOpcode? (.ofInt m.nextWord) = some i from h]

theorem decode_nextWord_of_none (h : Instruction.ofOpcode? m.nextOpcode = none) :
    Instruction.decode m.nextWord = .error (.unknownInstruction m.nextWord) := by
  have hword : (Opcode.ofInt m.nextWord).word = m.nextWord := m.word_nextOpcode
  rw [Instruction.decode_eq, show Instruction.ofOpcode? (.ofInt m.nextWord) = none from h]
  dsimp only
  rw [hword]

/-- An instruction is executed if the machine does not wait, its word lies in the memory, and its digits are
read as it. -/
theorem executes_iff {i : Instruction} :
    m.Executes i ↔
      m.awaiting = none ∧ m.pc < 4095 ∧ Instruction.ofOpcode? m.nextOpcode = some i := by
  constructor
  · rintro ⟨hawait, word, hword, hi⟩
    have hpc : m.pc < 4095 := by
      rcases (by omega : 4096 ≤ m.pc ∨ m.pc = 4095 ∨ m.pc < 4095) with h | h | h
      · rw [fetch_of_outside h] at hword; cases hword
      · rw [fetch_at_end h] at hword; cases hword
      · exact h
    rw [fetch_of_lt hpc] at hword
    cases hword
    refine ⟨hawait, hpc, ?_⟩
    cases ho : Instruction.ofOpcode? m.nextOpcode with
    | none => rw [decode_nextWord_of_none ho] at hi; cases hi
    | some j => rw [decode_nextWord_of_some ho] at hi; cases hi; rfl
  · rintro ⟨hawait, hpc, hi⟩
    exact ⟨hawait, m.nextWord, fetch_of_lt hpc, decode_nextWord_of_some hi⟩

theorem executes_of_nextWord {word : Nat} {i : Instruction} (hawait : m.awaiting = none)
    (hpc : m.pc < 4095) (hword : m.nextWord = word) (hi : Instruction.ofOpcode? (.ofInt word) = some i) :
    m.Executes i :=
  executes_iff.2 ⟨hawait, hpc, by rw [nextOpcode, hword, hi]⟩

/-- A step executes one instruction. -/
theorem executes_unique {i j : Instruction} (hi : m.Executes i) (hj : m.Executes j) : i = j := by
  have hread := (executes_iff.1 hi).2.2
  rw [(executes_iff.1 hj).2.2] at hread
  exact (Option.some.inj hread).symm

/-- The word that was fetched is that of the instruction. -/
theorem fetch_of_executes {i : Instruction} (h : m.Executes i) : m.fetch = .ok i.encode := by
  obtain ⟨-, hpc, hread⟩ := executes_iff.1 h
  rw [fetch_of_lt hpc, Instruction.encode, Instruction.opcode_of_ofOpcode? hread, word_nextOpcode]

/-- A machine that has come to some place of the program that was loaded last executes what stands there. -/
theorem executes_loaded {memory : Memory} {p : Program} {k : Nat} {high low : UInt8} {i : Instruction}
    (hawait : m.awaiting = none) (hmemory : m.memory = memory.load p) (hpc : m.pc = Program.start + k)
    (hhigh : p.bytes[k]? = some high) (hlow : p.bytes[k + 1]? = some low)
    (hi : Instruction.ofOpcode? (.ofInt (256 * high.toNat + low.toNat : Nat)) = some i) : m.Executes i := by
  obtain ⟨hk, -⟩ := List.getElem?_eq_some_iff.1 hlow
  have hfits := p.length_le
  have hstart : Program.start = 512 := rfl
  exact executes_of_nextWord hawait (by omega) (nextWord_load hmemory hpc hhigh hlow) hi

/-- A machine that was just started with a program executes the program's first instruction. -/
theorem executes_start {p : Program} {high low : UInt8} {rest : List UInt8} {i : Instruction}
    (hp : p.bytes = high :: low :: rest)
    (hi : Instruction.ofOpcode? (.ofInt (256 * high.toNat + low.toNat : Nat)) = some i) :
    (start (some p)).machine.Executes i := by
  rw [start_eq]
  exact executes_loaded (k := 0) rfl (show _ = fresh.memory.load p from rfl) rfl (by rw [hp]; rfl) (by rw [hp]; rfl) hi

/-! ## The courses of a step -/

theorem step_of_outside (hawait : m.awaiting = none) (h : 4096 ≤ m.pc) :
    m.step env = .fail m (.fault (.outOfRange m.pc)) := by
  simp only [step, hawait, fetch_of_outside h]

theorem step_at_end (hawait : m.awaiting = none) (h : m.pc = 4095) :
    m.step env = .fail m (.fault (.outOfRange 4096)) := by
  simp only [step, hawait, fetch_at_end h]

theorem step_of_unknown (hawait : m.awaiting = none) (hpc : m.pc < 4095)
    (h : Instruction.ofOpcode? m.nextOpcode = none) :
    m.step env = .fail m (.fault (.unknownInstruction m.nextWord)) := by
  simp only [step, hawait, fetch_of_lt hpc, decode_nextWord_of_none h]

theorem step_of_executes {i : Instruction} (h : m.Executes i) :
    m.step env = (settle m.pc (m.advance.execute env i)).after (.executing m.pc i) := by
  obtain ⟨hawait, word, hword, hi⟩ := h
  simp only [step, hawait, hword, hi]

/-- In the memory the address of the next instruction moves on without wrapping. -/
theorem advance_of_lt (h : m.pc < 65534) : m.advance = { m with pc := m.pc + 2 } := by
  rw [advance, word16_of_lt (by omega)]

/-- A step whose instruction succeeds without an event of its own counts, and otherwise does what the instruction
does. -/
theorem step_of_done {i : Instruction} {n : Machine} (h : m.Executes i) (hdone : m.advance.execute env i = .done n) :
    m.step env = .done { n with cycles := n.cycles + 1 } [.executing m.pc i] := by
  rw [step_of_executes h, hdone]
  rfl

/-- **Every step is one of these**: it looks for a key, it fails in fetching, it fails in reading, or it
executes an instruction. -/
theorem step_cases (m : Machine) :
    (∃ x, m.awaiting = some x) ∨
    (m.awaiting = none ∧ 4096 ≤ m.pc) ∨
    (m.awaiting = none ∧ m.pc = 4095) ∨
    (m.awaiting = none ∧ m.pc < 4095 ∧ Instruction.ofOpcode? m.nextOpcode = none) ∨
    (∃ i, m.Executes i) := by
  cases hawait : m.awaiting with
  | some x => exact .inl ⟨x, rfl⟩
  | none =>
    rcases (by omega : 4096 ≤ m.pc ∨ m.pc = 4095 ∨ m.pc < 4095) with h | h | h
    · exact .inr (.inl ⟨rfl, h⟩)
    · exact .inr (.inr (.inl ⟨rfl, h⟩))
    · cases ho : Instruction.ofOpcode? m.nextOpcode with
      | none => exact .inr (.inr (.inr (.inl ⟨rfl, h, rfl⟩)))
      | some i => exact .inr (.inr (.inr (.inr ⟨i, executes_iff.2 ⟨hawait, h, ho⟩⟩)))

theorem failure_settle (pc : Nat) (o : Outcome) : (settle pc o).failure = o.failure := by
  unfold settle
  split <;> simp_all

theorem cycles_settle (pc : Nat) (o : Outcome) :
    (settle pc o).machine.cycles = o.machine.cycles + if o.failure = none then 1 else 0 := by
  unfold settle
  split <;> simp_all

/-- A step that executes an instruction ends as the instruction does. -/
theorem failure_step {i : Instruction} (h : m.Executes i) :
    (m.step env).failure = (m.advance.execute env i).failure := by
  rw [step_of_executes h]
  exact failure_settle m.pc _

theorem settle_of_success {o : Outcome} (h : o.failure = none) (pc : Nat) :
    (settle pc o).machine = { o.machine with cycles := o.machine.cycles + 1 } := by
  simp only [settle, h]

/-- A fault of the instruction ends the step with nothing changed. -/
theorem step_of_fault {i : Instruction} {f : Fault} (h : m.Executes i) (hf : m.faultOf i = some f) :
    m.step env = (Outcome.fail m (.fault f)).after (.executing m.pc i) := by
  rw [step_of_executes h, execute_of_fault ((faultOf_advance m i).trans hf)]
  rfl

/-- Without a fault the step succeeds, and counts. -/
theorem step_of_no_fault {i : Instruction} (henv : env.sys = none) (hd : m.delay < 256)
    (h : m.Executes i) (hf : m.faultOf i = none) :
    m.step env =
      { machine := { (m.advance.execute env i).machine with
          cycles := (m.advance.execute env i).machine.cycles + 1 }
        events := .executing m.pc i :: (m.advance.execute env i).events
        failure := none } := by
  have hcoded := Instruction.coded_of_ofOpcode? (executes_iff.1 h).2.2
  have hdone := execute_of_no_fault (m := m.advance) henv hd hcoded ((faultOf_advance m i).trans hf)
  rw [step_of_executes h, settle, hdone]
  rfl

end Chip8.Machine
