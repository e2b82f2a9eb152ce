import Chip8.Event
import Chip8.Keypad
import Chip8.Memory
import Chip8.Screen.Basic

/-!
# The machine

The state of the machine, what the host may read of it and set, and the two things that happen to it without
an instruction: the timers tick, and the host loads a program or starts it anew.

An `Outcome` is what became of an operation. It has the state also when the operation failed, because a
failure may come after a change.

The index, the address of the next instruction, the timers and the places to return to are plain numbers.
Nothing in their types keeps them small: whoever writes one brings it into range, or has it in range already.

* `reg_setReg` — a write to a register concerns that register alone.
* `setRegister_byte`, `setRegisters_bytes`, `writeBytes_bytes` — checked writes of bytes to registers, and to
  memory that is there, succeed.
* `setRegister_frame`, `writeByte_frame` — whatever is written, nothing else changes.
* `load_eq`, `loadFrom_eq`, `start_eq` — a program is loaded and kept, or refused with nothing changed.
-/

set_option autoImplicit false

namespace Chip8

/-- The low sixteen bits of a number. -/
def word16 (n : Nat) : Nat := n % 65536

theorem word16_lt (n : Nat) : word16 n < 65536 := Nat.mod_lt _ (by decide)

theorem word16_of_lt {n : Nat} (h : n < 65536) : word16 n = n := Nat.mod_eq_of_lt h

/-- The state of the machine. -/
structure Machine where
  memory : Memory
  screen : Screen
  keypad : Keypad
  registers : Vector UInt8 16
  index : Nat
  pc : Nat
  delay : Nat
  sound : Nat
  /-- Where to return to, innermost call first. -/
  stack : List Nat
  /-- The register that waits for a key. -/
  awaiting : Option Register
  /-- The program to start anew with. -/
  program : Option Program
  cycles : Nat
  randomTaken : Nat
  deriving DecidableEq, Repr

/-- What became of an operation. -/
structure Outcome where
  machine : Machine
  events : List Event
  failure : Option Error
  deriving DecidableEq, Repr

namespace Outcome

def done (m : Machine) (events : List Event := []) : Outcome := ⟨m, events, none⟩

def fail (m : Machine) (e : Error) : Outcome := ⟨m, [], some e⟩

/-- The same outcome with an event before its own. -/
def after (event : Event) (o : Outcome) : Outcome := { o with events := event :: o.events }

/-- Go on with the state that an operation left, unless it failed. -/
def andThen (o : Outcome) (next : Machine → Outcome) : Outcome :=
  match o.failure with
  | none => { next o.machine with events := o.events ++ (next o.machine).events }
  | some _ => o

@[simp] theorem done_andThen (m : Machine) (next : Machine → Outcome) :
    (done m).andThen next = next m := rfl

theorem andThen_assoc (o : Outcome) (next last : Machine → Outcome) :
    (o.andThen next).andThen last = o.andThen fun m => (next m).andThen last := by
  obtain ⟨m, events, failure⟩ := o
  cases failure with
  | some e => rfl
  | none =>
    simp only [andThen]
    obtain ⟨n, events', failure⟩ := next m
    cases failure with
    | some e => rfl
    | none => simp only [List.append_assoc]

end Outcome

/-- What the machine finds outside: an endless row of random numbers, and a routine that answers the calls
to the host machine, if there is one. -/
structure Environment where
  /-- The random numbers, each used once. -/
  random : Nat → Int
  /-- The routine for the calls to the host machine. -/
  sys : Option (Address → Machine → Outcome)

namespace Machine

/-- The greatest number of calls that can be open at once. -/
def stackSize : Nat := 16

/-- A machine that was just switched on. -/
def fresh : Machine where
  memory := .fresh
  screen := .blank
  keypad := .fresh
  registers := Vector.replicate 16 0
  index := 0
  pc := Program.start
  delay := 0
  sound := 0
  stack := []
  awaiting := none
  program := none
  cycles := 0
  randomTaken := 0

/-! ## Registers -/

def reg (m : Machine) (x : Register) : UInt8 := m.registers[x]

def setReg (m : Machine) (x : Register) (b : UInt8) : Machine :=
  { m with registers := m.registers.set x b }

def setRegs (m : Machine) : List (Register × UInt8) → Machine
  | [] => m
  | (x, b) :: rest => (m.setReg x b).setRegs rest

/-- Put a value into a register. One that does not fit in a byte is refused. -/
def setRegister (m : Machine) (x : Register) (v : Int) : Outcome :=
  if below 256 v then .done (m.setReg x (UInt8.ofInt v)) else .fail m .notAByte

/-- Put values into registers one after the other, up to the first that is refused. -/
def setRegisters (m : Machine) : List (Register × Int) → Outcome
  | [] => .done m
  | (x, v) :: rest => (m.setRegister x v).andThen fun m => m.setRegisters rest

theorem reg_setReg (m : Machine) (x : Register) (b : UInt8) (y : Register) :
    (m.setReg x b).reg y = if y = x then b else m.reg y := by
  simp only [reg, setReg, Fin.getElem_fin, Vector.getElem_set, Fin.ext_iff]
  by_cases h : x.val = y.val
  · simp [h]
  · simp [h, Ne.symm h]

/-- Writes to other registers leave a register alone. -/
theorem reg_setRegs_of_notMem (m : Machine) (l : List (Register × UInt8)) {y : Register}
    (h : ∀ p ∈ l, p.1 ≠ y) : (m.setRegs l).reg y = m.reg y := by
  induction l generalizing m with
  | nil => rfl
  | cons p l ih =>
    have hp : y ≠ p.1 := (h p List.mem_cons_self).symm
    rw [setRegs, ih _ fun q hq => h q (List.mem_cons_of_mem p hq), reg_setReg, if_neg hp]

/-- A register among those that are written holds what was meant for it. -/
theorem reg_setRegs_of_mem (m : Machine) (f : Register → UInt8) {l : List Register} {y : Register} (h : y ∈ l) :
    (m.setRegs (l.map fun r => (r, f r))).reg y = f y := by
  induction l generalizing m with
  | nil => cases h
  | cons x l ih =>
    rw [List.map_cons, setRegs]
    by_cases hy : y ∈ l
    · exact ih _ hy
    · obtain rfl := (List.mem_cons.1 h).resolve_right hy
      rw [reg_setRegs_of_notMem, reg_setReg, if_pos rfl]
      intro p hp
      obtain ⟨r, hr, rfl⟩ := List.mem_map.1 hp
      rintro rfl
      exact hy hr

@[simp] theorem setRegister_byte (m : Machine) (x : Register) (b : UInt8) :
    m.setRegister x b.toNat = .done (m.setReg x b) := by
  rw [setRegister, if_pos (below_byte b), ofInt_toNat]

theorem setRegister_of_lt (m : Machine) (x : Register) {v : Int} (h0 : 0 ≤ v) (h : v < 256) :
    m.setRegister x v = .done (m.setReg x (UInt8.ofInt v)) :=
  if_pos (below_iff.2 ⟨h0, h⟩)

theorem setRegister_natCast (m : Machine) (x : Register) {n : Nat} (h : n < 256) :
    m.setRegister x n = .done (m.setReg x (UInt8.ofNat n)) := by
  have hmod : ((n : Int) % 2 ^ 8).toNat = n := by omega
  rw [setRegister_of_lt m x (by omega) (by omega), UInt8.ofInt, hmod]

theorem setRegisters_bytes (m : Machine) (l : List (Register × UInt8)) :
    m.setRegisters (l.map fun (x, b) => (x, (b.toNat : Int))) = .done (m.setRegs l) := by
  induction l generalizing m with
  | nil => rfl
  | cons p l ih =>
    rw [List.map_cons, setRegisters, setRegister_byte, Outcome.done_andThen, ih, setRegs]

theorem setRegs_frame (m : Machine) (l : List (Register × UInt8)) :
    ∃ rs, m.setRegs l = { m with registers := rs } := by
  induction l generalizing m with
  | nil => exact ⟨m.registers, rfl⟩
  | cons p l ih =>
    obtain ⟨rs, h⟩ := ih (m.setReg p.1 p.2)
    exact ⟨rs, h⟩

theorem setRegister_frame (m : Machine) (x : Register) (v : Int) :
    ∃ rs, (m.setRegister x v).machine = { m with registers := rs } := by
  unfold setRegister
  split
  · exact ⟨_, rfl⟩
  · exact ⟨m.registers, rfl⟩

/-! ## Memory -/

def writeByte (m : Machine) (a v : Int) : Outcome :=
  match m.memory.write a v with
  | .ok memory => .done { m with memory := memory }
  | .error e => .fail m e

/-- Put values at an address and after it, one after the other, up to the first that is refused. -/
def writeBytes (m : Machine) (a : Int) : List Int → Outcome
  | [] => .done m
  | v :: rest => (m.writeByte a v).andThen fun m => m.writeBytes (a + 1) rest

theorem writeByte_byte (m : Machine) {a : Nat} (ha : a < 4096) (b : UInt8) :
    m.writeByte a b.toNat = .done { m with memory := m.memory.put a b } := by
  rw [writeByte, Memory.write_byte _ ha]

theorem writeBytes_bytes (m : Machine) (a : Nat) (bs : List UInt8) (h : a + bs.length ≤ 4096) :
    m.writeBytes a (bs.map fun b => (b.toNat : Int)) =
      .done { m with memory := m.memory.putAll a bs } := by
  induction bs generalizing m a with
  | nil => rfl
  | cons b bs ih =>
    rw [List.length_cons] at h
    rw [List.map_cons, writeBytes, writeByte_byte m (by omega), Outcome.done_andThen]
    exact ih _ (a + 1) (by omega)

theorem writeByte_frame (m : Machine) (a v : Int) :
    ∃ memory, (m.writeByte a v).machine = { m with memory := memory } := by
  unfold writeByte
  split
  · exact ⟨_, rfl⟩
  · exact ⟨m.memory, rfl⟩

/-! ## Timers -/

/-- A sixtieth of a second goes by for both timers; at zero they stay. -/
def tick (m : Machine) : Machine := { m with delay := m.delay - 1, sound := m.sound - 1 }

/-- Whether the machine sounds. -/
def sounding (m : Machine) : Bool := decide (0 < m.sound)

/-! ## Loading and starting anew -/

/-- Load a program, and keep what then stands in its place for later starts. -/
def load (m : Machine) (p : Program) : Outcome :=
  let m := { m with memory := m.memory.load p }
  match (m.memory.slice Program.start p.size).bind Program.ofBytes with
  | .ok kept => .done { m with program := some kept } [.loaded p.size]
  | .error f => .fail m f

/-- Loading always succeeds, and what is kept is the program. -/
theorem load_eq (m : Machine) (p : Program) :
    m.load p = .done { m with memory := m.memory.load p, program := some p } [.loaded p.size] := by
  unfold load
  dsimp only
  rw [Memory.slice_load, Except.bind, Program.ofBytes_bytes]

/-- Load the program that a host gives; what is none is not loaded, and nothing changes. -/
def loadFrom (m : Machine) (source : Program.Source) : Outcome :=
  match Program.ofSource source with
  | .ok p => m.load p
  | .error e => .fail m e

theorem loadFrom_eq (m : Machine) (source : Program.Source) :
    m.loadFrom source = match Program.ofSource source with
      | .ok p =>
        .done { m with memory := m.memory.load p, program := some p } [.loaded p.size]
      | .error e => .fail m e := by
  unfold loadFrom
  split
  · exact m.load_eq _
  · rfl

/-- Start anew with the program that was loaded last: every part is put back by itself, and the program goes
into the cleared memory. The row of random numbers goes on where it was. -/
def reset (m : Machine) : Machine :=
  { m with
    memory := match m.program with
      | none => m.memory.clear
      | some p => m.memory.clear.load p
    screen := m.screen.clear
    keypad := m.keypad.releaseAll
    registers := m.registers.map fun _ => 0
    index := 0
    pc := Program.start
    delay := 0
    sound := 0
    stack := []
    awaiting := none
    cycles := 0 }

/-- A machine that was just switched on, with a program if there is one. -/
def start : Option Program → Outcome
  | none => .done fresh
  | some p => fresh.load p

theorem start_eq (p : Program) :
    start (some p) = .done { fresh with memory := fresh.memory.load p, program := some p } [.loaded p.size] :=
  fresh.load_eq p

/-- A machine that is switched on over a memory, a screen and a keypad that were there before, with the
program that a host gives, if it gives one. -/
def build (memory : Memory) (screen : Screen) (keypad : Keypad) : Option Program.Source → Outcome
  | none => .done { fresh with memory := memory, screen := screen, keypad := keypad }
  | some source =>
      { fresh with memory := memory, screen := screen, keypad := keypad }.loadFrom source

/-! ## Summary -/

/-- The summary of a state: the address of the next instruction in base 10 and 16, the index, and the
registers. -/
def summary (m : Machine) : String :=
  "PC: (" ++ toString m.pc ++ ", '0x" ++ String.ofList (Numeral.lower m.pc) ++ "'), I: "
    ++ toString m.index ++ ", regs: "
    ++ Numeral.barred (m.registers.toList.map UInt8.toNat)

end Machine

end Chip8
