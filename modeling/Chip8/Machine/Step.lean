import Chip8.Instruction.Encoding
import Chip8.Machine.Execute

/-!
# Steps

A step reads the word at the address of the next instruction, moves that address on by two, and executes the
instruction. A fault puts the address back, so the machine stands at the instruction that cannot be executed.
While an instruction waits for a key, a step only looks whether one was pressed.

* `Machine.step` — one step.
* `Machine.pollKey` — the look for a key.
-/

set_option autoImplicit false

namespace Chip8.Machine

/-- The word at the address of the next instruction. -/
def fetch (m : Machine) : Except Fault Nat := m.memory.word m.pc

/-- Look for a recorded press, and end the wait with it if there is one. -/
def pollKey (m : Machine) : Outcome :=
  match m.awaiting with
  | none => .fail m .notAwaitingKey
  | some x =>
    match m.keypad.takePress with
    | (none, keypad) => .done { m with keypad := keypad }
    | (some k, keypad) =>
      (({ m with keypad := keypad }.setRegister x k.val).andThen fun m =>
        .done { m with awaiting := none }).after (.storedKey k x)

/-- Count an executed instruction, or put the address `pc` back after a fault. -/
def settle (pc : Nat) (o : Outcome) : Outcome :=
  match o.failure with
  | none => { o with machine := { o.machine with cycles := o.machine.cycles + 1 } }
  | some (.fault _) => { o with machine := { o.machine with pc := pc } }
  | some _ => o

def step (env : Environment) (m : Machine) : Outcome :=
  match m.awaiting with
  | some _ => m.pollKey
  | none =>
    match m.fetch with
    | .error f => .fail m f
    | .ok word =>
      match Instruction.decode word with
      | .error f => .fail m f
      | .ok i =>
        (settle m.pc (execute env m.advance i)).after (.executing m.pc i)

end Chip8.Machine
