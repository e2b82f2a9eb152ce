import Chip8.Text.Numeral

/-!
# Faults and errors

A `Fault` is a failure that belongs to the machine itself: it stops the running program, and the machine
is put back to the instruction that caused it. An `Error` is a fault or a misuse of one of the library's
operations by the host.

* `Fault.name` — the kind. `Fault.message`, `Error.message` — the wording.
-/

set_option autoImplicit false

namespace Chip8

/-- A failure of the machine. -/
inductive Fault where
  | invalidRegister (value : Int)
  | unknownInstruction (opcode : Nat)
  | invalidKey (value : Int)
  | outOfRange (address : Int)
  | stackOverflow (target : Nat)
  | stackUnderflow
  | programTooLarge (size capacity : Nat)
  /-- A host routine stopped the machine. -/
  | routine (text : String)
  deriving DecidableEq, Repr

/-- What kind of fault it is. -/
def Fault.name : Fault → String
  | .invalidRegister _ => "InvalidRegister"
  | .unknownInstruction _ => "UnknownInstruction"
  | .invalidKey _ => "InvalidKey"
  | .outOfRange _ => "OutOfRange"
  | .stackOverflow _ => "StackOverflow"
  | .stackUnderflow => "StackUnderflow"
  | .programTooLarge .. => "ProgramTooLarge"
  | .routine _ => "Chip8Error"

def Fault.message : Fault → String
  | .invalidRegister v => "invalid register " ++ Numeral.marked 1 v
  | .unknownInstruction w => "unknown instruction " ++ Numeral.marked 4 w
  | .invalidKey v => "invalid key " ++ Numeral.marked 1 v
  | .outOfRange a => "address out of range " ++ Numeral.marked 4 a
  | .stackOverflow a => "stack overflow calling " ++ Numeral.marked 3 a
  | .stackUnderflow => "return with empty stack"
  | .programTooLarge size capacity =>
      s!"program of {size} bytes exceeds capacity of {capacity} bytes"
  | .routine text => text

/-- A failure of an operation of the library. -/
inductive Error where
  | fault (fault : Fault)
  | notAByte
  /-- A key was asked for while no instruction waits for one. -/
  | notAwaitingKey
  /-- A program holds an item outside the signed 64-bit numbers. -/
  | programItemTooWide
  | programItemNotAByte
  | spriteTooTall (rows : Nat)
  /-- A digit was asked for below the lowest one. -/
  | negativeShift
  /-- A host routine failed for a reason of its own. -/
  | routine (text : String)
  deriving DecidableEq, Repr

/-- The wording of an error; a broken requirement on a value has none. -/
def Error.message : Error → String
  | .fault f => f.message
  | .notAByte => ""
  | .notAwaitingKey => ""
  | .programItemTooWide => "program item does not fit in 64 bits"
  | .programItemNotAByte => "program bytes must be in range 0..255"
  | .spriteTooTall rows => s!"sprites have at most 15 rows, got {rows}"
  | .negativeShift => "negative shift count"
  | .routine text => text

instance : Coe Fault Error := ⟨.fault⟩

end Chip8
