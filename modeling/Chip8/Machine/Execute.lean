import Chip8.Machine.Basic
import Chip8.Mask

/-!
# Instructions at work

What each instruction does to the machine. The address of the next instruction has already moved on when an
instruction is executed; jumps replace it and skips move it on once more.

* `Machine.execute` — the effect of an instruction.
-/

set_option autoImplicit false

namespace Chip8

/-- The hundreds, tens and ones of a number below a thousand. -/
def decimalDigits (n : Nat) : List Nat := [n / 100, n / 10 % 10, n % 10]

namespace Machine

/-- Move on by one instruction. -/
def advance (m : Machine) : Machine := { m with pc := word16 (m.pc + 2) }

/-- Skip an instruction if a condition holds. -/
def skipIf (m : Machine) (c : Bool) : Machine := if c then m.advance else m

def goTo (m : Machine) (a : Address) : Machine := { m with pc := a.val }

/-- Move the index on by a number. -/
def moveIndex (m : Machine) (n : Nat) : Machine := { m with index := word16 (m.index + n) }

/-- Skip an instruction by whether the key that a register names is held down. -/
def skipByKey (m : Machine) (x : Register) (held : Bool) : Outcome :=
  match Key.checked (m.reg x).toNat with
  | .ok k => .done (m.skipIf (m.keypad.isPressed k == held))
  | .error f => .fail m f

/-- Combine two registers. The operands are read first, then the flag is written and then the result, so a
result in the flag register stays. -/
def combine (m : Machine) (op : Arith) (x y : Register) : Outcome :=
  let a := (m.reg x).toNat
  let b := (m.reg y).toNat
  match op.flag? a b with
  | some f => (m.setRegister Register.flag f).andThen fun m => m.setRegister x (op.result a b)
  | none => m.setRegister x (op.result a b)

/-- Draw the sprite of `n` rows at the index, and flag whether a lit pixel went off. -/
def drawSprite (m : Machine) (x y : Register) (n : Nibble) : Outcome :=
  match m.memory.slice m.index n.val with
  | .error f => .fail m f
  | .ok rows =>
    match Sprite.ofBytes rows with
    | .error e => .fail m e
    | .ok sprite =>
      let origin := Point.ofInt (m.reg x).toNat (m.reg y).toNat
      { m with screen := m.screen.draw sprite origin }.setRegister Register.flag
        (if m.screen.overdraws sprite origin then 1 else 0)

/-- Store the decimal digits of a register at the index. Only the last of the three addresses is looked at
beforehand. -/
def storeDecimal (m : Machine) (x : Register) : Outcome :=
  match Address.checked (m.index + 2) with
  | .error f => .fail m f
  | .ok _ => m.writeBytes m.index ((decimalDigits (m.reg x).toNat).map fun (d : Nat) => (d : Int))

/-- Store the registers up to one of them at the index, and move the index past them. -/
def storeRegisters (m : Machine) (x : Register) : Outcome :=
  match Address.checked (m.index + x.val) with
  | .error f => .fail m f
  | .ok _ =>
    (m.writeBytes m.index (x.upTo.map fun r => ((m.reg r).toNat : Int))).andThen fun m =>
      .done (m.moveIndex (x.val + 1))

/-- Load the registers up to one of them from the index, and move the index past what was read. -/
def loadRegisters (m : Machine) (x : Register) : Outcome :=
  match m.memory.slice m.index (x.val + 1) with
  | .error f => .fail m f
  | .ok bs =>
    (m.setRegisters ((x.upTo.zip bs).map fun (r, b) => (r, (b.toNat : Int)))).andThen fun m =>
      .done (m.moveIndex (x.val + 1))

/-- What an instruction does. -/
def execute (env : Environment) (m : Machine) : Instruction → Outcome
  | .sys a =>
      match env.sys with
      | none => .done m [.ignoredSys a]
      | some routine => (routine a m).after (.calledSys a)
  | .clear => .done { m with screen := m.screen.clear }
  | .ret =>
      match m.stack with
      | [] => .fail m (.fault .stackUnderflow)
      | back :: rest => .done { m with pc := back, stack := rest }
  | .jump a => .done (m.goTo a)
  | .call a =>
      if m.stack.length < stackSize then .done ({ m with stack := m.pc :: m.stack }.goTo a)
      else .fail m (.fault (.stackOverflow a.val))
  | .skipIfByte x b => .done (m.skipIf (decide (((m.reg x).toNat : Int) = b)))
  | .skipUnlessByte x b => .done (m.skipIf (decide (((m.reg x).toNat : Int) ≠ b)))
  | .skipIfEqual x y => .done (m.skipIf (decide (m.reg x = m.reg y)))
  | .skipUnlessEqual x y => .done (m.skipIf (decide (m.reg x ≠ m.reg y)))
  | .setByte x b => m.setRegister x b
  | .addByte x b => m.setRegister x (((m.reg x).toNat + b) % 256)
  | .arith op x y => m.combine op x y
  | .setIndex a => .done { m with index := a.val }
  | .jumpOffset a => .done { m with pc := a.val + (m.reg 0).toNat }
  | .random x b =>
      { m with randomTaken := m.randomTaken + 1 }.setRegister x (mask (env.random m.randomTaken) b)
  | .draw x y n => m.drawSprite x y n
  | .skipIfKey x => m.skipByKey x true
  | .skipUnlessKey x => m.skipByKey x false
  | .readDelay x => m.setRegister x m.delay
  | .awaitKey x =>
      .done { m with keypad := m.keypad.beginWait, awaiting := some x } [.awaitingKey x]
  | .setDelay x => .done { m with delay := (m.reg x).toNat }
  | .setSound x => .done { m with sound := (m.reg x).toNat }
  | .addIndex x => .done (m.moveIndex (m.reg x).toNat)
  | .pointDigit x => .done { m with index := Font.address (Nibble.ofInt (m.reg x).toNat) }
  | .storeDecimal x => m.storeDecimal x
  | .storeRegisters x => m.storeRegisters x
  | .loadRegisters x => m.loadRegisters x

end Machine

end Chip8
