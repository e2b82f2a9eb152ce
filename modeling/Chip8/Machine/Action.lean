import Chip8.Machine.Step

/-!
# What a host may do

Between the steps of the machine its host may do other things to it: let the timers tick, press keys, write
to the memory, the screen or a register, load programs and start anew. Each is an `Action`, and a history is a
list of them. An action that fails is a part of the history like any other, and the next one finds what it
left.

* `Action.FromOutside` — the actions that leave the inside of the machine to its program.
* `Machine.perform` — one action.
* `Machine.run` — a whole history.
* `moveKey_cases` — the two courses of a move of a key.
* `run_append`, `run_induction` — a history in two parts, and what every action of a history keeps.
* `Throughout` — what every action of a history finds when its turn comes.
-/

set_option autoImplicit false

namespace Chip8

/-- Something that a host does to the machine. -/
inductive Action where
  | step
  /-- Execute an instruction that was built by hand. -/
  | execute (i : Instruction)
  | tick
  /-- Look for a key in place of a step. -/
  | pollKey
  | skipIf (c : Bool)
  | reset
  /-- Load a program and keep it. -/
  | load (source : Program.Source)
  | setRegister (x : Register) (v : Int)
  | setIndex (a : UInt16)
  | setPc (a : UInt16)
  | write (a v : Int)
  /-- Load a program into the memory and do not keep it. -/
  | loadMemory (source : Program.Source)
  | loadFont
  | clearMemory
  | draw (rows : List Int) (origin : Point)
  | clearScreen
  /-- Move the key of a number. -/
  | move (key : Int) (s : KeyState)
  deriving DecidableEq, Repr

/-- What a host does to a machine whose inside it leaves alone: it makes steps and ticks, moves keys, loads programs
and starts anew. -/
inductive Action.FromOutside : Action → Prop where
  | step : FromOutside .step
  | tick : FromOutside .tick
  | move (key : Int) (s : KeyState) : FromOutside (.move key s)
  | load (source : Program.Source) : FromOutside (.load source)
  | reset : FromOutside .reset

namespace Machine

/-- Load a program into the memory alone. -/
def loadMemory (m : Machine) (source : Program.Source) : Outcome :=
  match Program.ofSource source with
  | .ok p => .done { m with memory := m.memory.load p }
  | .error e => .fail m e

def drawRows (m : Machine) (rows : List Int) (origin : Point) : Outcome :=
  match Sprite.ofInts rows with
  | .ok sprite => .done { m with screen := m.screen.draw sprite origin }
  | .error e => .fail m e

/-- Move the key of a number, if there is one. -/
def moveKey (m : Machine) (key : Int) (s : KeyState) : Outcome :=
  match m.keypad.move key s with
  | .ok keypad => .done { m with keypad := keypad }
  | .error f => .fail m f

def perform (env : Environment) (m : Machine) : Action → Outcome
  | .step => m.step env
  | .execute i => m.execute env i
  | .tick => .done m.tick
  | .pollKey => m.pollKey
  | .skipIf c => .done (m.skipIf c)
  | .reset => .done m.reset
  | .load source => m.loadFrom source
  | .setRegister x v => m.setRegister x v
  | .setIndex a => .done { m with index := a.toNat }
  | .setPc a => .done { m with pc := a.toNat }
  | .write a v => m.writeByte a v
  | .loadMemory source => m.loadMemory source
  | .loadFont => .done { m with memory := m.memory.withFont }
  | .clearMemory => .done { m with memory := m.memory.clear }
  | .draw rows origin => m.drawRows rows origin
  | .clearScreen => .done { m with screen := m.screen.clear }
  | .move key s => m.moveKey key s

/-- The state after a history, whatever failed in it. -/
def run (env : Environment) (m : Machine) (history : List Action) : Machine :=
  history.foldl (fun m a => (m.perform env a).machine) m

variable {env : Environment}

@[simp] theorem run_nil (m : Machine) : run env m [] = m := rfl

@[simp] theorem run_cons (m : Machine) (a : Action) (history : List Action) :
    run env m (a :: history) = run env (m.perform env a).machine history := rfl

theorem run_append (m : Machine) (first second : List Action) :
    run env m (first ++ second) = run env (run env m first) second := List.foldl_append

/-- A move is the move of a key, or its number names none. -/
theorem moveKey_cases (m : Machine) (key : Int) (s : KeyState) :
    (∃ k : Key, key = k.val ∧ m.moveKey key s = .done { m with keypad := m.keypad.set k s }) ∨
    (below 16 key = false ∧ m.moveKey key s = .fail m (.fault (.invalidKey key))) := by
  unfold moveKey
  rcases m.keypad.move_cases key s with ⟨k, hkey, hmove⟩ | ⟨hkey, hmove⟩
  · exact .inl ⟨k, hkey, by rw [hmove]⟩
  · exact .inr ⟨hkey, by rw [hmove]⟩

/-- What every allowed action keeps holds after a history of allowed actions. -/
theorem run_induction {P : Machine → Prop} (allowed : Action → Prop)
    (hstep : ∀ m a, P m → allowed a → P (m.perform env a).machine) {m : Machine} (hm : P m)
    (history : List Action) (hall : ∀ a ∈ history, allowed a) : P (run env m history) := by
  induction history generalizing m with
  | nil => exact hm
  | cons a history ih =>
    refine ih (hstep m a hm (hall a List.mem_cons_self)) ?_
    exact fun b hb => hall b (List.mem_cons_of_mem _ hb)

/-- Every action of a history meets a condition in the state that it finds. -/
def Throughout (env : Environment) (P : Machine → Action → Prop) : Machine → List Action → Prop
  | _, [] => True
  | m, a :: history => P m a ∧ Throughout env P (m.perform env a).machine history

namespace Throughout

variable {P : Machine → Action → Prop} {m : Machine} {first second : List Action}

theorem left (h : Throughout env P m (first ++ second)) : Throughout env P m first := by
  induction first generalizing m with
  | nil => trivial
  | cons a first ih => exact ⟨h.1, ih h.2⟩

theorem right (h : Throughout env P m (first ++ second)) : Throughout env P (run env m first) second := by
  induction first generalizing m with
  | nil => exact h
  | cons a first ih => exact ih h.2

/-- What every action keeps that meets its condition holds after the history. -/
theorem run {Q : Machine → Prop} {history : List Action} (h : Throughout env P m history) (hm : Q m)
    (hstep : ∀ m, ∀ a ∈ history, Q m → P m a → Q (m.perform env a).machine) : Q (run env m history) := by
  induction history generalizing m with
  | nil => exact hm
  | cons a history ih =>
    refine ih h.2 (hstep m a List.mem_cons_self hm h.1) ?_
    exact fun m b hb => hstep m b (List.mem_cons_of_mem a hb)

end Throughout

end Machine

end Chip8
