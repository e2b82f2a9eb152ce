import Chip8.Proofs.Footprint

/-!
# Starting anew

Whatever was done to a machine, it remembers the program that was loaded last, and to start it anew makes it a
new machine with that program. What a program stored over itself, a longer program that was loaded before, a
program that a host put into the memory alone, a load that was refused: nothing of it stays.

* `Machine.Course` — everything that may be done to a machine, and the programs that are loaded in it.
* `Course.program_eq` — the program of a machine is the last one of its course.
* `Course.run` — a history without a routine of the host machine is a course.
* `reset_eq`, `build_fresh_eq_start` — a new start is a new machine.
* `reset_of_course` — so a new start forgets everything but the program.
-/

set_option autoImplicit false

namespace Chip8

/-- The program that is loaded if a host gives this one: none if it is refused. -/
def Program.Source.loads (source : Program.Source) : List Program :=
  (Program.ofSource source).toOption.toList

/-- The program that an action loads and keeps, if it is not refused. -/
def Action.loads : Action → List Program
  | .load source => source.loads
  | _ => []

namespace Machine

/-- Anything that is done to a machine until it is in another state, with the programs that are loaded and kept
meanwhile. Actions may fail. A call to the host machine may be answered by a routine that does such things
itself, and the host may write to every part but the program by hand. -/
inductive Course : Machine → List Program → Machine → Prop where
  | start (m : Machine) : Course m [] m
  /-- An action in which no routine is asked. -/
  | act {m n : Machine} {loads : List Program} (h : Course m loads n) (env : Environment) (a : Action)
      (hasks : ∀ t s, n.Asks a t s → env.sys = none) :
      Course m (loads ++ a.loads) (n.perform env a).machine
  /-- An action in which a routine is asked. -/
  | answered {m n s : Machine} {loads answer : List Program} {env : Environment} {a : Action} {t : Address}
      {routine : Address → Machine → Outcome} (h : Course m loads n) (hasks : n.Asks a t s)
      (hsys : env.sys = some routine) (hanswer : Course s answer (routine t s).machine) :
      Course m (loads ++ answer) (n.perform env a).machine
  /-- The host writes by hand. -/
  | overwrite {m n : Machine} {loads : List Program} (h : Course m loads n) (memory : Memory)
      (screen : Screen) (keypad : Keypad) (registers : Vector UInt8 16) (index pc delay sound : Nat)
      (stack : List Nat) (awaiting : Option Register) (cycles randomTaken : Nat) :
      Course m loads
        { memory, screen, keypad, registers, index, pc, delay, sound, stack, awaiting,
          program := n.program, cycles, randomTaken }

variable {env : Environment}

/-! ## The program -/

/-- Loading keeps the program that is loaded. -/
theorem loadFrom_program (m : Machine) (source : Program.Source) :
    (m.loadFrom source).machine.program = source.loads.getLast?.or m.program := by
  rw [loadFrom_eq, Program.Source.loads]
  cases Program.ofSource source <;> rfl

/-- **An action keeps the program that it loads**, and otherwise the one that was there. -/
theorem perform_program {m : Machine} {a : Action} (hasks : ∀ t s, m.Asks a t s → env.sys = none) :
    (m.perform env a).machine.program = a.loads.getLast?.or m.program := by
  cases a with
  | load source => exact m.loadFrom_program source
  | execute i => exact perform_same (p := .program) hasks i.program_notMem_changes
  | _ => exact perform_same (p := .program) hasks (by simp [Action.changes])

/-- **The program of a machine is the one that was loaded last.** -/
theorem Course.program_eq {m n : Machine} {loads : List Program} (h : Course m loads n) :
    n.program = loads.getLast?.or m.program := by
  induction h with
  | start => rfl
  | act h env a hasks ih => rw [perform_program hasks, ih, List.getLast?_append, Option.or_assoc]
  | answered h hasks hsys hanswer ih iha =>
    -- the routine finds the program of the course so far, and what it leaves stays
    have hroutine := perform_same_of_asks (p := .program) hasks hsys (by decide)
    have hasked := asks_same (p := .program) hasks (by decide)
    rw [hroutine, iha, hasked, ih, List.getLast?_append, Option.or_assoc]
  | overwrite _ _ _ _ _ _ _ _ _ _ _ _ _ ih => exact ih

/-- A history of actions is a course if there is no routine. -/
theorem Course.run {m n : Machine} {loads : List Program} (henv : env.sys = none) (h : Course m loads n)
    (history : List Action) :
    Course m (loads ++ history.flatMap Action.loads) (Machine.run env n history) := by
  induction history generalizing n loads with
  | nil => simpa using h
  | cons a history ih =>
    rw [List.flatMap_cons, ← List.append_assoc]
    exact ih (h.act env a fun _ _ _ => henv)

/-! ## New starts -/

/-- To switch a machine on with parts that were never used is to start it. -/
theorem build_fresh_eq_start (program : Option Program) :
    build .fresh .blank .fresh (program.map fun p => .bytes p.bytes) = start program := by
  cases program with
  | none => rfl
  | some p => rw [Option.map_some, build, loadFrom, Program.ofSource, Program.ofBytes_bytes]; rfl

theorem start_done (program : Option Program) : (start program).failure = none := by
  cases program with
  | none => rfl
  | some p => rw [start_eq]; rfl

/-- **A new start makes a new machine with the program of the old one.** Only the random numbers go on. -/
theorem reset_eq (m : Machine) :
    m.reset = { (start m.program).machine with randomTaken := m.randomTaken } := by
  have hregisters : (m.registers.map fun _ => (0 : UInt8)) = Vector.replicate 16 0 := by
    ext i hi
    simp
  rw [reset, Memory.clear_eq_fresh, Screen.clear_eq_blank, hregisters]
  cases hprogram : m.program with
  | none => rfl
  | some p => rw [start_eq]; rfl

/-- **A new start forgets everything but the program.** A machine may be built over any memory, screen and
keypad, with a program, without one or with one that is refused, and anything may be done to it. Then its
program is the one that was loaded last, if there is one, and a new start makes it in every part equal to a
machine that is just built with that program, apart from the place in the row of random numbers. -/
theorem reset_of_course {memory : Memory} {screen : Screen} {keypad : Keypad}
    {source : Option Program.Source} {loads : List Program} {m : Machine}
    (h : Course (build memory screen keypad source).machine loads m) :
    m.program = (source.toList.flatMap Program.Source.loads ++ loads).getLast? ∧
    let new := build .fresh .blank .fresh (m.program.map fun p => .bytes p.bytes)
    new.failure = none ∧ m.reset = { new.machine with randomTaken := m.randomTaken } := by
  have hbuilt : (build memory screen keypad source).machine.program =
      (source.toList.flatMap Program.Source.loads).getLast? := by
    cases source with
    | none => rfl
    | some source =>
      rw [build, loadFrom_program, Option.toList_some, List.flatMap_singleton]
      exact Option.or_none
  refine ⟨?_, ?_⟩
  · rw [h.program_eq, hbuilt, List.getLast?_append]
  · rw [build_fresh_eq_start]
    exact ⟨start_done m.program, m.reset_eq⟩

/-- The first instruction of a program asks a routine that loads a shorter program. Then a load is refused, and
one goes into the memory alone. -/
theorem reset_of_course_answered :
    let asking : Environment := ⟨fun _ => 0, some fun _ s => s.loadFrom (.bytes [0xAA])⟩
    let quiet : Environment := ⟨fun _ => 0, none⟩
    let built := (build .fresh .blank .fresh (some (.bytes [0x01, 0x23]))).machine
    let m := run quiet (built.step asking).machine [.load (.items [256]), .loadMemory (.bytes [0xBB])]
    m.program = some ⟨[0xAA], by decide⟩ ∧
      m.reset = { (build .fresh .blank .fresh (some (.bytes [0xAA]))).machine with
        randomTaken := m.randomTaken } := by
  intro asking quiet built m
  have hbuilt : built = (start (some ⟨[0x01, 0x23], by decide⟩)).machine :=
    congrArg Outcome.machine (build_fresh_eq_start (some ⟨[0x01, 0x23], by decide⟩))
  have hasks : built.Asks .step 0x123 built.advance :=
    .step (by rw [hbuilt]; exact executes_start rfl rfl)
  have hquiet : quiet.sys = none := rfl
  have hanswer : Course built.advance [⟨[0xAA], by decide⟩] (built.advance.loadFrom (.bytes [0xAA])).machine :=
    (Course.start built.advance).run hquiet [.load (.bytes [0xAA])]
  have hstep : Course built [⟨[0xAA], by decide⟩] (built.perform asking .step).machine :=
    (Course.start built).answered hasks rfl hanswer
  have hcourse : Course (build .fresh .blank .fresh (some (.bytes [0x01, 0x23]))).machine
      [⟨[0xAA], by decide⟩] m :=
    hstep.run hquiet [.load (.items [256]), .loadMemory (.bytes [0xBB])]
  obtain ⟨hprogram, -, hreset⟩ := reset_of_course hcourse
  have hlast : m.program = some ⟨[0xAA], by decide⟩ := hprogram
  rw [hlast] at hreset
  exact ⟨hlast, hreset⟩

end Machine

end Chip8
