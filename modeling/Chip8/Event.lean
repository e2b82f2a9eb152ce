import Chip8.Instruction.Assembly
import Chip8.Program

/-!
# Events

What happens while the machine works is told as events. Some of them have a message for the reader of a
log, of a certain level; a reader chooses the lowest level to be shown.

* `Event.message?` — the level and the wording. `Event.text?`, `Event.lines` — the wording and the lines in a log.
* `Level.ofName?_eq_some_iff` — a level is found under its names, and under no others.
-/

set_option autoImplicit false

namespace Chip8

/-- How much a message matters. -/
inductive Level where
  | notSet
  | debug
  | info
  | warning
  | error
  | critical
  deriving DecidableEq, Repr

namespace Level

def rank : Level → Nat
  | .notSet => 0
  | .debug => 10
  | .info => 20
  | .warning => 30
  | .error => 40
  | .critical => 50

def name : Level → String
  | .notSet => "NOTSET"
  | .debug => "DEBUG"
  | .info => "INFO"
  | .warning => "WARNING"
  | .error => "ERROR"
  | .critical => "CRITICAL"

/-- The level of a name; two of them have a second name. -/
def ofName? : String → Option Level
  | "NOTSET" => some .notSet
  | "DEBUG" => some .debug
  | "INFO" => some .info
  | "WARNING" | "WARN" => some .warning
  | "ERROR" => some .error
  | "CRITICAL" | "FATAL" => some .critical
  | _ => none

/-- The names of a level. -/
def names : Level → List String
  | .warning => ["WARNING", "WARN"]
  | .critical => ["CRITICAL", "FATAL"]
  | l => [l.name]

theorem ofName?_eq_some_iff {s : String} {l : Level} : ofName? s = some l ↔ s ∈ l.names := by
  constructor
  · intro h
    unfold ofName? at h
    split at h <;> cases h <;> simp [names, name]
  · intro h
    cases l with
    | warning | critical =>
      obtain rfl | hsecond := List.mem_cons.1 h
      · rfl
      · obtain rfl := List.mem_singleton.1 hsecond
        rfl
    | _ =>
      obtain rfl := List.mem_singleton.1 h
      rfl

end Level

/-- Something that happened. -/
inductive Event where
  | loaded (size : Nat)
  | executing (pc : Nat) (instruction : Instruction)
  /-- A routine of the host machine was asked for, and there are none. -/
  | ignoredSys (a : Address)
  | calledSys (a : Address)
  | awaitingKey (x : Register)
  | storedKey (k : Key) (x : Register)
  /-- A fault ended the session; the machine was in the state that the summary tells. -/
  | halted (summary : String) (fault : Fault)
  deriving DecidableEq, Repr

namespace Event

def message? : Event → Option (Level × String)
  | .loaded size =>
      some (.info, s!"Loaded program of {size} bytes at " ++ Numeral.marked 3 Program.start)
  | .executing pc i => some (.debug, Numeral.marked 3 pc ++ " " ++ i.mnemonic)
  | .ignoredSys a => some (.debug, "Ignoring SYS " ++ a.text)
  | .calledSys _ => none
  | .awaitingKey x => some (.info, "Waiting for key press into " ++ x.name)
  | .storedKey k x => some (.info, "Key " ++ k.digit ++ " pressed, stored in " ++ x.name)
  | .halted summary _ => some (.error, "Emulation halted: " ++ summary)

/-- The text of an event in a log that starts at a level. -/
def text? (least : Level) (e : Event) : Option String :=
  (e.message?.filter fun message => least.rank ≤ message.1.rank).map Prod.snd

/-- What a log shows after the line of an event: where the fault of a halt came from. The places between the head and
the fault are those where the program stands on its host; they are left out. -/
def trail : Event → List String
  | .halted _ f => ["Traceback (most recent call last):", "chip8vm.errors." ++ f.name ++ ": " ++ f.message]
  | _ => []

/-- The lines of an event in a log that starts at a level: its text, after the level and the name of the log. -/
def lines (least : Level) (e : Event) : List String :=
  match e.message? with
  | some (level, text) =>
      if least.rank ≤ level.rank then (level.name ++ ":root:" ++ text) :: e.trail else []
  | none => []

end Event

end Chip8
