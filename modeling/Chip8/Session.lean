import Chip8.Machine.Step
import Chip8.Screen.Picture

/-!
# Sessions

A session plays the machine in frames of a sixtieth of a second. In each frame the keypad may follow the
host's keyboard, then some steps are made, the timers tick, the screen is shown, and the host sleeps. A
session ends when its steps are used up, when a step fails, which leaves the frame at once, or when the host
interrupts it in its sleep.

* `Session.stepWhile` — the steps of a frame. `Session.sleep` — its end, where the host may interrupt.
* `Session.frame` — one frame.
* `Session.play` — frames until the end.
-/

set_option autoImplicit false

namespace Chip8

/-- How a session is to be played. -/
structure Settings where
  cyclesPerSecond : Int
  maxCycles : Option Int
  keyboard : Bool
  deriving DecidableEq, Repr

/-- A host that follows a script: the names of the keys held down in each frame, and the number of sleeps
after which it interrupts. -/
structure Host where
  /-- The names of the keys held down, frame by frame. -/
  keys : List (List String)
  /-- The sleep that is interrupted, counted from one. -/
  interruptAt : Option Int
  deriving DecidableEq, Repr

/-- Whether the host holds a key down in a frame; after the script's end it holds none. -/
def Host.holds (h : Host) (frame : Nat) (k : Key) : Bool :=
  (h.keys[frame]?.getD []).contains k.hostName

/-- Why a session ended. -/
inductive Ending where
  | completed
  | interrupted
  | failed (e : Error)
  /-- It was left while it still went on. -/
  | unfinished
  deriving DecidableEq, Repr

/-- A session so far. -/
structure Session where
  machine : Machine
  executed : Nat
  frames : Nat
  /-- The screens that were shown, latest first. -/
  shown : List Screen
  /-- What happened, latest first. -/
  journal : List Event
  deriving DecidableEq, Repr

/-! ## Pace -/

namespace Settings

/-- The steps in a full frame: a sixtieth of the speed, and at least one. -/
def stepsPerFrame (s : Settings) : Nat := max 1 (s.cyclesPerSecond / 60).toNat

def usedUp (s : Settings) (executed : Nat) : Bool :=
  match s.maxCycles with
  | none => false
  | some most => decide (most ≤ executed)

/-- A number of frames that no session reaches: one for each step, or those until the interrupt. A session
that has no bound is left after the last frame that 64 bits can count. -/
def horizon (s : Settings) (h : Host) : Nat :=
  match s.maxCycles, h.interruptAt with
  | some most, _ => most.toNat + 1
  | none, some k => if 0 < k then k.toNat + 1 else 0x10000000000000000
  | none, none => 0x10000000000000000

theorem stepsPerFrame_pos (s : Settings) : 0 < s.stepsPerFrame := by
  simp only [stepsPerFrame]; omega

end Settings

namespace Session

/-- The start of a session, with what happened before it, latest first. -/
def start (m : Machine) (journal : List Event) : Session := ⟨m, 0, 0, [], journal⟩

/-- Let the keypad follow the host's keyboard, if it is to. -/
def poll (settings : Settings) (host : Host) (s : Session) : Session :=
  if settings.keyboard then
    { s with machine := { s.machine with
        keypad := s.machine.keypad.observe (host.holds s.frames) } }
  else s

/-- One step. It counts if it succeeds. -/
def step (env : Environment) (s : Session) : Session × Option Error :=
  let o := s.machine.step env
  let journal := o.events.reverse ++ s.journal
  match o.failure with
  | some e => ({ s with machine := o.machine, journal := journal }, some e)
  | none => ({ s with machine := o.machine, executed := s.executed + 1, journal := journal }, none)

/-- At most so many steps, while the steps are not used up, and up to the first that fails. -/
def stepWhile (env : Environment) (settings : Settings) : Nat → Session → Session × Option Error
  | 0, s => (s, none)
  | n + 1, s =>
    if settings.usedUp s.executed then (s, none)
    else
      match s.step env with
      | (s, some e) => (s, some e)
      | (s, none) => stepWhile env settings n s

/-- Let the timers tick. -/
def tick (s : Session) : Session := { s with machine := s.machine.tick }

/-- Show the screen. -/
def print (s : Session) : Session := { s with shown := s.machine.screen :: s.shown }

/-- Sleep until the next frame. The host may interrupt, which ends the session. -/
def sleep (host : Host) (s : Session) : Session × Option Ending :=
  let s := { s with frames := s.frames + 1 }
  (s, if host.interruptAt = some (s.frames : Int) then some .interrupted else none)

/-- One frame, and why it was the last if it was. -/
def frame (env : Environment) (settings : Settings) (host : Host) (s : Session) :
    Session × Option Ending :=
  match stepWhile env settings settings.stepsPerFrame (s.poll settings host) with
  | (s, some e) => (s, some (.failed e))
  | (s, none) => s.tick.print.sleep host

/-- Frames until the end, at most a given number of them. -/
def playFor (env : Environment) (settings : Settings) (host : Host) :
    Nat → Session → Session × Ending
  | 0, s => (s, .unfinished)
  | n + 1, s =>
    if settings.usedUp s.executed then (s, .completed)
    else
      match s.frame env settings host with
      | (s, some ending) => (s, ending)
      | (s, none) => playFor env settings host n s

/-- Frames until the end. -/
def play (env : Environment) (settings : Settings) (host : Host) (s : Session) : Session × Ending :=
  playFor env settings host (settings.horizon host) s

/-- The text of all screens that were shown, each with a line break after it. -/
def output (s : Session) : String := String.join (s.shown.reverse.map fun t => t.picture ++ "\n")

def events (s : Session) : List Event := s.journal.reverse

end Session

end Chip8
