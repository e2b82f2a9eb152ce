import Chip8.CommandLine.Launch
import Chip8.RandomBytes

/-!
# The program

The command line program: it plays a program file on the terminal, frame by frame. Screens go to standard
output and messages to standard error. A terminal does not tell which keys are held down, so with the
keyboard switched on the keypad sees none.
-/

set_option autoImplicit false

namespace Chip8.Terminal

def usage : String :=
  "usage: chip8 [--cycles-per-second N] [--max-cycles N] [--keyboard] [--log-level LEVEL] FILE"

/-- What stands under a name. -/
def fileAt (name : String) : IO File := do
  try
    let content ← IO.FS.readBinFile name
    return .bytes content.toList
  catch e =>
    match e with
    | .noFileOrDirectory .. => return .missing
    | .inappropriateType .. => return .folder
    | _ => throw e

/-- Tell what happened, from a level on. -/
def report (least : Level) (events : List Event) : IO Unit :=
  for line in events.flatMap (·.lines least) do
    IO.eprintln line

/-- Play frame after frame. What was shown and told is dropped from the session at once. -/
partial def play (env : Environment) (settings : Settings) (least : Level) (s : Session) :
    IO (Machine × Ending) := do
  if settings.usedUp s.executed then
    return (s.machine, .completed)
  let (s, ending) := s.frame env settings ⟨[], none⟩
  report least s.events
  for screen in s.shown do
    IO.println screen.picture
  match ending with
  | some e => return (s.machine, e)
  | none =>
    IO.sleep 16
    play env settings least { s with shown := [], journal := [] }

/-- Leave with an exit status, and with the wording of an error if there is one. -/
def leave : Exit → IO UInt32
  | .status n => return UInt32.ofNat n
  | e => do
    IO.eprintln e.message
    return 1

/-- Play what the options ask for. -/
def run (o : Options) : IO UInt32 := do
  match o.level with
  | .error e => leave e
  | .ok least =>
    match o.program (← fileAt (fileName o.file)) with
    | .error e => leave e
    | .ok p =>
      let seed ← IO.rand 0 0xFFFFFFFF
      let env : Environment := ⟨randomByte (UInt64.ofNat seed), none⟩
      let made := Machine.start (some p)
      report least made.events
      let (m, ending) ← play env o.settings least (Session.start made.machine [])
      let (exit, last) := conclude m ending
      report least last
      leave exit

end Chip8.Terminal

/-- The program on the words of the command line. -/
def main (args : List String) : IO UInt32 :=
  match Chip8.Arguments.read args with
  | .play o => Chip8.Terminal.run o
  | .help => do
    IO.println Chip8.Terminal.usage
    return 0
  | .refused => do
    IO.eprintln Chip8.Terminal.usage
    return 2
