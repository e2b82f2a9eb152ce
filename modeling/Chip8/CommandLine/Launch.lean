import Chip8.CommandLine.Arguments
import Chip8.Text.Capital
import Chip8.Text.Quoted

/-!
# Launching from the command line

A launch reads the command line, then the level of messages, then the file, and then plays the program. It
ends with an exit status, or with an error that the program does not handle.

* `launch` — a launch on a scripted host. `launchFor` — one whose session is left after some frames.
* `conclude` — how the end of a session ends the launch.
-/

set_option autoImplicit false

namespace Chip8

/-- What stands under a name in the host's files. -/
inductive File where
  | missing
  | folder
  | bytes (bs : List UInt8)
  deriving DecidableEq, Repr

/-- How a launch ended. -/
inductive Exit where
  | status (n : Nat)
  | unknownLevel (name : String)
  | missingFile (name : String)
  | folderForFile (name : String)
  /-- An error that nobody handled. -/
  | error (e : Error)
  deriving DecidableEq, Repr

/-- The wording of an exit with an error; a status has none. -/
def Exit.message : Exit → String
  | .status _ => ""
  | .unknownLevel name => "Unknown level: " ++ Text.quoted name
  | .missingFile name => "[Errno 2] No such file or directory: " ++ Text.quoted name
  | .folderForFile name => "[Errno 21] Is a directory: " ++ Text.quoted name
  | .error e => e.message

/-- The name of a file without empty parts and parts that name the folder they stand in. Two slashes at the
start are kept apart from one. -/
def fileName (s : String) : String :=
  let parts := (s.splitOn "/").filter fun part => part ≠ "" && part ≠ "."
  let root :=
    match s.toList with
    | '/' :: '/' :: '/' :: _ => "/"
    | '/' :: '/' :: _ => "//"
    | '/' :: _ => "/"
    | _ => ""
  let name := root ++ "/".intercalate parts
  if name = "" then "." else name

/-- The files of a host whose working folder holds only these. -/
def folderOf (files : List (String × List UInt8)) (name : String) : File :=
  match files.find? fun (n, _) => n = name with
  | some (_, bs) => .bytes bs
  | none =>
    if (name.splitOn "/").all fun part => part = "" || part = "." || part = ".." then .folder
    else .missing

/-- A launch that ended. -/
structure Launch where
  exit : Exit
  frames : Nat
  output : String
  level : Level
  events : List Event
  deriving DecidableEq, Repr

/-- The level of messages that is asked for, by its name in capital letters. -/
def Options.level (o : Options) : Except Exit Level :=
  match Level.ofName? (Text.capitalised o.logLevel) with
  | some l => .ok l
  | none => .error (.unknownLevel (Text.capitalised o.logLevel))

/-- The program in a file. -/
def Options.program (o : Options) : File → Except Exit Program
  | .missing => .error (.missingFile (fileName o.file))
  | .folder => .error (.folderForFile (fileName o.file))
  | .bytes bs =>
    match Program.ofBytes bs with
    | .ok p => .ok p
    | .error f => .error (.error (.fault f))

/-- How a launch ends after its session, and what is told of it: a fault of the machine is told and gives
the status one. -/
def conclude (m : Machine) : Ending → Exit × List Event
  | .completed | .interrupted | .unfinished => (.status 0, [])
  | .failed (.fault f) => (.status 1, [.halted m.summary f])
  | .failed e => (.error e, [])

/-- A launch on a host with these files, whose session is left after so many frames if it still goes on. -/
def launchFor (env : Environment) (host : Host) (files : String → File) (frames : Settings → Nat)
    (args : List String) : Launch :=
  match Arguments.read args with
  | .help => ⟨.status 0, 0, "", .warning, []⟩
  | .refused => ⟨.status 2, 0, "", .warning, []⟩
  | .play o =>
    match o.level with
    | .error e => ⟨e, 0, "", .warning, []⟩
    | .ok level =>
      match o.program (files (fileName o.file)) with
      | .error e => ⟨e, 0, "", level, []⟩
      | .ok p =>
        let made := Machine.start (some p)
        let (s, ending) :=
          (Session.start made.machine made.events.reverse).playFor env o.settings host (frames o.settings)
        let (exit, last) := conclude s.machine ending
        ⟨exit, s.frames, s.output, level, s.events ++ last⟩

/-- A launch on a host with these files. -/
def launch (env : Environment) (host : Host) (files : String → File) (args : List String) : Launch :=
  launchFor env host files (fun settings => settings.horizon host) args

end Chip8
