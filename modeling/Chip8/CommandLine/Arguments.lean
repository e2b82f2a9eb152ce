import Chip8.Session
import Chip8.Text.Integer

/-!
# Arguments

A command line names a program file and may hold switches. A switch stands under its name or any beginning
of it that no other switch shares; a value follows it as the next word, or in the same word after an equals
sign; more may follow the short name of help. A word that starts with a dash is still a value if it is a lone
dash, a negative number, or holds a space, and after the word `--` every word is a value. Of a switch that is
given twice the last value counts.

* `Arguments.read` — the request that the words make.
-/

set_option autoImplicit false

namespace Chip8

/-- What a command line can ask for besides the file. -/
inductive Switch where
  | help
  | cyclesPerSecond
  | maxCycles
  | keyboard
  | logLevel
  deriving DecidableEq, Repr

namespace Switch

def all : List Switch := [.help, .cyclesPerSecond, .maxCycles, .keyboard, .logLevel]

def name : Switch → String
  | .help => "--help"
  | .cyclesPerSecond => "--cycles-per-second"
  | .maxCycles => "--max-cycles"
  | .keyboard => "--keyboard"
  | .logLevel => "--log-level"

/-- The switch of exactly this name; help has a second, short name. -/
def named? (cs : List Char) : Option Switch :=
  if cs = ['-', 'h'] then some .help else all.find? fun s => s.name.toList = cs

/-- The switches whose names begin so. -/
def beginning (cs : List Char) : List Switch := all.filter fun s => cs.isPrefixOf s.name.toList

end Switch

/-- What a command line asks for. -/
structure Options where
  file : String
  settings : Settings
  logLevel : String
  deriving DecidableEq, Repr

/-- A command line as it is understood. -/
inductive Request where
  | play (o : Options)
  | help
  | refused
  deriving DecidableEq, Repr

namespace Arguments

/-! ## Words -/

/-- A word of the command line by what it can be. -/
inductive Word where
  | value (text : String)
  /-- The word after which there are only values. -/
  | separator
  /-- A switch, with the text after its equals sign if there is one. -/
  | switch (s : Switch) (text : Option String)
  | unknown
  deriving DecidableEq, Repr

/-- The part before the first equals sign, and the part after it if there is one. -/
def splitAtEquals (cs : List Char) : List Char × Option String :=
  match cs.dropWhile (· ≠ '=') with
  | [] => (cs, none)
  | _ :: text => (cs.takeWhile (· ≠ '='), some (String.ofList text))

/-- Whether there are digits and nothing else. -/
def allDigits (cs : List Char) : Bool := !cs.isEmpty && cs.all fun c => (Text.digitOf? c).isSome

/-- Whether the text after a dash makes a negative number: digits, or digits after a point and maybe before
it. A line break may end it. -/
def isNegative (cs : List Char) : Bool :=
  let body := if cs.getLast? = some '\n' then cs.dropLast else cs
  allDigits body ||
    (((body.takeWhile (· ≠ '.')).all fun c => (Text.digitOf? c).isSome)
      && allDigits ((body.dropWhile (· ≠ '.')).drop 1))

/-- A word that starts with a dash and names no switch. -/
def dashed (rest : List Char) : Word :=
  let cs := '-' :: rest
  if isNegative rest || cs.contains ' ' then .value (String.ofList cs) else .unknown

/-- What a word can be; nothing if it begins the names of several switches. -/
def Word.read (cs : List Char) : Option Word :=
  match cs with
  | '-' :: rest =>
    if rest = [] then some (.value "-")
    else
      match Switch.named? cs, splitAtEquals cs, rest with
      | some s, _, _ => some (.switch s none)
      | none, (head, text), '-' :: _ =>
        match Switch.named? head, Switch.beginning head with
        | some s, _ => some (.switch s text)
        | none, [s] => some (.switch s text)
        | none, [] => some (dashed rest)
        | none, _ => none
      | none, _, 'h' :: more =>
        if (more.dropWhile (· = 'h')).head? = some '=' then
          some (.switch .help (some (String.ofList more)))
        else some (.switch .help none)
      | none, _, _ => some (dashed rest)
  | _ => some (.value (String.ofList cs))

/-- The words of a command line; nothing if one of them is ambiguous. -/
def words? : List String → Option (List Word)
  | [] => some []
  | w :: rest =>
    if w = "--" then some (.separator :: rest.map .value)
    else
      match Word.read w.toList, words? rest with
      | some x, some xs => some (x :: xs)
      | _, _ => none

/-! ## Requests -/

/-- A request while its words are read. -/
structure Draft where
  file : Option String
  settings : Settings
  logLevel : String
  /-- Whether there was a word that has no place. -/
  surplus : Bool
  deriving DecidableEq, Repr

/-- The request before its first word: five hundred steps a second without end, and warnings shown. -/
def Draft.initial : Draft := ⟨none, ⟨500, none, false⟩, "WARNING", false⟩

/-- Give a switch its value; nothing if it cannot have this one. -/
def Draft.set (d : Draft) (s : Switch) (text : String) : Option Draft :=
  match s with
  | .help | .keyboard => none
  | .cyclesPerSecond =>
      (Text.integerOf? text.toList).map fun v =>
        { d with settings := { d.settings with cyclesPerSecond := v } }
  | .maxCycles =>
      (Text.integerOf? text.toList).map fun v =>
        { d with settings := { d.settings with maxCycles := some v } }
  | .logLevel => some { d with logLevel := text }

/-- A value that belongs to no switch: the file, or a word too many. -/
def Draft.give (d : Draft) (text : String) : Draft :=
  match d.file with
  | none => { d with file := some text }
  | some _ => { d with surplus := true }

/-- The request at the end of the words. -/
def Draft.finish (d : Draft) : Request :=
  match d.file, d.surplus with
  | some file, false => .play ⟨file, d.settings, d.logLevel⟩
  | _, _ => .refused

/-- The request that words make. The separator may stand right before or after the file. -/
def request (d : Draft) : List Word → Request
  | [] => d.finish
  | .switch .help none :: _ => .help
  | .switch .keyboard none :: rest =>
      request { d with settings := { d.settings with keyboard := true } } rest
  | .switch s (some text) :: rest =>
    match d.set s text with
    | some d => request d rest
    | none => .refused
  | .switch s none :: .value text :: rest =>
    match d.set s text with
    | some d => request d rest
    | none => .refused
  | .switch _ none :: _ => .refused
  | .unknown :: rest => request { d with surplus := true } rest
  | .value text :: .separator :: rest =>
    if d.file.isNone then request (d.give text) rest
    else request { d with surplus := true } rest
  | .value text :: rest => request (d.give text) rest
  | .separator :: .value text :: rest =>
    if d.file.isNone then request (d.give text) rest
    else request { d with surplus := true } rest
  | .separator :: rest => request { d with surplus := true } rest

/-- The request that a command line makes. -/
def read (args : List String) : Request :=
  match words? args with
  | some ws => request .initial ws
  | none => .refused

end Arguments

end Chip8
