import Chip8.CommandLine.Launch
import Mathlib.Data.List.Basic

/-!
# Command lines read back

Whatever a session is to be played with can be written on a command line, and is read from it again: both numbers of
steps as decimal numerals, the level by its name, and the file after the word that ends the switches, so that its name
may begin with a dash. Only numerals of more than 4300 digits are refused.

* `Text.integerOf?_toString` — an integer is read from its numeral, if that is short.
* `read_joined` — a switch is read with the value after its equals sign.
* `Choice`, `commandLine`, `chosen` — what can be asked for, as words and as what they ask.
* `read_commandLine` — the words ask for just this. `exists_chosen_eq` — and everything can be asked for.
* `Options.level_of_mem_names` — a level can be asked for by its names, in small and in capital letters.
-/

set_option autoImplicit false

namespace Chip8

/-! ## Integers -/

namespace Text

variable {c : Char} {cs : List Char}

theorem toNat_of_isDigit (h : c.isDigit) : 48 ≤ c.toNat ∧ c.toNat ≤ 57 := Char.isDigit_iff_toNat.1 h

theorem digitOf?_of_isDigit (h : c.isDigit) : digitOf? c = some (c.toNat - '0'.toNat) := by
  have hrange := toNat_of_isDigit h
  rw [digitOf?_ascii (by omega)]
  exact if_pos hrange

theorem isBlank_of_isDigit (h : c.isDigit) : isBlank c = false := by
  have hrange := toNat_of_isDigit h
  have hspace : c ≠ ' ' := by
    rintro rfl
    cases h
  simp [isBlank, wideBlanks, hspace]
  omega

theorem digitsOf?_cons_cons {d : Char} (hd : d ≠ '_') :
    digitsOf? (c :: d :: cs) =
      match digitOf? c, digitsOf? (d :: cs) with
      | some n, some ns => some (n :: ns)
      | _, _ => none := by
  conv_lhs => unfold digitsOf?
  split
  case h_1 h | h_2 h => cases h
  case h_3 h =>
    cases h
    exact absurd rfl hd
  case h_4 h => cases h; rfl

/-- A row of digits has their values. -/
theorem digitsOf?_of_isDigit (hcs : cs ≠ []) (h : ∀ c ∈ cs, c.isDigit) :
    digitsOf? cs = some (cs.map fun c => c.toNat - '0'.toNat) := by
  induction cs with
  | nil => exact absurd rfl hcs
  | cons c cs ih =>
    have hc := digitOf?_of_isDigit (h c List.mem_cons_self)
    cases cs with
    | nil => rw [digitsOf?, hc]; rfl
    | cons d cs =>
      have hd : d ≠ '_' := by
        rintro rfl
        cases h '_' (List.mem_cons_of_mem _ List.mem_cons_self)
      rw [digitsOf?_cons_cons hd, hc, ih (List.cons_ne_nil d cs) fun c hc => h c (List.mem_cons_of_mem _ hc)]
      rfl

/-- The decimal digits of a number. -/
def digits (n : Nat) : List Char := Nat.toDigits 10 n

theorem isDigit_of_mem_digits {n : Nat} (h : c ∈ digits n) : c.isDigit :=
  Nat.isDigit_of_mem_toDigits (by decide) (by decide) h

theorem digits_ne_nil (n : Nat) : digits n ≠ [] := Nat.toDigits_ne_nil

/-- A number is read from its digits, if there are not too many. -/
theorem natOf?_digits (n : Nat) : natOf? (digits n) = if (digits n).length ≤ 4300 then some n else none := by
  have hvalue : (digits n).foldl (fun m c => 10 * m + (c.toNat - '0'.toNat)) 0 = n := Nat.ofDigitChars_ten_toDigits
  rw [natOf?, digitsOf?_of_isDigit (digits_ne_nil n) fun c hc => isDigit_of_mem_digits hc]
  simp only [List.length_map, List.foldl_map, hvalue]

theorem dropWhile_isBlank (h : ∀ c ∈ cs, isBlank c = false) : cs.dropWhile isBlank = cs := by
  cases cs with
  | nil => rfl
  | cons c cs => rw [List.dropWhile_cons_of_neg (by rw [h c List.mem_cons_self]; decide)]

/-- Text without blanks stays as it is. -/
theorem trimmed_of_not_isBlank (h : ∀ c ∈ cs, isBlank c = false) : trimmed cs = cs := by
  rw [trimmed, dropWhile_isBlank h, dropWhile_isBlank (fun c hc => h c (List.mem_reverse.1 hc)), List.reverse_reverse]

theorem integerOf?_digits (n : Nat) : integerOf? (digits n) = (natOf? (digits n)).map fun n : Nat => (n : Int) := by
  have hdigit : ∀ c, (digits n).head? = some c → c ≠ '-' ∧ c ≠ '+' := by
    intro c hc
    have hmem := isDigit_of_mem_digits (List.mem_of_mem_head? hc)
    constructor <;> rintro rfl <;> cases hmem
  rw [integerOf?, trimmed_of_not_isBlank fun c hc => isBlank_of_isDigit (isDigit_of_mem_digits hc)]
  cases h : digits n with
  | nil => rfl
  | cons c cs =>
    rw [h] at hdigit
    obtain ⟨hminus, hplus⟩ := hdigit c rfl
    split <;> simp_all

theorem integerOf?_minus_digits (n : Nat) :
    integerOf? ('-' :: digits n) = (natOf? (digits n)).map fun n : Nat => -(n : Int) := by
  have hblank : ∀ c ∈ '-' :: digits n, isBlank c = false := by
    rw [List.forall_mem_cons]
    exact ⟨by decide, fun c hc => isBlank_of_isDigit (isDigit_of_mem_digits hc)⟩
  rw [integerOf?, trimmed_of_not_isBlank hblank]
  rfl

/-- Whether the numeral of an integer has no more digits than are read. -/
def short (v : Int) : Bool := decide ((digits v.natAbs).length ≤ 4300)

/-- **An integer is read from its numeral**, if this is short. -/
theorem integerOf?_toString (v : Int) : integerOf? (toString v).toList = if short v then some v else none := by
  simp only [short, decide_eq_true_eq]
  cases v with
  | ofNat n =>
    show _ = if (digits n).length ≤ 4300 then some (n : Int) else none
    have htext : (toString (Int.ofNat n)).toList = digits n := by
      rw [show toString (Int.ofNat n) = toString n from rfl, Nat.toString_eq_ofList_toDigits, String.toList_ofList]
      rfl
    rw [htext, integerOf?_digits, natOf?_digits]
    split <;> rfl
  | negSucc n =>
    show _ = if (digits (n + 1)).length ≤ 4300 then some (Int.negSucc n) else none
    have htext : (toString (Int.negSucc n)).toList = '-' :: digits (n + 1) := by
      rw [show toString (Int.negSucc n) = "-" ++ toString (n + 1) from rfl, Nat.toString_eq_ofList_toDigits,
        String.toList_append, show "-".toList = ['-'] from rfl, String.toList_ofList]
      rfl
    rw [htext, integerOf?_minus_digits, natOf?_digits]
    split <;> rfl

end Text

namespace Arguments

/-! ## Words -/

/-- A switch with its value after an equals sign. -/
def joined (s : Switch) (text : String) : String := s.name ++ "=" ++ text

theorem toList_joined (s : Switch) (text : String) : (joined s text).toList = s.name.toList ++ '=' :: text.toList := by
  rw [joined, String.append_assoc, String.toList_append, String.toList_append]
  rfl

/-- No name of a switch holds an equals sign. -/
theorem ne_equals_of_mem_name (s : Switch) : ∀ c ∈ s.name.toList, c ≠ '=' := by
  have hall : s.name.toList.all (· != '=') = true := by
    cases s <;> rfl
  exact fun c hc => bne_iff_ne.1 (List.all_eq_true.1 hall c hc)

theorem splitAtEquals_joined (s : Switch) (text : String) :
    splitAtEquals (joined s text).toList = (s.name.toList, some text) := by
  have hname : ∀ c ∈ s.name.toList, decide (c ≠ '=') = true := fun c hc => decide_eq_true (ne_equals_of_mem_name s c hc)
  rw [toList_joined, splitAtEquals, List.dropWhile_append_of_pos hname, List.takeWhile_append_of_pos hname]
  simp

theorem named?_name (s : Switch) : Switch.named? s.name.toList = some s := by
  cases s <;> rfl

/-- A text with an equals sign is no name. -/
theorem named?_joined (s : Switch) (text : String) : Switch.named? (joined s text).toList = none := by
  have hmem : '=' ∈ (joined s text).toList := by
    rw [toList_joined]
    exact List.mem_append_right _ List.mem_cons_self
  unfold Switch.named?
  rw [if_neg, List.find?_eq_none]
  · intro t _ h
    exact ne_equals_of_mem_name t '=' (of_decide_eq_true h ▸ hmem) rfl
  · intro h
    rw [h] at hmem
    exact absurd hmem (by decide)

/-- The names of switches start with two dashes. -/
theorem exists_name (s : Switch) : ∃ rest, s.name.toList = '-' :: '-' :: rest := by
  cases s <;> exact ⟨_, rfl⟩

theorem read_name (s : Switch) : Word.read s.name.toList = some (.switch s none) := by
  obtain ⟨rest, hrest⟩ := exists_name s
  have hnamed := named?_name s
  rw [hrest] at hnamed ⊢
  simp only [Word.read, hnamed, List.cons_ne_nil, if_false]

/-- **A switch is read with the value after its equals sign**, whatever this is. -/
theorem read_joined (s : Switch) (text : String) : Word.read (joined s text).toList = some (.switch s (some text)) := by
  obtain ⟨rest, hrest⟩ := exists_name s
  have hnone := named?_joined s text
  have hsplit := splitAtEquals_joined s text
  have hcs : (joined s text).toList = '-' :: '-' :: (rest ++ '=' :: text.toList) := by
    rw [toList_joined, hrest]
    rfl
  rw [hcs] at hnone hsplit ⊢
  simp only [Word.read, hnone, hsplit, named?_name, List.cons_ne_nil, if_false]

/-! ## Choices -/

/-- Something that a command line can ask for besides the file. -/
inductive Choice where
  | cyclesPerSecond (v : Int)
  | maxCycles (v : Int)
  | keyboard
  | logLevel (name : String)
  deriving DecidableEq, Repr

namespace Choice

/-- The word of the command line that asks for it. -/
def text : Choice → String
  | .cyclesPerSecond v => joined .cyclesPerSecond (toString v)
  | .maxCycles v => joined .maxCycles (toString v)
  | .keyboard => Switch.keyboard.name
  | .logLevel name => joined .logLevel name

/-- What the word is read as. -/
def word : Choice → Word
  | .cyclesPerSecond v => .switch .cyclesPerSecond (some (toString v))
  | .maxCycles v => .switch .maxCycles (some (toString v))
  | .keyboard => .switch .keyboard none
  | .logLevel name => .switch .logLevel (some name)

/-- What it makes of the options. -/
def apply (o : Options) : Choice → Options
  | .cyclesPerSecond v => { o with settings := { o.settings with cyclesPerSecond := v } }
  | .maxCycles v => { o with settings := { o.settings with maxCycles := some v } }
  | .keyboard => { o with settings := { o.settings with keyboard := true } }
  | .logLevel name => { o with logLevel := name }

/-- Whether it is understood: an integer is if its numeral is short. -/
def readable : Choice → Bool
  | .cyclesPerSecond v | .maxCycles v => Text.short v
  | .keyboard | .logLevel _ => true

theorem read_text (c : Choice) : Word.read c.text.toList = some c.word := by
  cases c with
  | keyboard => exact read_name .keyboard
  | _ => exact read_joined _ _

/-- No choice is the word that ends the switches. -/
theorem text_ne_separator (c : Choice) : c.text ≠ "--" := by
  intro h
  have hambiguous : Word.read "--".toList = none := by decide
  have hread := c.read_text
  rw [h, hambiguous] at hread
  cases hread

theorem file_apply (c : Choice) (o : Options) : (c.apply o).file = o.file := by
  cases c <;> rfl

end Choice

/-- A command line with some choices and a file. -/
def commandLine (choices : List Choice) (file : String) : List String := choices.map Choice.text ++ ["--", file]

/-- What these choices ask for, in their order, of the options that hold without one. -/
def chosen (choices : List Choice) (file : String) : Options :=
  choices.foldl Choice.apply ⟨file, ⟨500, none, false⟩, "WARNING"⟩

theorem words?_commandLine (choices : List Choice) (file : String) :
    words? (commandLine choices file) = some (choices.map Choice.word ++ [.separator, .value file]) := by
  induction choices with
  | nil => rfl
  | cons c choices ih =>
    rw [commandLine] at ih
    rw [commandLine, List.map_cons, List.cons_append, words?, if_neg c.text_ne_separator, c.read_text, ih]
    rfl

/-- A request that has asked for these options, but for the file. -/
def draftOf (o : Options) : Draft := ⟨none, o.settings, o.logLevel, false⟩

/-- A choice is made, unless its integer cannot be read. -/
theorem request_word (c : Choice) (o : Options) (ws : List Word) :
    request (draftOf o) (c.word :: ws) = if c.readable then request (draftOf (c.apply o)) ws else .refused := by
  cases c with
  | cyclesPerSecond v | maxCycles v =>
    simp only [Choice.word, request, Draft.set, Text.integerOf?_toString]
    show _ = if Text.short v then _ else _
    by_cases hshort : Text.short v = true
    · rw [if_pos hshort, if_pos hshort]
      rfl
    · rw [if_neg hshort, if_neg hshort]
      rfl
  | keyboard | logLevel =>
    simp only [Choice.word, request, Draft.set, Choice.readable, if_true]
    rfl

theorem request_words (choices : List Choice) (o : Options) :
    request (draftOf o) (choices.map Choice.word ++ [.separator, .value o.file]) =
      if choices.all Choice.readable then .play (choices.foldl Choice.apply o) else .refused := by
  induction choices generalizing o with
  | nil => rfl
  | cons c choices ih =>
    rw [List.map_cons, List.cons_append, request_word, ← c.file_apply o, ih, List.all_cons]
    cases c.readable <;> rfl

/-- **A command line asks for its choices**, the last one of a kind, and for its file. -/
theorem read_commandLine (choices : List Choice) (file : String) :
    read (commandLine choices file) =
      if choices.all Choice.readable then .play (chosen choices file) else .refused := by
  rw [read, words?_commandLine]
  exact request_words choices ⟨file, ⟨500, none, false⟩, "WARNING"⟩

/-- **Everything can be asked for**, and is understood if its numbers are short. -/
theorem exists_chosen_eq (o : Options) :
    ∃ choices, chosen choices o.file = o ∧
      choices.all Choice.readable = (Text.short o.settings.cyclesPerSecond && o.settings.maxCycles.all Text.short) := by
  obtain ⟨file, ⟨speed, most, keyboard⟩, name⟩ := o
  refine ⟨.cyclesPerSecond speed :: (most.toList.map .maxCycles ++
    ((if keyboard then [.keyboard] else []) ++ [.logLevel name])), ?_, ?_⟩
  · cases most <;> cases keyboard <;> rfl
  · cases most <;> cases keyboard <;> simp [Choice.readable]

end Arguments

/-! ## Levels -/

namespace Text

/-- A character whose capital letter is one of the first 128 is one of them itself. -/
theorem toNat_lt_of_toUpper {c : Char} (h : c.toUpper.toNat < 0x80) : c.toNat < 0x80 := by
  unfold Char.toUpper at h
  split at h
  · rename_i hletter
    have hlast : c.toNat ≤ 122 := hletter.2
    omega
  · exact h

end Text

/-- The names of levels are of the first 128 characters. -/
theorem Level.toNat_lt_of_mem_names {level : Level} {name : String} (hname : name ∈ level.names) :
    ∀ c ∈ name.toList, c.toNat < 0x80 := by
  have hall : level.names.all (fun name => name.toList.all fun c => decide (c.toNat < 0x80)) = true := by
    cases level <;> rfl
  exact fun c hc => of_decide_eq_true (List.all_eq_true.1 (List.all_eq_true.1 hall name hname) c hc)

/-- **A level can be asked for by each of its names**, in small and in capital letters. -/
theorem Options.level_of_mem_names {o : Options} {level : Level} {name : String} (hname : name ∈ level.names)
    (h : o.logLevel.toList.map Char.toUpper = name.toList) : o.level = .ok level := by
  have hcapitals : ∀ c ∈ o.logLevel.toList, Text.capitals c = [c.toUpper] := by
    intro c hc
    have hascii := Level.toNat_lt_of_mem_names hname c.toUpper (h ▸ List.mem_map_of_mem hc)
    exact Text.capitals_ascii (Text.toNat_lt_of_toUpper hascii)
  have hcapital : Text.capitalised o.logLevel = name := by
    rw [Text.capitalised, List.flatMap_congr hcapitals, ← List.map_eq_flatMap, h, String.ofList_toList]
  rw [Options.level, hcapital, Level.ofName?_eq_some_iff.2 hname]

end Chip8
