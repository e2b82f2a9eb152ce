/-!
# Integers as people write them

An integer may stand between blanks, may have a sign, and has digits of any script, between which single
underscores may stand. No more than 4300 digits are read.

* `digitOf?_ascii` — among the first 128 characters the digits are 0 to 9.
-/

set_option autoImplicit false

namespace Chip8.Text

/-- The zeros of all scripts; the nine characters after each are the other digits. -/
def zeros : List Nat :=
  [
    0x30, 0x660, 0x6F0, 0x7C0, 0x966, 0x9E6, 0xA66, 0xAE6, 0xB66, 0xBE6, 0xC66, 0xCE6, 0xD66, 0xDE6,
    0xE50, 0xED0, 0xF20, 0x1040, 0x1090, 0x17E0, 0x1810, 0x1946, 0x19D0, 0x1A80, 0x1A90, 0x1B50,
    0x1BB0, 0x1C40, 0x1C50, 0xA620, 0xA8D0, 0xA900, 0xA9D0, 0xA9F0, 0xAA50, 0xABF0, 0xFF10, 0x104A0,
    0x10D30, 0x11066, 0x110F0, 0x11136, 0x111D0, 0x112F0, 0x11450, 0x114D0, 0x11650, 0x116C0,
    0x11730, 0x118E0, 0x11950, 0x11C50, 0x11D50, 0x11DA0, 0x16A60, 0x16AC0, 0x16B50, 0x1D7CE,
    0x1D7D8, 0x1D7E2, 0x1D7EC, 0x1D7F6, 0x1E140, 0x1E2F0, 0x1E950, 0x1FBF0]

/-- The value of a decimal digit of any script. -/
def digitOf? (c : Char) : Option Nat :=
  if c.toNat < 0x80 then
    if '0' ≤ c ∧ c ≤ '9' then some (c.toNat - '0'.toNat) else none
  else (zeros.find? fun z => z ≤ c.toNat && c.toNat < z + 10).map fun z => c.toNat - z

theorem digitOf?_ascii {c : Char} (h : c.toNat < 0x80) :
    digitOf? c = if '0' ≤ c ∧ c ≤ '9' then some (c.toNat - '0'.toNat) else none := by
  rw [digitOf?, if_pos h]

/-- The characters after the first 128 that are blank. -/
def wideBlanks : List Nat :=
  [0x85, 0xA0, 0x1680, 0x2000, 0x2001, 0x2002, 0x2003, 0x2004, 0x2005, 0x2006, 0x2007, 0x2008, 0x2009,
    0x200A, 0x2028, 0x2029, 0x202F, 0x205F, 0x3000]

/-- Whether a character may stand around an integer: a space, a tab, a line or page break, or a blank of
another script. -/
def isBlank (c : Char) : Bool :=
  c = ' ' || (9 ≤ c.toNat && c.toNat ≤ 13) || wideBlanks.contains c.toNat

/-- The values of a row of digits; an underscore may stand between two of them. -/
def digitsOf? : List Char → Option (List Nat)
  | [] => none
  | [c] => (digitOf? c).map fun d => [d]
  | c :: '_' :: rest =>
    match digitOf? c, digitsOf? rest with
    | some d, some ds => some (d :: ds)
    | _, _ => none
  | c :: rest =>
    match digitOf? c, digitsOf? rest with
    | some d, some ds => some (d :: ds)
    | _, _ => none

/-- The natural number of a row of digits. -/
def natOf? (cs : List Char) : Option Nat :=
  match digitsOf? cs with
  | some ds => if ds.length ≤ 4300 then some (ds.foldl (fun n d => 10 * n + d) 0) else none
  | none => none

/-- The text without the blanks around it. -/
def trimmed (cs : List Char) : List Char :=
  ((cs.dropWhile isBlank).reverse.dropWhile isBlank).reverse

/-- The integer that a text writes. -/
def integerOf? (cs : List Char) : Option Int :=
  match trimmed cs with
  | '-' :: ds => (natOf? ds).map fun n : Nat => -(n : Int)
  | '+' :: ds => (natOf? ds).map fun n : Nat => (n : Int)
  | ds => (natOf? ds).map fun n : Nat => (n : Int)

end Chip8.Text
